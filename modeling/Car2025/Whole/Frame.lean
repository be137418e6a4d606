/-
  What a frame of the tracing thread does to the car.

  1. **Handlers (`Car.Moved`)** — `Vision_SymbolJudge` and `Vision_RSHandle` leave the car, ask it to
     stand still, or give the control right back to the tracing code; nothing else.

  2. **Tracing (`TraceLine.Tuned`)** — with its controllers set up, `trace_line_method` asks for a speed
     within fixed bounds.
-/
import Mathlib
import Car2025.Envelope
import Car2025.TraceLine
import Car2025.Vision.Road

namespace Car2025

open Speed_Con_Right RoadSymbol_type Circule Car2025.Cross Outcome

/-! ## Handlers -/

section

variable {R : Type} [CFloat R] {o : Outside}

/-- All that a frame can do to the car. -/
inductive Car.Moved (car : Car R) : Car R → Prop
  | kept : Car.Moved car car
  | halted : Car.Moved car (Car_Change_Speed (CFloat.ofInt 0) (CFloat.ofInt 0) (CFloat.ofInt 0) car)
  | given : Car.Moved car { car with Car_Speed_ConRight := Con_By_TraceLine }

/-- A handler that, if it returns, has done no more to the car than that. -/
def Handles (s : Vision R) (x : Except Stop (Vision R)) : Prop :=
  Ends (fun _ => True) x fun s' => Car.Moved s.car s'.car

/-- A program that does not work on the car may come first. -/
theorem Handles.bind {α : Type} {s : Vision R} {x : Except Stop α}
    {f : α → Except Stop (Vision R)} (hf : ∀ a, Handles s (f a)) : Handles s (x >>= f) := by
  cases x with
  | error e => exact trivial
  | ok a => exact hf a

/-- What comes after a program that keeps the car. -/
theorem Handles.after {s : Vision R} {x : Except Stop (Vision R)}
    {f : Vision R → Except Stop (Vision R)}
    (hx : Ends (fun _ => True) x fun s' => s'.car = s.car) (hf : ∀ s', Handles s' (f s')) :
    Handles s (x >>= f) := by
  refine Ends.bind hx fun s' hs' => ?_
  have hmoved := hf s'
  rwa [Handles, hs'] at hmoved

theorem Handles.of_pure {s s' : Vision R} (h : s'.car = s.car) : Handles s (pure s') := by
  refine Ends.of_pure ?_
  rw [h]
  exact .kept

/-- What a program that draws leaves: all the programs that only draw lines into the borders are
    alike for what is proved here, whichever lines they draw. -/
structure Vision.Drawn (s s' : Vision R) : Prop where
  car : s'.car = s.car
  cir_speed_flag : s'.cir_speed_flag = s.cir_speed_flag
  Current_Road : s'.Current_Road = s.Current_Road

/-- A program that draws keeps the car and the road. -/
def Keeps (s : Vision R) (x : Except Stop (Vision R)) : Prop :=
  Ends (fun _ => True) x s.Drawn

omit [CFloat R] in
theorem Keeps.bind {α : Type} {s : Vision R} {x : Except Stop α} {f : α → Except Stop (Vision R)}
    (hf : ∀ a, Keeps s (f a)) : Keeps s (x >>= f) := by
  cases x with
  | error e => exact trivial
  | ok a => exact hf a

theorem Keeps.handles {s : Vision R} {x : Except Stop (Vision R)} (h : Keeps s x) : Handles s x :=
  h.imp fun s' hs' => by
    rw [hs'.car]
    exact .kept

omit [CFloat R] in
theorem Keeps.car {s : Vision R} {x : Except Stop (Vision R)} (h : Keeps s x) :
    Ends (fun _ => True) x fun s' => s'.car = s.car := h.imp fun _ hs' => hs'.car

theorem CrossHandle_extend_keeps (s : Vision R) : Keeps s (CrossHandle_extend o s) := by
  rw [CrossHandle_extend]
  refine Ends.ite (fun _ => Ends.ite (fun _ => ?_) fun _ => Ends.ite (fun _ => ?_) fun _ => ?_)
    fun _ => Ends.of_pure ⟨rfl, rfl, rfl⟩
  · exact Keeps.bind fun _ => Keeps.bind fun _ => Ends.of_pure ⟨rfl, rfl, rfl⟩
  · exact Keeps.bind fun _ => Keeps.bind fun _ => Ends.of_pure ⟨rfl, rfl, rfl⟩
  · exact Ends.of_pure ⟨rfl, rfl, rfl⟩

/-- The car halts where a crossing is left. -/
theorem CrossHandle_side_handles (s : Vision R) : Handles s (CrossHandle_side o s) := by
  rw [CrossHandle_side]
  refine Ends.ite (fun _ => ?_) fun _ => Handles.of_pure rfl
  exact Handles.bind fun _ => Handles.bind fun _ => Handles.bind fun _ => Handles.bind fun _ =>
    Handles.bind fun _ => Ends.of_pure .halted

theorem Vision_CrossHandle_handles (s : Vision R) : Handles s (Vision_CrossHandle o s) := by
  rw [Vision_CrossHandle]
  -- entering a crossing draws, leaving it halts the car as well
  cases s.Cross_state with
  | Cross_Begin =>
    refine Ends.ite (fun _ => Handles.of_pure rfl) fun _ => Ends.ite (fun _ => ?_) fun _ => ?_
    · exact (CrossHandle_extend_keeps { s with Cross_state := Cross_State_1 }).handles
    · exact (CrossHandle_extend_keeps s).handles
  | Cross_State_1 =>
    refine Ends.ite (fun _ => ?_) fun _ => (CrossHandle_extend_keeps s).handles
    refine Ends.bind (CrossHandle_side_handles s) fun s' hs' => ?_
    refine (CrossHandle_extend_keeps
      { s' with Cross_state := Cross_Begin, Current_Road := NormalRoads }).imp fun s'' hs'' => ?_
    rw [hs''.car]
    exact hs'

omit [CFloat R] in
theorem lose_segment_rows_keeps (side : Side) (s : Vision R) :
    Keeps s (lose_segment_rows o side s) :=
  Keeps.bind fun _ => Ends.of_pure ⟨rfl, rfl, rfl⟩

theorem Vision_CornerHandle_handles (s : Vision R) : Handles s (Vision_CornerHandle o s) := by
  rw [Vision_CornerHandle]
  refine Handles.after (f := fun s => pure { s with Current_Road := NormalRoads }) ?_
    fun s' => Handles.of_pure rfl
  refine Ends.ite (fun _ => Ends.of_pure rfl) fun _ => Ends.ite (fun _ => ?_) fun _ =>
    Ends.ite (fun _ => ?_) fun _ => Ends.of_pure rfl
  · exact Ends.ite (fun _ => (lose_segment_rows_keeps .R s).car) fun _ =>
      Ends.ite (fun _ => (lose_segment_rows_keeps .L s).car) fun _ => Ends.of_pure rfl
  · exact Ends.ite (fun _ => (lose_segment_rows_keeps .R s).car) fun _ =>
      Ends.ite (fun _ => (lose_segment_rows_keeps .L s).car) fun _ => Ends.of_pure rfl

theorem Vision_CirculeState1_Handle_keeps (s : Vision R) :
    Keeps s (Vision_CirculeState1_Handle o s) := by
  rw [Vision_CirculeState1_Handle]
  refine Keeps.bind fun _ => Keeps.bind fun _ => Ends.bind (m := s.Drawn) ?_
    fun s' hs' => ?_
  · refine Ends.ite (fun _ => ?_) fun _ => Ends.of_pure ⟨rfl, rfl, rfl⟩
    exact Keeps.bind fun _ => Keeps.bind fun _ => Keeps.bind fun _ => Keeps.bind fun _ =>
      Keeps.bind fun _ => Keeps.bind fun _ => Keeps.bind fun _ => Ends.of_pure ⟨rfl, rfl, rfl⟩
  · have hdrawn : ∀ h : Circule_Handle_t, s.Drawn { s' with Circule_Handle := h } := fun h =>
      ⟨hs'.car, hs'.cir_speed_flag, hs'.Current_Road⟩
    exact Ends.ite (fun _ => Ends.ite (fun _ => Ends.of_pure (hdrawn _)) fun _ =>
      Ends.of_pure (hdrawn _)) fun _ => Ends.of_pure (hdrawn _)

theorem circule_lines_keeps (far near : Side → ℤ) (s : Vision R) :
    Keeps s (circule_lines o far near s) :=
  Keeps.bind fun _ => Keeps.bind fun _ => Keeps.bind fun _ => Keeps.bind fun _ =>
    Keeps.bind fun _ => Keeps.bind fun _ => Ends.of_pure ⟨rfl, rfl, rfl⟩

/-- The control right is given back where a circle has turned far enough. -/
theorem Cir_PI_State3_handles (inp : Inputs R) (s : Vision R) :
    Handles s (Cir_PI_State3 o inp s) := by
  rw [Cir_PI_State3]
  refine Handles.after (circule_lines_keeps _ _ s).car fun s' => ?_
  exact Ends.ite (fun _ => Ends.of_pure .given) fun _ => Handles.of_pure rfl

theorem Cir_PI_out_handles (inp : Inputs R) (s : Vision R) : Handles s (Cir_PI_out o inp s) := by
  rw [Cir_PI_out]
  refine Handles.after (circule_lines_keeps _ _ s).car fun s' => ?_
  exact Ends.ite (fun _ => Ends.of_pure .given) fun _ => Handles.of_pure rfl

theorem Cir_PI_Cor_car (inp : Inputs R) (s : Vision R) : (Cir_PI_Cor inp s).car = s.car := by
  rw [Cir_PI_Cor]
  split <;> rfl

theorem Vision_Cir_PI_Handle_handles (inp : Inputs R) (s : Vision R) :
    Handles s (Vision_Cir_PI_Handle o inp s) := by
  rw [Vision_Cir_PI_Handle]
  -- the flag is set for the stage in which the frame finds the circle, before the `switch`
  generalize hflagged : ({ s with
    cir_speed_flag := decide (s.Circule_Handle.state = Circule_State3) ||
      decide (s.Circule_Handle.state = Circule_out) } : Vision R) = s₁
  have hcar : s₁.car = s.car := by rw [← hflagged]
  rw [Handles, ← hcar]
  cases s₁.Circule_Handle.state with
  | Circule_State1 => exact (Vision_CirculeState1_Handle_keeps s₁).handles
  | Circule_State2 => exact Handles.of_pure rfl
  | Circule_State3 => exact Cir_PI_State3_handles inp s₁
  | Circule_Cor => exact Handles.of_pure (Cir_PI_Cor_car inp s₁)
  | Circule_out => exact Cir_PI_out_handles inp s₁
  | Circule_Begin | Circule_in | Circule_end => exact Handles.of_pure rfl

omit [CFloat R] in
theorem CirculeHandle_check_car (s : Vision R) :
    Ends (fun _ => True) (CirculeHandle_check s) fun s' => s'.car = s.car := by
  refine Ends.ite (fun _ => ?_) fun _ => Ends.of_pure rfl
  cases deref s.Circule_Handle.anti_cir_seg with
  | error e => exact trivial
  | ok side => exact Ends.ite (fun _ => Ends.of_pure rfl) fun _ => Ends.of_pure rfl

theorem Vision_CirculeHandle_handles (inp : Inputs R) (s : Vision R) :
    Handles s (Vision_CirculeHandle o inp s) := by
  have henter : (CirculeHandle_enter s).car = s.car := by
    rw [CirculeHandle_enter]
    split <;> rfl
  refine Handles.after ?_ (Vision_Cir_PI_Handle_handles inp)
  exact (CirculeHandle_check_car (CirculeHandle_enter s)).imp fun s' hs' => hs'.trans henter

/-- **The road handlers** do no more to the car than `Moved` allows: of all of them only the
    circle's touch it, to halt it and to give the control right back. -/
theorem Vision_RSHandle_handles (inp : Inputs R) (s : Vision R) :
    Handles s (Vision_RSHandle o inp s) := by
  rw [Vision_RSHandle]
  cases s.Current_Road with
  | LoseRoads | NormalRoads => exact Handles.of_pure rfl
  | CrossRoads => exact Vision_CrossHandle_handles s
  | CirculeRoads => exact Vision_CirculeHandle_handles inp s
  | CornerRoads => exact Vision_CornerHandle_handles s
  -- it starts the clock or leaves the car; at the end of the run it does not return
  | ZebraRoads =>
    exact Ends.ite (fun _ => trivial) fun _ => Ends.ite (fun _ => Handles.of_pure rfl) fun _ =>
      Handles.of_pure rfl

/-- **A frame**, from its borders to the end of the handlers: what finds the road does not see the
    car, so a whole frame does to it what its handler does. -/
theorem Vision_picture_moved {s s' : Vision R} {c : Picture R}
    (h : Vision_picture o s c = .ok s') : Car.Moved c.car s'.car := by
  obtain ⟨v, hv, hs'⟩ := exists_of_bind h
  obtain ⟨found, hfound, hv'⟩ := exists_of_bind hv
  have hcar : v.car = c.car := by
    rw [← Except.ok.inj hv']
    rfl
  have hmoved := (Vision_RSHandle_handles c.inp v).of_ok hs'
  rwa [hcar] at hmoved

end

/-! ## Tracing -/

/-- The limits of a controller.  A call never changes them, and its output is between them whatever
    it has summed up, so they bound what is asked of the car for good. -/
structure Pos_PID_t.Limits (plant : Pos_PID_t ℚ) (limit : ℚ) : Prop where
  Output_Max : plant.Output_Max = limit
  Output_Min : plant.Output_Min = -limit

theorem Pos_PID_t.Limits.call {plant : Pos_PID_t ℚ} {limit : ℚ} (h : plant.Limits limit) (v : ℚ) :
    (Pos_PID_Controller plant v).2.Limits limit := by
  have hs := Pos_PID_Controller_settings plant v
  simp only [Pos_PID_t.settings, Prod.mk.injEq] at hs
  exact ⟨hs.2.2.2.2.1.trans h.Output_Max, hs.2.2.2.2.2.1.trans h.Output_Min⟩

theorem Pos_PID_t.Limits.output {plant : Pos_PID_t ℚ} {limit : ℚ} (h : plant.Limits limit)
    (hlimit : 0 ≤ limit) (v : ℚ) : |(Pos_PID_Controller plant v).1| ≤ limit := by
  have hout := Pos_PID_Controller_output plant v (by rw [h.Output_Max, h.Output_Min]; linarith)
  rw [h.Output_Max, h.Output_Min] at hout
  exact abs_le.mpr hout

/-- The controllers of the tracing code as `trace_line_init` sets them up.  These two limits are
    the whole reason why a traced frame asks for no more than 200 to the side and 300 around. -/
structure TraceLine.Tuned (s : TraceLine ℚ) : Prop where
  Normal : s.TraceLine_Normal_Con.Limits 300
  Vx : s.TraceLine_Vx_Con.Limits 200

/-- The speed record after `Car_Change_Speed`: the one that is asked for, but for the angle loop's part
    of it, or the one before. -/
theorem Car_Change_Speed_within {car : Car ℚ} {x y a vx vy omega : ℚ}
    (hcar : car.Car_Speed.Within x y a) (hx : |vx| ≤ x) (hy : |vy| ≤ y) (ha : |omega| ≤ a) :
    (Car_Change_Speed vx vy omega car).Car_Speed.Within x y a := by
  rw [Car_Change_Speed]
  -- while the switch is off the command is dropped, and the angle loop keeps its `Omega`
  split_ifs with hon hright
  · exact ⟨hx, hy, ha⟩
  · exact ⟨hx, hy, hcar.Omega⟩
  · exact hcar

theorem Car_Change_Speed_ConRight {R : Type} (vx vy omega : R) (car : Car R) :
    (Car_Change_Speed vx vy omega car).Car_Speed_ConRight = car.Car_Speed_ConRight := by
  rw [Car_Change_Speed]
  split <;> rfl

/-- `speed_now` of `trace_line_method`. -/
def TraceLine.speed_now (s : TraceLine ℚ) : ℚ :=
  if s.Current_Road = CirculeRoads ∧ s.cir_speed_flag = true then 100 else 400

/-- **The speed that a traced frame asks for**; the bound below 0 never takes effect. -/
theorem TraceLine.steer_car (offset : ℚ) (s : TraceLine ℚ) :
    (s.steer offset).car =
      Car_Change_Speed (Pos_PID_Controller s.TraceLine_Vx_Con offset).1 s.speed_now
        (Pos_PID_Controller s.TraceLine_Normal_Con
          (offset - CFloat.ofInt (s.icm20602_gyro_z.tdiv 100))).1 s.car := by
  have hnow : (CFloat.ofInt
      (if s.Current_Road = CirculeRoads ∧ s.cir_speed_flag = true then Cir_SPEED else BASIC_SPEED) :
        ℚ) = s.speed_now := by
    rw [TraceLine.speed_now]
    split_ifs <;> rfl
  have hpos : CFloat.lt s.speed_now (CFloat.ofInt 0) = false := by
    rw [← Bool.not_eq_true, CFloat.lt_rat, CFloat.ofInt_rat, TraceLine.speed_now]
    split_ifs <;> norm_num
  rw [TraceLine.steer]
  simp only [hnow, hpos, Bool.false_eq_true, if_false]

/-- **A traced frame** asks for a speed of at most 200 to the side, of 100 or 400 forwards, and of at
    most 300 around. -/
theorem TraceLine.Tuned.method {s : TraceLine ℚ} (h : s.Tuned) (I : Image) :
    (trace_line_method I s).Tuned ∧
      ((trace_line_method I s).car = s.car ∨ ∃ vx omega : ℚ,
        (trace_line_method I s).car = Car_Change_Speed vx s.speed_now omega s.car ∧
          |vx| ≤ 200 ∧ |omega| ≤ 300) := by
  rw [trace_line_method]
  split_ifs with hright
  · exact ⟨⟨h.Normal.call _, h.Vx.call _⟩, Or.inr ⟨_, _, TraceLine.steer_car _ s,
      h.Vx.output (by norm_num) _, h.Normal.output (by norm_num) _⟩⟩
  · exact ⟨h, Or.inl rfl⟩

end Car2025
