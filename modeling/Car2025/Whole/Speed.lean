/-
  How fast the car goes ahead while it traces: `BASIC_SPEED`, or `Cir_SPEED` in a part of a circle.

  1. **Flag (`Vision.slow`)** — `Vision_Cir_PI_Handle` sets `cir_speed_flag` before it changes the stage of
     the circle, so the flag tells the stage that the frame before has left.

  2. **Last frame (`Program.Framed`)** — in a run, the frame whose borders are being traced.

  3. **Result (`traced_speed`)** — the car is slow in a circle exactly if the frame found it in
     `Circule_State3` or `Circule_out`; between them, in `Circule_Cor`, it is fast.
-/
import Mathlib
import Car2025.Whole.Finish

namespace Car2025

open RoadSymbol_type Circule Outcome Speed_Con_Right

/-! ## Flag -/

section

variable {R : Type} {o : Outside}

/-- The stages of a circle in which the car is slow. -/
def Vision.slow (s : Vision R) : Bool :=
  decide (s.Circule_Handle.state = Circule_State3) || decide (s.Circule_Handle.state = Circule_out)

/-- The road, if it is a circle, is handled with the flag that the stage asks for. -/
def Vision.Flagged (slow : Bool) (s' : Vision R) : Prop :=
  s'.Current_Road = CirculeRoads → s'.cir_speed_flag = slow

variable [CFloat R]

omit [CFloat R] in
theorem CirculeHandle_enter_slow (s : Vision R) : (CirculeHandle_enter s).slow = s.slow := by
  rw [CirculeHandle_enter]
  split
  · rename_i hbegin
    rw [Vision.slow, Vision.slow, hbegin]
    rfl
  · rfl

omit [CFloat R] in
/-- The error detection is no matter of the slow stages. -/
theorem CirculeHandle_check_slow (s : Vision R) :
    Ends (fun _ => True) (CirculeHandle_check s) fun s' => s'.slow = s.slow := by
  rw [CirculeHandle_check]
  refine Ends.ite (fun hstate => ?_) fun _ => Ends.of_pure rfl
  -- the detection runs in stages that are not slow, and drops back to one
  have hslow : s.slow = false := by
    rw [Vision.slow]
    rcases hstate with hstate | hstate <;> rw [hstate] <;> rfl
  cases deref s.Circule_Handle.anti_cir_seg with
  | error e => exact trivial
  | ok side =>
    refine Ends.ite (fun _ => Ends.of_pure ?_) fun _ => Ends.of_pure rfl
    rw [hslow]
    rfl

/-- The flag is set for the stage that the frame finds, before the `switch`, and each stage leaves
    it. -/
theorem Vision_Cir_PI_Handle_flag (inp : Inputs R) (s : Vision R) :
    Ends (fun _ => True) (Vision_Cir_PI_Handle o inp s) fun s' => s'.cir_speed_flag = s.slow := by
  rw [Vision_Cir_PI_Handle]
  -- The flag is set first, from the stage the frame begins in; no stage writes it after that.
  generalize hflagged : ({ s with
    cir_speed_flag := decide (s.Circule_Handle.state = Circule_State3) ||
      decide (s.Circule_Handle.state = Circule_out) } : Vision R) = s₁
  have hflag : s₁.cir_speed_flag = s.slow := by
    rw [← hflagged]
    rfl
  have hkeeps : ∀ {x : Except Stop (Vision R)}, Keeps s₁ x →
      Ends (fun _ => True) x fun s' => s'.cir_speed_flag = s.slow := fun hx =>
    hx.imp fun s' hs' => hs'.cir_speed_flag.trans hflag
  cases s₁.Circule_Handle.state with
  | Circule_State1 => exact hkeeps (Vision_CirculeState1_Handle_keeps s₁)
  | Circule_State2 => exact Ends.of_pure hflag
  | Circule_State3 =>
    dsimp only
    rw [Cir_PI_State3]
    refine Ends.bind (hkeeps (circule_lines_keeps _ _ s₁)) fun s' hs' => ?_
    exact Ends.ite (fun _ => Ends.of_pure hs') fun _ => Ends.of_pure hs'
  | Circule_Cor =>
    refine Ends.of_pure ?_
    rw [Cir_PI_Cor]
    split <;> exact hflag
  | Circule_out =>
    dsimp only
    rw [Cir_PI_out]
    refine Ends.bind (hkeeps (circule_lines_keeps _ _ s₁)) fun s' hs' => ?_
    exact Ends.ite (fun _ => Ends.of_pure hs') fun _ => Ends.of_pure hs'
  | Circule_Begin | Circule_in | Circule_end => exact Ends.of_pure hflag

theorem Vision_CirculeHandle_flag (inp : Inputs R) (s : Vision R) :
    Ends (fun _ => True) (Vision_CirculeHandle o inp s) fun s' => s'.cir_speed_flag = s.slow := by
  rw [Vision_CirculeHandle]
  refine Ends.bind (CirculeHandle_check_slow (CirculeHandle_enter s)) fun s₁ hs₁ => ?_
  refine (Vision_Cir_PI_Handle_flag inp s₁).imp fun s' hs' => ?_
  rw [hs', hs₁, CirculeHandle_enter_slow]

/-- The road is no circle in the end. -/
def NoCircule (x : Except Stop (Vision R)) : Prop :=
  Ends (fun _ => True) x fun s' => s'.Current_Road ≠ CirculeRoads

omit [CFloat R] in
theorem NoCircule.of_normal {s : Vision R} (h : s.Current_Road = NormalRoads) :
    NoCircule (pure s) := by
  refine Ends.of_pure ?_
  rw [h]
  decide

omit [CFloat R] in
/-- Whatever came before. -/
theorem NoCircule.bind {α : Type} {x : Except Stop α} {f : α → Except Stop (Vision R)}
    (hf : ∀ a, NoCircule (f a)) : NoCircule (x >>= f) := by
  cases x with
  | error e => exact trivial
  | ok a => exact hf a

/-- A crossing does not become a circle. -/
theorem Vision_CrossHandle_road {s : Vision R} (h : s.Current_Road ≠ CirculeRoads) :
    NoCircule (Vision_CrossHandle o s) := by
  have hextend : ∀ v : Vision R, v.Current_Road ≠ CirculeRoads → NoCircule (CrossHandle_extend o v) :=
    fun v hv => (CrossHandle_extend_keeps v).imp fun s' hs' => by
      rw [hs'.Current_Road]
      exact hv
  rw [Vision_CrossHandle]
  cases s.Cross_state with
  | Cross_Begin =>
    refine Ends.ite (fun _ => NoCircule.of_normal rfl) fun _ => Ends.ite (fun _ => ?_) fun _ => ?_
    · exact hextend { s with Cross_state := Cross.Cross_State_1 } h
    · exact hextend s h
  | Cross_State_1 =>
    refine Ends.ite (fun _ => ?_) fun _ => hextend s h
    exact NoCircule.bind fun s' => hextend _ (show NormalRoads ≠ CirculeRoads by decide)

/-- **The road handlers** set the flag for every frame that ends in a circle, to the stage in which
    the frame found it: the handler of the circle writes it before it moves on to the next stage. -/
theorem Vision_RSHandle_flag (inp : Inputs R) (s : Vision R) :
    Ends (fun _ => True) (Vision_RSHandle o inp s) (Vision.Flagged s.slow) := by
  rw [Vision_RSHandle]
  have hnormal : ∀ {x : Except Stop (Vision R)}, NoCircule x →
      Ends (fun _ => True) x (Vision.Flagged s.slow) := fun hx =>
    hx.imp fun s' hne hroad => absurd hroad hne
  cases hroad : s.Current_Road with
  | CirculeRoads => exact (Vision_CirculeHandle_flag inp s).imp fun s' hs' _ => hs'
  | CrossRoads =>
    refine hnormal (Vision_CrossHandle_road ?_)
    rw [hroad]
    decide
  | LoseRoads => exact hnormal (NoCircule.of_normal rfl)
  | NormalRoads => exact hnormal (NoCircule.of_normal hroad)
  | CornerRoads =>
    refine hnormal ?_
    show NoCircule (Vision_CornerHandle o s)
    rw [Vision_CornerHandle]
    exact NoCircule.bind fun s' => NoCircule.of_normal rfl
  | ZebraRoads =>
    refine hnormal ?_
    exact Ends.ite (fun _ => trivial) fun _ => Ends.ite (fun _ => NoCircule.of_normal rfl) fun _ =>
      NoCircule.of_normal rfl

/-- **A frame** that ends in a circle has set the flag for the stage in which it found it.
    Elsewhere the flag keeps an old value, which nobody looks at. -/
theorem Vision_picture_flag {s s' : Vision R} {c : Picture R}
    (h : Vision_picture o s c = .ok s') : Vision.Flagged s.slow s' := by
  obtain ⟨v, hv, hs'⟩ := exists_of_bind h
  obtain ⟨found, hfound, hv'⟩ := exists_of_bind hv
  have hslow : v.slow = s.slow := by
    rw [← Except.ok.inj hv']
    rfl
  rw [← hslow]
  exact (Vision_RSHandle_flag c.inp v).of_ok hs'

end

/-! ## Last frame -/

namespace Program

variable {o : Outside} {s : Program ℚ}

/-- In the run `as` the tracing thread has handled a frame, which found the circle at a slow stage or
    not, and has been at `trace_line_method` since. -/
def Framed (o : Outside) (b : Boot ℚ) (as : List (Action ℚ)) (slow : Bool) : Prop :=
  ∃ pre c mid, as = pre ++ .trace_line false c :: mid ∧
    (b.start.run o pre).hand.trace = .Vision_Handle ∧ (b.start.run o pre).vision.slow = slow ∧
    ∀ k, k <+: mid →
      (b.start.run o (pre ++ .trace_line false c :: k)).hand.trace = .trace_line_method

theorem Framed.concat {b : Boot ℚ} {as : List (Action ℚ)} {slow : Bool} (h : Framed o b as slow)
    (a : Action ℚ) (htrace : (b.start.run o (as ++ [a])).hand.trace = .trace_line_method) :
    Framed o b (as ++ [a]) slow := by
  obtain ⟨pre, c, mid, rfl, hpre, hslow, hmid⟩ := h
  refine ⟨pre, c, mid ++ [a], ?_, hpre, hslow, fun k hk => ?_⟩
  · rw [List.append_assoc, List.cons_append]
  · rcases List.prefix_concat_iff.mp hk with rfl | hk
    · rw [← List.cons_append, ← List.append_assoc]
      exact htrace
    · exact hmid k hk

/-- What is no step of the tracing thread leaves what it is about to trace. -/
theorem act_traced {a : Action ℚ} (ha : ∀ working c, a ≠ .trace_line working c) :
    (s.act o a).hand.trace = s.hand.trace ∧
      (s.act o a).vision.Current_Road = s.vision.Current_Road ∧
      (s.act o a).vision.cir_speed_flag = s.vision.cir_speed_flag := by
  cases a with
  | trace_line working c => exact absurd rfl (ha working c)
  | locate_box i =>
    refine ⟨?_, rfl, rfl⟩
    show (s.hand.locate_box_entry i).trace = s.hand.trace
    rw [Handover.locate_box_entry]
    cases s.hand.locate with
    | sem_take stage | release => rfl
    | call | direction_correction_test1 =>
      dsimp only
      split <;> rfl
  | car_motion r count | mcx bytes | art bytes | image | clock ticks | button | CarStart =>
    exact ⟨rfl, rfl, rfl⟩

/-- The tracing thread comes to `trace_line_method` from `Vision_Handle` only. -/
theorem trace_of_method {i : TraceInput ℚ} {h : Handover ℚ} (hmore : i.more = false)
    (htrace : (h.trace_line_entry i).trace = .trace_line_method) : h.trace = .Vision_Handle := by
  revert htrace
  rw [Handover.trace_line_entry]
  cases h.trace with
  | Vision_Handle => exact fun _ => rfl
  | trace_line_method =>
    intro htrace
    dsimp only at htrace
    rw [hmore] at htrace
    exact TracePc.noConfusion htrace
  | sem_take stage =>
    dsimp only
    intro htrace
    cases hstage : (h.trace_line_sem.take Thread.trace_line stage).1 <;> rw [hstage] at htrace <;>
      exact TracePc.noConfusion htrace
  | loop | detection | timer =>
    dsimp only
    split <;> exact fun htrace => TracePc.noConfusion htrace
  | _ => exact fun htrace => TracePc.noConfusion htrace

/-- **In every run** the borders that are about to be traced are those of a frame that has set the
    flag, by induction on the run. -/
theorem run_framed (o : Outside) (b : Boot ℚ) (as : List (Action ℚ)) :
    (b.start.run o as).hand.trace = .trace_line_method →
      ∃ slow, Framed o b as slow ∧ Vision.Flagged slow (b.start.run o as).vision := by
  induction as using List.reverseRecOn with
  | nil => exact fun htrace => TracePc.noConfusion htrace
  | append_singleton as a ih =>
    have hrun := run_concat o b.start as a
    have hsound := run_sound (o := o) b as
    intro htrace
    -- only the tracing thread can come to `trace_line_method`, and it does so from `Vision_Handle`
    by_cases ha : ∃ working c, a = .trace_line working c
    · obtain ⟨working, c, rfl⟩ := ha
      have hnew := htrace
      rw [hrun] at hnew ⊢
      change ((b.start.run o as).trace_line_entry o working c).hand.trace = _ at hnew
      change ∃ slow, _ ∧ Vision.Flagged slow ((b.start.run o as).trace_line_entry o working c).vision
      generalize hs : b.start.run o as = s at hsound hnew ih ⊢
      rw [trace_line_entry] at hnew ⊢
      cases hfinish : s.finish with
      | some stage =>
        rw [hfinish] at hnew
        have hvision := hsound.finish (by rw [hfinish]; exact Option.some_ne_none stage)
        exact TracePc.noConfusion
          ((Handover.trace_line_entry_more hvision _).symm.trans hnew)
      | none =>
        rw [hfinish] at hnew
        dsimp only at hnew ⊢
        cases hpc : s.hand.trace with
        | Vision_Handle =>
          rw [hpc] at hnew
          dsimp only at hnew ⊢
          cases working with
          | true => exact TracePc.noConfusion (hpc.symm.trans hnew)
          | false =>
            rw [if_neg Bool.false_ne_true] at hnew ⊢
            rw [Vision_Handle] at hnew ⊢
            cases hpicture : Vision_picture o s.vision (s.picture c) with
            | ok vision =>
              refine ⟨s.vision.slow, ⟨as, c, [], rfl, ?_, ?_, fun k hk => ?_⟩,
                Vision_picture_flag hpicture⟩
              · rw [hs]
                exact hpc
              · rw [hs]
              · rw [List.prefix_nil.mp hk]
                exact htrace
            | error e =>
              rw [hpicture] at hnew
              cases e <;> exact TracePc.noConfusion (hpc.symm.trans hnew)
        | _ =>
          rw [hpc] at hnew
          exact TracePc.noConfusion (hpc.symm.trans (trace_of_method rfl hnew))
    · obtain ⟨hold, hroad, hflag⟩ := act_traced (o := o) (s := b.start.run o as)
        (a := a) fun working c h => ha ⟨working, c, h⟩
      obtain ⟨slow, hframed, hflagged⟩ := ih (by rw [← hold, ← hrun]; exact htrace)
      refine ⟨slow, hframed.concat a htrace, fun hcircule => ?_⟩
      rw [hrun] at hcircule ⊢
      rw [hflag]
      exact hflagged (hroad.symm.trans hcircule)

/-- **The speed ahead** — whenever the borders of a frame are traced, with the switch on, the car is
    asked to go ahead at `Cir_SPEED` if the road is a circle that the frame found in `Circule_State3` or
    `Circule_out`, and at `BASIC_SPEED` otherwise. -/
theorem traced_speed (o : Outside) (b : Boot ℚ) (as : List (Action ℚ)) (working : Bool)
    (c : Picture ℚ) (htrace : (b.start.run o as).hand.trace = .trace_line_method)
    (hon : (b.start.run o as).motion.car.Car_BootSwitch = true) :
    ∃ slow, Framed o b as slow ∧
      (b.start.run o (as ++ [.trace_line working c])).motion.car.Car_Speed.Vy =
        (if (b.start.run o as).vision.Current_Road = CirculeRoads ∧ slow = true then Cir_SPEED
          else BASIC_SPEED : ℤ) := by
  obtain ⟨slow, hframed, hflagged⟩ := run_framed o b as htrace
  refine ⟨slow, hframed, ?_⟩
  have hsound := run_sound (o := o) b as
  have hline := run_method_line b as htrace
  rw [run_concat]
  generalize b.start.run o as = s at htrace hon hflagged hsound hline ⊢
  have hfinish : s.finish = none := by
    by_contra hne
    exact TracePc.noConfusion (htrace.symm.trans (hsound.finish hne))
  have hmethod : s.act o (.trace_line working c) = s.method := by
    show s.trace_line_entry o working c = s.method
    rw [trace_line_entry, hfinish, htrace]
  have hcar : s.method.motion.car = s.method.line.car := by
    show (s.hand.trace_line_entry _).push.motion.car = _
    rw [Handover.trace_line_entry, htrace]
    rfl
  have hnow : s.traced.speed_now =
      if s.vision.Current_Road = CirculeRoads ∧ slow = true then 100 else 400 := by
    show (if s.vision.Current_Road = CirculeRoads ∧ s.vision.cir_speed_flag = true then (100 : ℚ)
      else 400) = _
    -- elsewhere the flag may be an old one, but is not looked at
    by_cases hroad : s.vision.Current_Road = CirculeRoads
    · rw [hflagged hroad]
    · rw [if_neg fun h => hroad h.1, if_neg fun h => hroad h.1]
  rw [hmethod, hcar, hline, TraceLine.steer_car, Car_Change_Speed]
  rw [if_pos (show s.traced.car.Car_BootSwitch = true from hon), hnow]
  dsimp only
  split_ifs <;> rfl

theorem traced_speed_first :
    ∃ slow, Framed .reads Boot.parked firstFrame slow ∧
      (Boot.parked.start.run .reads
          (firstFrame ++ [.trace_line false lostPicture])).motion.car.Car_Speed.Vy =
        (if (Boot.parked.start.run .reads firstFrame).vision.Current_Road = CirculeRoads ∧ slow = true
          then Cir_SPEED else BASIC_SPEED : ℤ) :=
  traced_speed .reads Boot.parked firstFrame false lostPicture (by decide +kernel) (by decide +kernel)

end Program

end Car2025
