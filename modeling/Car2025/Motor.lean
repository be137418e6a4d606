/-
  `motor.c` and the part of `encoder.c` it reads: the speed loop of the three wheels.

  1. **Program** — every call of `motor_run` filters the encoders, runs the three controllers on the
     reference of the call before, and only then moves the references toward the targets.

  2. **One wheel** — what a call does to it, in exact arithmetic: the duty and the integral are
     limited, the reference makes one step of `Slew.slew`.

  3. **Runs (`motor_loop`)** — duty and integral stay limited, the reference stays between the
     targets it was given and reaches one that is held.

  The three wheels differ in their gains, the sign of the second encoder and their pins; `Wheel` is
  the letter in the source's names.  The pins, the fourth encoder and the static `diff` of
  `Slew_Func`, which every call overwrites, are left out.
-/
import Mathlib
import Car2025.Lib.Slew
import Car2025.PID

namespace Car2025

/-! ## Program -/

/-- The motors `A`, `B` and `C`, with the encoders 1, 2 and 3. -/
inductive Wheel where
  | A
  | B
  | C
  deriving DecidableEq, Repr

open Wheel

/-- `Motor_PID_A`, `MA_target_speed`, `Motor_A_Act_Speed`, and what was last given to
    `gpio_set_level` and `pwm_set_duty`; likewise for `B` and `C`. -/
structure Motor (R : Type) where
  PID : Pos_PID_t R
  target_speed : R
  Act_Speed : R
  DIR : Bool
  duty : ℕ

/-- `RC_Para` -/
structure RC_Para (R : Type) where
  temp : R
  value : R
  RC : R

/-- The globals of the two files. -/
structure Motors (R : Type) where
  motor : Wheel → Motor R
  Encoder_Para : Wheel → RC_Para R
  RC_encoder : Wheel → R

section

variable {R : Type}

def Motors.set (m : Motors R) (w : Wheel) (x : Motor R) : Motors R :=
  { m with motor := Function.update m.motor w x }

@[simp] theorem Motors.set_motor_self (m : Motors R) (w : Wheel) (x : Motor R) :
    (m.set w x).motor w = x := Function.update_self ..

theorem Motors.set_motor_of_ne (m : Motors R) {w w' : Wheel} (h : w' ≠ w) (x : Motor R) :
    (m.set w x).motor w' = m.motor w' := Function.update_of_ne h ..

/-- The target of one motor is set. -/
def Motors.aim (m : Motors R) (w : Wheel) (target : R) : Motors R :=
  m.set w { m.motor w with target_speed := target }

theorem Motors.aim_of_ne (m : Motors R) {w w' : Wheel} (h : w' ≠ w) (target : R) :
    (m.aim w target).motor w' = m.motor w' := m.set_motor_of_ne h _

theorem Motors.aim_self (m : Motors R) (w : Wheel) (target : R) :
    (m.aim w target).motor w = { m.motor w with target_speed := target } := m.set_motor_self w _

/-- `Motor_Set_Speed` -/
def Motor_Set_Speed (Motor_CH : ℕ) (target_speed : R) (m : Motors R) : Motors R :=
  if Motor_CH = 1 then m.aim A target_speed
  else if Motor_CH = 2 then m.aim B target_speed
  else if Motor_CH = 3 then m.aim C target_speed
  else m

/-- The three targets are set. -/
theorem Motors.Set_Speed_motor (m : Motors R) (target : Wheel → R) (w : Wheel) :
    (Motor_Set_Speed 3 (target C) (Motor_Set_Speed 2 (target B)
      (Motor_Set_Speed 1 (target A) m))).motor w = { m.motor w with target_speed := target w } := by
  show (((m.aim A (target A)).aim B (target B)).aim C (target C)).motor w = _
  cases w with
  | A => rw [Motors.aim_of_ne _ (by decide), Motors.aim_of_ne _ (by decide), Motors.aim_self]
  | B => rw [Motors.aim_of_ne _ (by decide), Motors.aim_self, Motors.aim_of_ne _ (by decide)]
  | C => rw [Motors.aim_self, Motors.aim_of_ne _ (by decide), Motors.aim_of_ne _ (by decide)]

variable [CFloat R]

/-- `MOTOR_SOFTBOOT_RATE` -/
def MOTOR_SOFTBOOT_RATE : R := CFloat.ofRat 100

/-- `RCFilter` -/
def RCFilter (value : R) (Filter : RC_Para R) : RC_Para R :=
  { Filter with
    temp := value
    value := (CFloat.ofInt 1 - Filter.RC) * Filter.value + Filter.RC * value }

/-- `encoder_getvalue`, with the counts of the three timers; the second is negated. -/
def encoder_getvalue (count : Wheel → ℤ) (m : Motors R) : Motors R :=
  let encoder : Wheel → ℤ := fun
    | A => count A
    | B => -count B
    | C => count C
  let para := fun w => RCFilter (CFloat.ofInt (encoder w)) (m.Encoder_Para w)
  { m with Encoder_Para := para, RC_encoder := fun w => (para w).value }

/-- `Slew_Func`: what it returns, and the new `*slewVal`. -/
def Slew_Func (slewVal refVal slewRate : R) : ℤ × R :=
  let diff := refVal - slewVal
  if CFloat.lt diff slewRate = false then (1, slewVal + slewRate)
  else if CFloat.lt (-diff) slewRate = false then (-1, slewVal - slewRate)
  else (0, refVal)

/-- `MotorA_Set_Pwm` and its two siblings, on the globals of their motor. -/
def Motor.Set_Pwm (pwm : ℤ) (m : Motor R) : Motor R :=
  { m with
    PID := { m.PID with Ref := (Slew_Func m.PID.Ref m.target_speed MOTOR_SOFTBOOT_RATE).2 }
    DIR := decide (pwm > 0)
    duty := pwm.natAbs }

def MotorA_Set_Pwm (pwm : ℤ) (m : Motors R) : Motors R := m.set A ((m.motor A).Set_Pwm pwm)
def MotorB_Set_Pwm (pwm : ℤ) (m : Motors R) : Motors R := m.set B ((m.motor B).Set_Pwm pwm)
def MotorC_Set_Pwm (pwm : ℤ) (m : Motors R) : Motors R := m.set C ((m.motor C).Set_Pwm pwm)

/-- `Motor_A_Act_Speed` and its two siblings, from the filtered encoder. -/
def Motor_Act_Speed (RC_encoder : R) : R :=
  RC_encoder * CFloat.ofInt 1000 / CFloat.ofInt 1024 * CFloat.ofRat (314 / 100) *
    CFloat.ofRat (61 / 10)

/-- The controller of one motor is run; its output, converted, and the globals after it. -/
def Motors.control (m : Motors R) (w : Wheel) : ℤ × Motors R :=
  let (output, PID) := Pos_PID_Controller (m.motor w).PID (m.motor w).Act_Speed
  (CFloat.toInt output, m.set w { m.motor w with PID := PID })

/-- `Motor_Pwm_cb` -/
def Motor_Pwm_cb (m : Motors R) : Motors R :=
  let m := { m with motor := fun w => { m.motor w with Act_Speed := Motor_Act_Speed (m.RC_encoder w) } }
  let (pwm, m) := m.control A
  let m := MotorA_Set_Pwm pwm m
  let (pwm, m) := m.control B
  let m := MotorB_Set_Pwm pwm m
  let (pwm, m) := m.control C
  MotorC_Set_Pwm pwm m

/-- `motor_run` -/
def motor_run (count : Wheel → ℤ) (m : Motors R) : Motors R :=
  Motor_Pwm_cb (encoder_getvalue count m)

/-- One motor after `Motor_init`, by its gains. -/
def Motor.init (Kp Ki Kd : R) (m : Motor R) : Motor R :=
  { m with
    PID :=
      { Pos_PID_Init m.PID Kp Ki Kd with
        Ref := CFloat.ofInt 0
        Output_Max := CFloat.ofInt 9500
        Output_Min := CFloat.ofInt (-9500)
        Value_I_Max := CFloat.ofInt 50000 }
    target_speed := CFloat.ofInt 0
    DIR := false
    duty := 0 }

/-- `Motor_init` -/
def Motor_init (m : Motors R) : Motors R :=
  { m with
    motor := fun
      | A => (m.motor A).init (CFloat.ofInt 20) (CFloat.ofRat (115 / 1000)) (CFloat.ofInt 0)
      | B => (m.motor B).init (CFloat.ofInt (-20)) (CFloat.ofRat (-115 / 1000)) (CFloat.ofInt 0)
      | C => (m.motor C).init (CFloat.ofInt 20) (CFloat.ofRat (115 / 1000)) (CFloat.ofInt 0) }

/-! ## Runs -/

/-- One turn of the loop: the targets that were set before it, and the counts it reads. -/
structure Turn (R : Type) where
  target : Wheel → R
  count : Wheel → ℤ

/-- The targets are set as `mecanumRun` does, then `motor_run` is called. -/
def Motors.turn (m : Motors R) (t : Turn R) : Motors R :=
  motor_run t.count (Motor_Set_Speed 3 (t.target C)
    (Motor_Set_Speed 2 (t.target B) (Motor_Set_Speed 1 (t.target A) m)))

def Motors.run (m : Motors R) (ts : List (Turn R)) : Motors R := ts.foldl Motors.turn m

/-! ## One wheel -/

/-- What `Motor_Pwm_cb` does to one motor, given its filtered encoder. -/
def Motor.Pwm_cb (RC_encoder : R) (m : Motor R) : Motor R :=
  let (output, PID) := Pos_PID_Controller m.PID (Motor_Act_Speed RC_encoder)
  Motor.Set_Pwm (CFloat.toInt output)
    { m with PID := PID, Act_Speed := Motor_Act_Speed RC_encoder }

namespace Motors

variable (m : Motors R)

/-- Control and duty of one motor. -/
def drive (w : Wheel) : Motors R :=
  (m.control w).2.set w (((m.control w).2.motor w).Set_Pwm (m.control w).1)

theorem drive_of_ne {w w' : Wheel} (h : w' ≠ w) : (m.drive w).motor w' = m.motor w' := by
  rw [drive, set_motor_of_ne _ h]
  exact set_motor_of_ne m h _

theorem drive_self (w : Wheel) :
    (m.drive w).motor w =
      Motor.Set_Pwm (CFloat.toInt (Pos_PID_Controller (m.motor w).PID (m.motor w).Act_Speed).1)
        { m.motor w with
          PID := (Pos_PID_Controller (m.motor w).PID (m.motor w).Act_Speed).2 } := by
  rw [drive, set_motor_self, control]
  dsimp only
  rw [set_motor_self]

/-- **The wheels do not see each other**, so what is proved of one is proved of all four. -/
theorem Pwm_cb_motor (w : Wheel) :
    (Motor_Pwm_cb m).motor w = (m.motor w).Pwm_cb (m.RC_encoder w) := by
  have hcb : Motor_Pwm_cb m =
      ((({ m with motor := fun w =>
        { m.motor w with Act_Speed := Motor_Act_Speed (m.RC_encoder w) } } : Motors R).drive
          A).drive B).drive C := rfl
  rw [hcb]
  cases w with
  | A =>
    rw [drive_of_ne _ (by decide), drive_of_ne _ (by decide), drive_self]
    rfl
  | B =>
    rw [drive_of_ne _ (by decide), drive_self, drive_of_ne _ (by decide)]
    rfl
  | C =>
    rw [drive_self, drive_of_ne _ (by decide), drive_of_ne _ (by decide)]
    rfl

/-- What a turn does to one motor. -/
theorem turn_motor (t : Turn R) (w : Wheel) :
    ∃ RC_encoder, (m.turn t).motor w =
      ({ m.motor w with target_speed := t.target w } : Motor R).Pwm_cb RC_encoder := by
  rw [turn, motor_run, Pwm_cb_motor]
  refine ⟨_, congrArg (Motor.Pwm_cb _) ?_⟩
  exact m.Set_Speed_motor t.target w

theorem run_concat (ts : List (Turn R)) (t : Turn R) :
    m.run (ts ++ [t]) = (m.run ts).turn t := by
  rw [Motors.run, List.foldl_append, List.foldl_cons, List.foldl_nil, Motors.run]

end Motors

end

/-! ## One wheel in exact arithmetic -/

theorem Slew_Func_eq (slewVal refVal slewRate : ℚ) :
    (Slew_Func slewVal refVal slewRate).2 = Slew.slew slewRate refVal slewVal := by
  have hge : ∀ a b : ℚ, CFloat.lt a b = false ↔ b ≤ a := by
    intro a b
    rw [← Bool.not_eq_true, CFloat.lt_rat, not_lt]
  rw [Slew_Func, Slew.slew]
  simp only [hge]
  split_ifs <;> rfl

namespace Motor

variable (m : Motor ℚ) (RC_encoder : ℚ)

/-- The settings that the limits rest on; `Motor_init` makes them, and nothing changes them later. -/
structure Limited : Prop where
  Output_Max : m.PID.Output_Max = 9500
  Output_Min : m.PID.Output_Min = -9500
  Value_I_Max : m.PID.Value_I_Max = 50000

variable {m}

theorem init_limited (Kp Ki Kd : ℚ) (m : Motor ℚ) : (m.init Kp Ki Kd).Limited :=
  ⟨rfl, rfl, rfl⟩

theorem Limited.Pwm_cb (h : m.Limited) : (m.Pwm_cb RC_encoder).Limited := by
  have hs := Pos_PID_Controller_settings m.PID (Motor_Act_Speed RC_encoder)
  simp only [Pos_PID_t.settings, Prod.mk.injEq] at hs
  exact ⟨hs.2.2.2.2.1.trans h.Output_Max, hs.2.2.2.2.2.1.trans h.Output_Min,
    hs.2.2.2.2.2.2.trans h.Value_I_Max⟩

/-- The reference makes one step. -/
theorem Pwm_cb_Ref :
    (m.Pwm_cb RC_encoder).PID.Ref = Slew.slew 100 m.target_speed m.PID.Ref := by
  show (Slew_Func (Pos_PID_Controller m.PID (Motor_Act_Speed RC_encoder)).2.Ref m.target_speed
    MOTOR_SOFTBOOT_RATE).2 = _
  rw [Pos_PID_Controller_Ref, Slew_Func_eq]
  rfl

theorem Limited.Pwm_cb_duty (h : m.Limited) : (m.Pwm_cb RC_encoder).duty ≤ 9500 := by
  have hout := Pos_PID_Controller_output m.PID (Motor_Act_Speed RC_encoder)
    (by rw [h.Output_Max, h.Output_Min]; norm_num)
  rw [h.Output_Max, h.Output_Min] at hout
  exact CFloat.natAbs_toInt_le (abs_le.mpr (by exact_mod_cast hout))

theorem Limited.Pwm_cb_integral (h : m.Limited) :
    |(m.Pwm_cb RC_encoder).PID.Value_I| ≤ 50000 := by
  have hint := Pos_PID_Controller_integral m.PID (Motor_Act_Speed RC_encoder)
    (by rw [h.Value_I_Max]; norm_num)
  rw [h.Value_I_Max] at hint
  exact hint

end Motor

/-! ## The loop -/

/-- `x` lies between the smallest and the largest of 0 and the targets seen. -/
def Hull (seen : List ℚ) (x : ℚ) : Prop :=
  (∃ lo ∈ 0 :: seen, lo ≤ x) ∧ ∃ hi ∈ 0 :: seen, x ≤ hi

/-- A step of the ramp stays in the hull of the targets, the new one included. -/
theorem Hull.slew {seen : List ℚ} {x rate : ℚ} (h : Hull seen x) (hr : 0 < rate) (target : ℚ) :
    Hull (seen ++ [target]) (Slew.slew rate target x) := by
  obtain ⟨⟨lo, hlo, hlx⟩, hi, hhi, hxh⟩ := h
  have hold : ∀ y ∈ 0 :: seen, y ∈ 0 :: (seen ++ [target]) := by
    intro y hy
    exact List.mem_append_left [target] hy
  have hnew : target ∈ 0 :: (seen ++ [target]) :=
    List.mem_append_right (0 :: seen) List.mem_cons_self
  constructor
  · rcases le_total lo target with ht | ht
    · exact ⟨lo, hold lo hlo, Slew.le_slew hr hlx ht⟩
    · exact ⟨target, hnew, Slew.le_slew hr (ht.trans hlx) le_rfl⟩
  · rcases le_total target hi with ht | ht
    · exact ⟨hi, hold hi hhi, Slew.slew_le hr hxh ht⟩
    · exact ⟨target, hnew, Slew.slew_le hr (hxh.trans ht) le_rfl⟩

/-- What every turn leaves of one motor, with the targets it has seen: the reference is between
    them, as the ramp only goes from one towards the next. -/
structure Motor.Safe (m : Motor ℚ) (seen : List ℚ) : Prop where
  limited : m.Limited
  duty : m.duty ≤ 9500
  integral : |m.PID.Value_I| ≤ 50000
  hull : Hull seen m.PID.Ref

theorem Motor.init_safe (Kp Ki Kd : ℚ) (m : Motor ℚ) : (m.init Kp Ki Kd).Safe [] where
  limited := init_limited Kp Ki Kd m
  duty := Nat.zero_le _
  integral := by
    show |((0 : ℤ) : ℚ)| ≤ 50000
    norm_num
  hull := ⟨⟨0, List.mem_cons_self, le_rfl⟩, 0, List.mem_cons_self, le_rfl⟩

theorem Motor.Safe.Pwm_cb {m : Motor ℚ} {seen : List ℚ} (h : m.Safe seen) (target RC_encoder : ℚ) :
    (({ m with target_speed := target } : Motor ℚ).Pwm_cb RC_encoder).Safe (seen ++ [target]) := by
  have hlim : ({ m with target_speed := target } : Motor ℚ).Limited :=
    ⟨h.limited.Output_Max, h.limited.Output_Min, h.limited.Value_I_Max⟩
  refine ⟨hlim.Pwm_cb RC_encoder, hlim.Pwm_cb_duty RC_encoder, hlim.Pwm_cb_integral RC_encoder, ?_⟩
  rw [Motor.Pwm_cb_Ref]
  exact h.hull.slew (by norm_num) target

/-- **Every motor is safe after every run**, by induction on the run from its end. -/
theorem Motors.run_safe (m : Motors ℚ) (ts : List (Turn ℚ)) (w : Wheel) :
    (((Motor_init m).run ts).motor w).Safe (ts.map fun t => t.target w) := by
  induction ts using List.reverseRecOn with
  | nil =>
    cases w with
    | A => exact Motor.init_safe _ _ _ _
    | B => exact Motor.init_safe _ _ _ _
    | C => exact Motor.init_safe _ _ _ _
  | append_singleton ts t ih =>
    obtain ⟨RC_encoder, hturn⟩ := ((Motor_init m).run ts).turn_motor t w
    rw [Motors.run_concat, hturn, List.map_append]
    exact ih.Pwm_cb (t.target w) RC_encoder

/-- Turns with one target make the steps of one ramp. -/
theorem Motors.run_Ref (w : Wheel) (target : ℚ) (ts : List (Turn ℚ)) :
    ∀ m : Motors ℚ, (∀ t ∈ ts, t.target w = target) →
      ((m.run ts).motor w).PID.Ref =
        (Slew.slew 100 target)^[ts.length] (m.motor w).PID.Ref := by
  induction ts with
  | nil =>
    intro m _
    rfl
  | cons t ts ih =>
    intro m h
    obtain ⟨RC_encoder, hturn⟩ := m.turn_motor t w
    have ht : t.target w = target := h t List.mem_cons_self
    show (((m.turn t).run ts).motor w).PID.Ref = _
    rw [ih (m.turn t) fun t' ht' => h t' (List.mem_cons_of_mem t ht'), hturn,
      Motor.Pwm_cb_Ref, ht, List.length_cons, Function.iterate_succ_apply]

/-- **The motor loop** — after any run from `Motor_init`, for every motor: the duty and the
    integral are limited; the reference lies in the hull of the targets; the next turn moves it by
    at most `MOTOR_SOFTBOOT_RATE`; and turns with one target bring it there in
    `⌈|target - Ref| / MOTOR_SOFTBOOT_RATE⌉` and keep it there. -/
theorem motor_loop (m₀ : Motors ℚ) (ts : List (Turn ℚ)) (w : Wheel) :
    (((Motor_init m₀).run ts).motor w).duty ≤ 9500 ∧
    |(((Motor_init m₀).run ts).motor w).PID.Value_I| ≤ 50000 ∧
    Hull (ts.map fun t => t.target w) (((Motor_init m₀).run ts).motor w).PID.Ref ∧
    (∀ t : Turn ℚ, |(((Motor_init m₀).run (ts ++ [t])).motor w).PID.Ref -
      (((Motor_init m₀).run ts).motor w).PID.Ref| ≤ MOTOR_SOFTBOOT_RATE) ∧
    ∀ (target : ℚ) (held : List (Turn ℚ)), (∀ t ∈ held, t.target w = target) →
      ⌈|target - (((Motor_init m₀).run ts).motor w).PID.Ref| / MOTOR_SOFTBOOT_RATE⌉₊ ≤
        held.length →
      (((Motor_init m₀).run (ts ++ held)).motor w).PID.Ref = target := by
  have hsafe := Motors.run_safe m₀ ts w
  refine ⟨hsafe.duty, hsafe.integral, hsafe.hull, fun t => ?_, fun target held hheld hlen => ?_⟩
  · obtain ⟨RC_encoder, hturn⟩ := ((Motor_init m₀).run ts).turn_motor t w
    rw [Motors.run_concat, hturn, Motor.Pwm_cb_Ref]
    exact Slew.abs_slew_sub_le (by norm_num) _ _
  · have happ : (Motor_init m₀).run (ts ++ held) = ((Motor_init m₀).run ts).run held :=
      List.foldl_append
    rw [happ, Motors.run_Ref w target held _ hheld]
    exact Slew.iterate_eq (by norm_num) hlen

end Car2025
