/-
  `step_motor.c`: the servos of the arm and of the turntable, moved slowly.

  1. **Program** — `servo_slow_ctrl` moves two servos in one loop and `Step_angle_con` one.  The delay of
     a pass is left out; a pass leaves the positions, and the duties it sends.

  2. **Ramps (`servo_loops_return`)** — a positive number of steps is enough, and no servo leaves the
     range between its start and its target.

  3. **Last command (`servo_slow_ctrl_commanded_iff`)** — the loop ends when both servos are less than 1
     away, and a position below the target is truncated to the angle before it.

  The sequences of moves that catch and put a box are left out.
-/
import Mathlib
import Car2025.Lib.CFloat
import Car2025.Lib.Ramp

namespace Car2025

open Ramp

/-! ## Program -/

inductive Pin where
  | DOWN_MOTOR_CON_PIN
  | UP_MOTOR_CON_PIN
  | TURN_MOTOR_CON_PIN
  deriving DecidableEq, Repr

open Pin

/-- A call of `pwm_set_duty`. -/
structure Command where
  pin : Pin
  duty : ℤ
  deriving DecidableEq, Repr

/-- `servo1_duty`, `servo2_duty` and `step_duty`: the angles that are taken for the present ones. -/
structure StepMotor where
  servo1_duty : UInt16
  servo2_duty : UInt16
  step_duty : UInt16
  deriving DecidableEq, Repr

/-- What a move leaves: the recorded angles, the positions after each pass and the commands. -/
structure Moved (P : Type) where
  motor : StepMotor
  positions : List P
  commands : List Command

def PWM_DUTY_MAX : ℤ := 10000
def STEP_MOTOR_FRE : ℤ := 50

section

variable (R : Type) [CFloat R]

/-- `(uint32)SERVO_MOTOR_DUTY(x)` -/
def SERVO_MOTOR_DUTY (x : UInt16) : ℤ :=
  CFloat.toInt (CFloat.ofInt PWM_DUTY_MAX / (CFloat.ofInt 1000 / CFloat.ofInt STEP_MOTOR_FRE) *
    (CFloat.ofRat (1 / 2) + CFloat.ofInt x.toNat / CFloat.ofInt 90) : R)

/-- `(uint32)SERVO_360_MOTOR_DUTY(x)` -/
def SERVO_360_MOTOR_DUTY (x : UInt16) : ℤ :=
  CFloat.toInt (CFloat.ofInt PWM_DUTY_MAX / (CFloat.ofInt 1000 / CFloat.ofInt STEP_MOTOR_FRE) *
    (CFloat.ofRat (1 / 2) + CFloat.ofInt x.toNat / CFloat.ofInt 180) : R)

/-- The positions of the two servos of the arm. -/
structure Arm where
  servo1_start : R
  servo2_start : R

variable {R}

/-- `(uint16)x` -/
def to_uint16 (x : R) : UInt16 := UInt16.ofInt (CFloat.toInt x)

/-- `if(fabsf(start - target) >= step) start += step; else start = target;` -/
def servo_move (target : UInt16) (step start : R) : R :=
  if CFloat.lt (CFloat.abs (start - CFloat.ofInt target.toNat)) step then CFloat.ofInt target.toNat
  else start + step

/-- `fabsf(start - target) < 1` -/
def servo_near (target : UInt16) (start : R) : Bool :=
  CFloat.lt (CFloat.abs (start - CFloat.ofInt target.toNat)) (CFloat.ofInt 1)

/-- One pass of `servo_slow_ctrl`, and its test. -/
def Arm.move (_servo1_angle _servo2_angle : UInt16) (servo1_step servo2_step : R) (arm : Arm R) :
    Arm R where
  servo1_start := servo_move _servo1_angle servo1_step arm.servo1_start
  servo2_start := servo_move _servo2_angle servo2_step arm.servo2_start

def Arm.near (_servo1_angle _servo2_angle : UInt16) (arm : Arm R) : Bool :=
  servo_near _servo1_angle arm.servo1_start && servo_near _servo2_angle arm.servo2_start

/-- The commands of a pass. -/
def Arm.commands (arm : Arm R) : List Command :=
  [⟨DOWN_MOTOR_CON_PIN, SERVO_MOTOR_DUTY R (to_uint16 arm.servo1_start)⟩,
    ⟨UP_MOTOR_CON_PIN, SERVO_MOTOR_DUTY R (to_uint16 arm.servo2_start)⟩]

/-- `servo_slow_ctrl`, with `fuel` passes at most. -/
def servo_slow_ctrl (fuel : ℕ) (_servo1_angle _servo2_angle : UInt16) (_step_count : R)
    (m : StepMotor) : Option (Moved (Arm R)) := do
  let servo1_step := CFloat.ofInt (_servo1_angle.toNat - m.servo1_duty.toNat) / _step_count
  let servo2_step := CFloat.ofInt (_servo2_angle.toNat - m.servo2_duty.toNat) / _step_count
  let positions ← moveUntil (Arm.move _servo1_angle _servo2_angle servo1_step servo2_step)
    (Arm.near _servo1_angle _servo2_angle) fuel
    ⟨CFloat.ofInt m.servo1_duty.toNat, CFloat.ofInt m.servo2_duty.toNat⟩
  pure {
    motor := { m with servo1_duty := _servo1_angle, servo2_duty := _servo2_angle }
    positions
    commands := positions.flatMap Arm.commands }

/-- `Step_angle_con`, with `fuel` passes at most. -/
def Step_angle_con (R : Type) [CFloat R] (fuel : ℕ) (target_angle : UInt16) (count : ℤ)
    (m : StepMotor) : Option (Moved R) := do
  let servo1_step := CFloat.ofInt (target_angle.toNat - m.step_duty.toNat) / CFloat.ofInt count
  let positions ← moveUntil (servo_move target_angle servo1_step) (servo_near target_angle) fuel
    (CFloat.ofInt m.step_duty.toNat)
  pure {
    motor := { m with step_duty := target_angle }
    positions
    commands := positions.map fun x =>
      ⟨TURN_MOTOR_CON_PIN, SERVO_360_MOTOR_DUTY R (to_uint16 x)⟩ }

end

/-! ## Ramps -/

/-- The step that takes a servo from `start` to `target` in `c` passes. -/
def servo_step (start target : UInt16) (c : ℕ) : ℚ :=
  CFloat.ofInt (target.toNat - start.toNat) / (c : ℚ)

theorem servo_step_eq (start target : UInt16) (c : ℕ) :
    servo_step start target c = ((target.toNat : ℚ) - start.toNat) / c := by
  rw [servo_step, CFloat.ofInt_rat]
  push_cast
  rfl

/-- The position of a servo after `k` of `c` passes. -/
def position (start target : UInt16) (c k : ℕ) : ℚ := ramp (start.toNat : ℚ) target.toNat c k

section

variable {start target start2 target2 : UInt16} {c k : ℕ}

theorem servo_move_eq (target : UInt16) (step x : ℚ) :
    servo_move target step x = approach (target.toNat : ℚ) step x := by
  simp [servo_move, approach]

theorem servo_near_iff (target : UInt16) (x : ℚ) :
    servo_near target x = true ↔ |x - target.toNat| < 1 := by
  simp [servo_near]

theorem iterate_servo_move (start target : UInt16) (hk : k ≤ c) :
    (servo_move target (servo_step start target c))^[k] (start.toNat : ℚ) =
      position start target c k := by
  have hmove : servo_move target (servo_step start target c) =
      approach (target.toNat : ℚ) (servo_step start target c) :=
    funext (servo_move_eq target _)
  rw [hmove, servo_step_eq]
  exact iterate_approach _ _ hk

/-- The two servos move independently. -/
theorem iterate_arm_move (step step2 : ℚ) (arm : Arm ℚ) (k : ℕ) :
    (Arm.move target target2 step step2)^[k] arm =
      ⟨(servo_move target step)^[k] arm.servo1_start,
        (servo_move target2 step2)^[k] arm.servo2_start⟩ := by
  induction k with
  | zero => rfl
  | succ k ih =>
    rw [Function.iterate_succ_apply', ih, Function.iterate_succ_apply', Function.iterate_succ_apply']
    rfl

/-- **On the target** after the last pass, where the ramp has no step left to go. -/
theorem servo_near_last (start target : UInt16) (hc : 0 < c) :
    servo_near target (position start target c c) = true := by
  rw [servo_near_iff, position, ramp_last _ _ hc, sub_self, abs_zero]
  exact one_pos

/-- The arm after `k` of `c` passes. -/
def arm_position (m : StepMotor) (target target2 : UInt16) (c k : ℕ) : Arm ℚ :=
  ⟨position m.servo1_duty target c k, position m.servo2_duty target2 c k⟩

variable {m : StepMotor}

theorem iterate_arm_position (m : StepMotor) (target target2 : UInt16) (hk : k ≤ c) :
    (Arm.move target target2 (servo_step m.servo1_duty target c) (servo_step m.servo2_duty target2 c))^[k]
        ⟨(m.servo1_duty.toNat : ℚ), (m.servo2_duty.toNat : ℚ)⟩ =
      arm_position m target target2 c k := by
  rw [iterate_arm_move, iterate_servo_move _ _ hk, iterate_servo_move _ _ hk]
  rfl

theorem arm_near_last (m : StepMotor) (target target2 : UInt16) (hc : 0 < c) :
    Arm.near target target2 (arm_position m target target2 c c) = true := by
  rw [Arm.near, Bool.and_eq_true]
  exact ⟨servo_near_last _ _ hc, servo_near_last _ _ hc⟩

/-- The positions of the first `n` passes. -/
def arm_positions (m : StepMotor) (target target2 : UInt16) (c n : ℕ) : List (Arm ℚ) :=
  (List.range n).map fun k => arm_position m target target2 c (k + 1)

theorem passes_arm {n : ℕ} (hn : n ≤ c) :
    passes (Arm.move target target2 (servo_step m.servo1_duty target c)
        (servo_step m.servo2_duty target2 c)) ⟨(m.servo1_duty.toNat : ℚ), (m.servo2_duty.toNat : ℚ)⟩ n =
      arm_positions m target target2 c n := by
  apply List.map_congr_left
  intro k hk
  rw [List.mem_range] at hk
  exact iterate_arm_position m target target2 (by omega)

/-- What `servo_slow_ctrl` leaves after `n` passes. -/
def arm_moved (m : StepMotor) (target target2 : UInt16) (c n : ℕ) : Moved (Arm ℚ) where
  motor := { m with servo1_duty := target, servo2_duty := target2 }
  positions := arm_positions m target target2 c n
  commands := (arm_positions m target target2 c n).flatMap Arm.commands

/-- **The run of `servo_slow_ctrl`**: it ends with the first pass after which both servos are near.
    Both are so after `c` passes, so that much fuel is enough. -/
theorem servo_slow_ctrl_returns (m : StepMotor) (target target2 : UInt16) (hc : 0 < c) {fuel : ℕ}
    (hfuel : c ≤ fuel) :
    ∃ n < c, Arm.near target target2 (arm_position m target target2 c (n + 1)) = true ∧
      (∀ k < n, Arm.near target target2 (arm_position m target target2 c (k + 1)) = false) ∧
      servo_slow_ctrl fuel target target2 (c : ℚ) m = some (arm_moved m target target2 c (n + 1)) := by
  have hlast := arm_near_last m target target2 hc
  rw [← iterate_arm_position m target target2 (le_refl c)] at hlast
  obtain ⟨n, hn, hnear, hbefore, hrun⟩ := moveUntil_returns hc hlast hfuel
  rw [iterate_arm_position m target target2 (by omega)] at hnear
  refine ⟨n, hn, hnear, fun k hk => ?_, ?_⟩
  · rw [← iterate_arm_position m target target2 (by omega)]
    exact hbefore k hk
  · rw [passes_arm (by omega)] at hrun
    show (moveUntil (Arm.move target target2 (servo_step m.servo1_duty target c)
      (servo_step m.servo2_duty target2 c)) (Arm.near target target2) fuel
      ⟨(m.servo1_duty.toNat : ℚ), (m.servo2_duty.toNat : ℚ)⟩).bind _ = _
    rw [hrun]
    rfl

/-- **The loop returns** within `c` passes, with the positions of the ramp: its last one is near
    the target by `servo_near_last`, if no earlier one was. -/
theorem Step_angle_con_returns (m : StepMotor) (target : UInt16) (hc : 0 < c) {fuel : ℕ}
    (hfuel : c ≤ fuel) :
    ∃ n < c, ∃ r, Step_angle_con ℚ fuel target c m = some r ∧
      r.positions = (List.range (n + 1)).map fun k => position m.step_duty target c (k + 1) := by
  have hlast := servo_near_last m.step_duty target hc
  rw [← iterate_servo_move m.step_duty target (le_refl c)] at hlast
  obtain ⟨n, hn, -, -, hrun⟩ := moveUntil_returns hc hlast hfuel
  have hpasses : passes (servo_move target (servo_step m.step_duty target c)) (m.step_duty.toNat : ℚ)
      (n + 1) = (List.range (n + 1)).map fun k => position m.step_duty target c (k + 1) := by
    apply List.map_congr_left
    intro k hk
    rw [List.mem_range] at hk
    exact iterate_servo_move m.step_duty target (by omega)
  rw [hpasses] at hrun
  have hsource : Step_angle_con ℚ fuel target c m =
      (moveUntil (servo_move target (servo_step m.step_duty target c)) (servo_near target) fuel
        (m.step_duty.toNat : ℚ)).bind fun positions => some
          { motor := { m with step_duty := target }
            positions
            commands := positions.map fun x =>
              ⟨TURN_MOTOR_CON_PIN, SERVO_360_MOTOR_DUTY ℚ (to_uint16 x)⟩ } := rfl
  rw [hrun] at hsource
  exact ⟨n, hn, _, hsource, rfl⟩

theorem position_mem (start target : UInt16) (hc : 0 < c) (hk : k ≤ c) :
    position start target c k ∈ Set.uIcc (start.toNat : ℚ) target.toNat :=
  ramp_mem_uIcc _ _ hc hk

end

/-- **Ramps** — both loops return after at most as many passes as there are steps, and no servo leaves
    the range between its start and its target. -/
theorem servo_loops_return (m : StepMotor) {c : ℕ} (hc : 0 < c) {fuel : ℕ} (hfuel : c ≤ fuel) :
    (∀ _servo1_angle _servo2_angle : UInt16, ∃ r,
      servo_slow_ctrl fuel _servo1_angle _servo2_angle (c : ℚ) m = some r ∧ r.positions.length ≤ c ∧
        ∀ arm ∈ r.positions,
          arm.servo1_start ∈ Set.uIcc (m.servo1_duty.toNat : ℚ) _servo1_angle.toNat ∧
          arm.servo2_start ∈ Set.uIcc (m.servo2_duty.toNat : ℚ) _servo2_angle.toNat) ∧
      ∀ target_angle : UInt16, ∃ r, Step_angle_con ℚ fuel target_angle c m = some r ∧
        r.positions.length ≤ c ∧
        ∀ x ∈ r.positions, x ∈ Set.uIcc (m.step_duty.toNat : ℚ) target_angle.toNat := by
  constructor
  · intro target target2
    obtain ⟨n, hn, -, -, hrun⟩ := servo_slow_ctrl_returns m target target2 hc hfuel
    refine ⟨_, hrun, ?_, fun arm harm => ?_⟩
    · rw [arm_moved, arm_positions, List.length_map, List.length_range]
      exact hn
    · obtain ⟨k, hk, rfl⟩ := List.mem_map.mp harm
      rw [List.mem_range] at hk
      exact ⟨position_mem _ _ hc (by omega), position_mem _ _ hc (by omega)⟩
  · intro target
    obtain ⟨n, hn, r, hrun, hpositions⟩ := Step_angle_con_returns m target hc hfuel
    refine ⟨r, hrun, ?_, fun x hx => ?_⟩
    · rw [hpositions, List.length_map, List.length_range]
      exact hn
    · rw [hpositions] at hx
      obtain ⟨k, hk, rfl⟩ := List.mem_map.mp hx
      rw [List.mem_range] at hk
      exact position_mem _ _ hc (by omega)

/-- A move up and a move down in three steps. -/
theorem servo_loops_return_three :
    (∀ _servo1_angle _servo2_angle : UInt16, ∃ r,
      servo_slow_ctrl 3 _servo1_angle _servo2_angle ((3 : ℕ) : ℚ) ⟨140, 177, 20⟩ = some r ∧
        r.positions.length ≤ 3 ∧ ∀ arm ∈ r.positions,
          arm.servo1_start ∈ Set.uIcc (((140 : UInt16).toNat : ℕ) : ℚ) _servo1_angle.toNat ∧
          arm.servo2_start ∈ Set.uIcc (((177 : UInt16).toNat : ℕ) : ℚ) _servo2_angle.toNat) ∧
      ∀ target_angle : UInt16, ∃ r,
        Step_angle_con ℚ 3 target_angle ((3 : ℕ) : ℤ) ⟨140, 177, 20⟩ = some r ∧
        r.positions.length ≤ 3 ∧
        ∀ x ∈ r.positions, x ∈ Set.uIcc (((20 : UInt16).toNat : ℕ) : ℚ) target_angle.toNat :=
  servo_loops_return ⟨140, 177, 20⟩ (by decide) (le_refl 3)

/-! ## Last command -/

/-- The last duty that was sent to a pin. -/
def last_duty (pin : Pin) (commands : List Command) : Option ℤ :=
  (commands.filter fun command => command.pin = pin).getLast?.map Command.duty

/-- **Commanded**: the angles last commanded are the recorded ones, and the targets. -/
structure Commanded (target target2 : UInt16) (r : Moved (Arm ℚ)) : Prop where
  servo1 : last_duty DOWN_MOTOR_CON_PIN r.commands = some (SERVO_MOTOR_DUTY ℚ r.motor.servo1_duty)
  servo2 : last_duty UP_MOTOR_CON_PIN r.commands = some (SERVO_MOTOR_DUTY ℚ r.motor.servo2_duty)
  target1 : r.motor.servo1_duty = target
  target2 : r.motor.servo2_duty = target2

section

variable {start target start2 target2 : UInt16} {c k : ℕ}

theorem last_duty_concat (arms : List (Arm ℚ)) (arm : Arm ℚ) :
    last_duty DOWN_MOTOR_CON_PIN ((arms ++ [arm]).flatMap Arm.commands) =
        some (SERVO_MOTOR_DUTY ℚ (to_uint16 arm.servo1_start)) ∧
      last_duty UP_MOTOR_CON_PIN ((arms ++ [arm]).flatMap Arm.commands) =
        some (SERVO_MOTOR_DUTY ℚ (to_uint16 arm.servo2_start)) := by
  simp [last_duty, Arm.commands]

theorem SERVO_MOTOR_DUTY_eq (x : UInt16) :
    SERVO_MOTOR_DUTY ℚ x = ⌊(250 : ℚ) + x.toNat * (50 / 9)⌋ := by
  have hduty : (CFloat.ofInt PWM_DUTY_MAX / (CFloat.ofInt 1000 / CFloat.ofInt STEP_MOTOR_FRE) *
      (CFloat.ofRat (1 / 2) + CFloat.ofInt x.toNat / CFloat.ofInt 90) : ℚ) =
        250 + x.toNat * (50 / 9) := by
    simp only [CFloat.ofInt_rat, CFloat.ofRat_rat, PWM_DUTY_MAX, STEP_MOTOR_FRE]
    push_cast
    ring
  rw [SERVO_MOTOR_DUTY, hduty, CFloat.toInt_of_nonneg (by positivity)]

/-- Different angles have different duties. -/
theorem SERVO_MOTOR_DUTY_injective : Function.Injective (SERVO_MOTOR_DUTY ℚ) := by
  have hlt : ∀ x y : UInt16, x.toNat < y.toNat → SERVO_MOTOR_DUTY ℚ x < SERVO_MOTOR_DUTY ℚ y := by
    intro x y hxy
    rw [SERVO_MOTOR_DUTY_eq, SERVO_MOTOR_DUTY_eq, Int.lt_iff_add_one_le, Int.le_floor]
    have hfloor := Int.floor_le ((250 : ℚ) + x.toNat * (50 / 9))
    have hstep : (x.toNat : ℚ) + 1 ≤ y.toNat := by exact_mod_cast hxy
    push_cast
    linarith
  intro x y hxy
  rcases Nat.lt_trichotomy x.toNat y.toNat with h | h | h
  · exact absurd hxy (hlt x y h).ne
  · exact UInt16.toNat_inj.mp h
  · exact absurd hxy (hlt y x h).ne'

theorem to_uint16_toNat {x : ℚ} (h0 : 0 ≤ x) (h1 : x < 65536) :
    ((to_uint16 x).toNat : ℤ) = ⌊x⌋ := by
  have hfloor : 0 ≤ ⌊x⌋ := Int.floor_nonneg.mpr h0
  have hlt : ⌊x⌋ < 65536 := by
    rw [Int.floor_lt]
    exact_mod_cast h1
  rw [to_uint16, CFloat.toInt_of_nonneg h0]
  show ((UInt16.ofNat (⌊x⌋ % 2 ^ 16).toNat).toNat : ℤ) = ⌊x⌋
  rw [UInt16.toNat_ofNat_of_lt' (by show _ < 65536; omega)]
  omega

/-- **Truncation**: a near position becomes the angle of the target if the servo moves down, or is
    there.  Moving up it is less than one short of it, and is cut off to the angle below. -/
theorem to_uint16_position_iff (hc : 0 < c) (hk : k ≤ c)
    (hnear : servo_near target (position start target c k) = true) :
    to_uint16 (position start target c k) = target ↔ target ≤ start ∨ k = c := by
  rw [servo_near_iff, abs_lt] at hnear
  have hrange := position_mem start target hc hk
  have htarget : ((target.toNat : ℕ) : ℚ) < 65536 := by exact_mod_cast target.toNat_lt
  have hstart : ((start.toNat : ℕ) : ℚ) < 65536 := by exact_mod_cast start.toNat_lt
  rw [Set.mem_uIcc] at hrange
  have h0 : 0 ≤ position start target c k := by
    rcases hrange with h | h
    · exact le_trans (Nat.cast_nonneg _) h.1
    · exact le_trans (Nat.cast_nonneg _) h.1
  have h1 : position start target c k < 65536 := by
    rcases hrange with h | h
    · exact h.2.trans_lt htarget
    · exact h.2.trans_lt hstart
  -- the cut goes down to the angle below, so only a position short of the target misses it
  have hangle : to_uint16 (position start target c k) = target ↔
      (target.toNat : ℚ) ≤ position start target c k := by
    rw [← UInt16.toNat_inj, ← Nat.cast_inj (R := ℤ), to_uint16_toNat h0 h1, Int.floor_eq_iff]
    constructor
    · intro h
      exact_mod_cast h.1
    · intro h
      exact ⟨by exact_mod_cast h, by push_cast; linarith⟩
  -- how far the position is from the target
  have hleft : position start target c k - target.toNat =
      -(((c : ℚ) - k) * (((target.toNat : ℚ) - start.toNat) / c)) := ramp_sub _ _ hc k
  rw [hangle]
  constructor
  · intro h
    by_contra hnot
    rw [not_or, UInt16.not_le, UInt16.lt_iff_toNat_lt] at hnot
    have hup : (0 : ℚ) < (target.toNat : ℚ) - start.toNat := sub_pos.mpr (Nat.cast_lt.mpr hnot.1)
    have hgo : (0 : ℚ) < (c : ℚ) - k := sub_pos.mpr (Nat.cast_lt.mpr (lt_of_le_of_ne hk hnot.2))
    have hpos : (0 : ℚ) < ((c : ℚ) - k) * (((target.toNat : ℚ) - start.toNat) / c) := by positivity
    linarith
  · rintro (hdown | rfl)
    · rw [UInt16.le_iff_toNat_le] at hdown
      have hdown' : (target.toNat : ℚ) ≤ start.toNat := Nat.cast_le.mpr hdown
      rcases hrange with h | h <;> linarith
    · rw [sub_self, zero_mul, neg_zero] at hleft
      linarith

/-- **Near**, in whole numbers: what is left of the way, times the number of passes, is less than
    one whole angle of it. -/
theorem servo_near_position_iff (hc : 0 < c) (hk : k ≤ c) :
    servo_near target (position start target c k) = true ↔
      ((c : ℤ) - k) * |(target.toNat : ℤ) - start.toNat| < c := by
  have hpos : (0 : ℚ) < c := Nat.cast_pos.mpr hc
  rw [servo_near_iff, position, abs_ramp_sub _ _ hc hk, ← mul_div_assoc, div_lt_one hpos]
  exact_mod_cast Iff.rfl

/-- **The last pass** is the last step exactly when one servo has at least as far to go as there are
    steps, or none has to go anywhere in the only step there is. -/
theorem last_pass_iff {n : ℕ} {m : StepMotor} (hn : n < c)
    (hnear : Arm.near target target2 (arm_position m target target2 c (n + 1)) = true)
    (hbefore : ∀ k < n, Arm.near target target2 (arm_position m target target2 c (k + 1)) = false) :
    n + 1 = c ↔ (c : ℤ) ≤ |(target.toNat : ℤ) - m.servo1_duty.toNat| ∨
      (c : ℤ) ≤ |(target2.toNat : ℤ) - m.servo2_duty.toNat| ∨ c = 1 := by
  have hnear_iff : ∀ k ≤ c, Arm.near target target2 (arm_position m target target2 c k) = true ↔
      ((c : ℤ) - k) * |(target.toNat : ℤ) - m.servo1_duty.toNat| < c ∧
        ((c : ℤ) - k) * |(target2.toNat : ℤ) - m.servo2_duty.toNat| < c := by
    intro k hk
    rw [Arm.near, Bool.and_eq_true]
    exact and_congr (servo_near_position_iff (by omega) hk) (servo_near_position_iff (by omega) hk)
  rw [hnear_iff (n + 1) (by omega)] at hnear
  have hd := abs_nonneg ((target.toNat : ℤ) - m.servo1_duty.toNat)
  have hd2 := abs_nonneg ((target2.toNat : ℤ) - m.servo2_duty.toNat)
  generalize |(target.toNat : ℤ) - m.servo1_duty.toNat| = d at hnear hnear_iff hd ⊢
  generalize |(target2.toNat : ℤ) - m.servo2_duty.toNat| = d2 at hnear hnear_iff hd2 ⊢
  constructor
  · intro hlast
    cases n with
    | zero => exact Or.inr (Or.inr hlast.symm)
    | succ n =>
      have hnot : ¬ (((c : ℤ) - (n + 1 : ℕ)) * d < c ∧ ((c : ℤ) - (n + 1 : ℕ)) * d2 < c) := by
        rw [← hnear_iff (n + 1) (by omega), hbefore n (by omega)]
        exact Bool.false_ne_true
      -- the pass before the last step was not near, with one step to go
      have hone : (c : ℤ) - (n + 1 : ℕ) = 1 := by omega
      rw [hone, one_mul, one_mul] at hnot
      omega
  · intro hfar
    by_contra hmore
    -- with a step to go, a servo that is far is not near
    have hsteps : 1 ≤ (c : ℤ) - (n + 1 : ℕ) := by omega
    have hgo := mul_le_mul_of_nonneg_right hsteps hd
    have hgo2 := mul_le_mul_of_nonneg_right hsteps hd2
    rw [one_mul] at hgo hgo2
    omega

theorem servo_slow_ctrl_unique {fuel fuel' : ℕ} {steps : ℚ} {m : StepMotor} {r r' : Moved (Arm ℚ)}
    (h : servo_slow_ctrl fuel target target2 steps m = some r)
    (h' : servo_slow_ctrl fuel' target target2 steps m = some r') : r = r' := by
  obtain ⟨positions, hpositions, hr⟩ := Option.bind_eq_some_iff.mp h
  obtain ⟨positions', hpositions', hr'⟩ := Option.bind_eq_some_iff.mp h'
  obtain rfl := moveUntil_unique hpositions hpositions'
  exact Option.some.inj (hr.symm.trans hr')

/-- Commanded, in terms of the last position. -/
theorem commanded_arm_moved_iff (m : StepMotor) (target target2 : UInt16) (c n : ℕ) :
    Commanded target target2 (arm_moved m target target2 c (n + 1)) ↔
      to_uint16 (position m.servo1_duty target c (n + 1)) = target ∧
        to_uint16 (position m.servo2_duty target2 c (n + 1)) = target2 := by
  have hlast : arm_positions m target target2 c (n + 1) =
      arm_positions m target target2 c n ++ [arm_position m target target2 c (n + 1)] := by
    rw [arm_positions, List.range_succ, List.map_append, List.map_singleton, arm_positions]
  obtain ⟨hdown, hup⟩ := last_duty_concat (arm_positions m target target2 c n)
    (arm_position m target target2 c (n + 1))
  rw [← hlast] at hdown hup
  constructor
  · rintro ⟨h1, h2, -, -⟩
    exact ⟨SERVO_MOTOR_DUTY_injective (Option.some.inj (hdown.symm.trans h1)),
      SERVO_MOTOR_DUTY_injective (Option.some.inj (hup.symm.trans h2))⟩
  · rintro ⟨h1, h2⟩
    exact ⟨hdown.trans (congrArg (fun x => some (SERVO_MOTOR_DUTY ℚ x)) h1),
      hup.trans (congrArg (fun x => some (SERVO_MOTOR_DUTY ℚ x)) h2), rfl, rfl⟩

end

/-- **Last command** — the angles last commanded are the targets exactly when one servo has at least as
    many degrees to go as there are steps, or no servo moves up. -/
theorem servo_slow_ctrl_commanded_iff (m : StepMotor) (_servo1_angle _servo2_angle : UInt16) {c : ℕ}
    (hc : 0 < c) :
    (∀ fuel r, servo_slow_ctrl fuel _servo1_angle _servo2_angle (c : ℚ) m = some r →
        Commanded _servo1_angle _servo2_angle r) ↔
      (c : ℤ) ≤ |(_servo1_angle.toNat : ℤ) - m.servo1_duty.toNat| ∨
      (c : ℤ) ≤ |(_servo2_angle.toNat : ℤ) - m.servo2_duty.toNat| ∨
      (_servo1_angle ≤ m.servo1_duty ∧ _servo2_angle ≤ m.servo2_duty) := by
  obtain ⟨n, hn, hnear, hbefore, hrun⟩ :=
    servo_slow_ctrl_returns m _servo1_angle _servo2_angle hc (le_refl c)
  have hall : (∀ fuel r, servo_slow_ctrl fuel _servo1_angle _servo2_angle (c : ℚ) m = some r →
      Commanded _servo1_angle _servo2_angle r) ↔
        Commanded _servo1_angle _servo2_angle (arm_moved m _servo1_angle _servo2_angle c (n + 1)) := by
    constructor
    · intro h
      exact h c _ hrun
    · intro h fuel r hr
      rw [servo_slow_ctrl_unique hr hrun]
      exact h
  have hboth := hnear
  rw [Arm.near, Bool.and_eq_true] at hboth
  rw [hall, commanded_arm_moved_iff, to_uint16_position_iff hc hn hboth.1,
    to_uint16_position_iff hc hn hboth.2, ← and_or_right, last_pass_iff hn hnear hbefore]
  -- where there is one step only, it is taken, unless no servo has to move
  have hone : c = 1 → (c : ℤ) ≤ |(_servo1_angle.toNat : ℤ) - m.servo1_duty.toNat| ∨
      (c : ℤ) ≤ |(_servo2_angle.toNat : ℤ) - m.servo2_duty.toNat| ∨
      (_servo1_angle ≤ m.servo1_duty ∧ _servo2_angle ≤ m.servo2_duty) := by
    intro h1
    rw [le_abs, le_abs, UInt16.le_iff_toNat_le, UInt16.le_iff_toNat_le]
    omega
  constructor
  · rintro (hdown | hfar | hfar | h1)
    · exact Or.inr (Or.inr hdown)
    · exact Or.inl hfar
    · exact Or.inr (Or.inl hfar)
    · exact hone h1
  · rintro (hfar | hfar | hdown)
    · exact Or.inr (Or.inl hfar)
    · exact Or.inr (Or.inr (Or.inl hfar))
    · exact Or.inl hdown

/-- From angle 140 up to 141, and from 177 down to 170, in ten steps. -/
theorem servo_slow_ctrl_commanded_ten :
    (∀ fuel r, servo_slow_ctrl fuel 141 170 ((10 : ℕ) : ℚ) ⟨140, 177, 20⟩ = some r →
        Commanded 141 170 r) ↔
      ((10 : ℕ) : ℤ) ≤ |((141 : UInt16).toNat : ℤ) - (140 : UInt16).toNat| ∨
      ((10 : ℕ) : ℤ) ≤ |((170 : UInt16).toNat : ℤ) - (177 : UInt16).toNat| ∨
      ((141 : UInt16) ≤ 140 ∧ (170 : UInt16) ≤ 177) :=
  servo_slow_ctrl_commanded_iff ⟨140, 177, 20⟩ 141 170 (by decide)

/-- Up by one angle in two steps: the loop ends at 140.5, and commands 140. -/
theorem servo_slow_ctrl_half_way :
    ¬ ∀ fuel r, servo_slow_ctrl fuel 141 177 ((2 : ℕ) : ℚ) ⟨140, 177, 20⟩ = some r →
      Commanded 141 177 r := by
  intro h
  obtain ⟨n, hn, -, hbefore, hrun⟩ :=
    servo_slow_ctrl_returns ⟨140, 177, 20⟩ 141 177 (by decide : 0 < 2) (le_refl 2)
  have hfirst : Arm.near 141 177 (arm_position ⟨140, 177, 20⟩ 141 177 2 1) = true := by
    decide +kernel
  cases n with
  | zero =>
    have hcommanded := h 2 _ hrun
    rw [commanded_arm_moved_iff] at hcommanded
    exact absurd hcommanded.1 (by decide +kernel)
  | succ n =>
    rw [hbefore 0 (by omega)] at hfirst
    cases hfirst

end Car2025
