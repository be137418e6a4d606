/-
  `car.c` within bounds: what a bounded speed record asks of the wheels.

  1. **Boxes (`mecanum_Speed.Within`)** — a bound for each component of the speed record bounds every
     wheel speed by `wheelBound`; `mecanumRun` keeps to it, whether it scales the speeds or not, and
     where the bound is at most `maxLinearSpeed` it does not scale them.

  2. **Wheels (`Motor.Within`)** — target and reference of a motor are within a bound, duty and
     integral within their limits.

  3. **The car's loop (`car_motion_run_sound`)** — it keeps the wheels within the bound of any box that
     holds the speed record.
-/
import Mathlib
import Car2025.CarMotion
import Car2025.PIDRun

namespace Car2025

open Wheel Speed_Con_Right

/-! ## Boxes -/

/-- The components of a speed are at most these, to either side: a box around standing still. -/
structure mecanum_Speed.Within (v : mecanum_Speed ℚ) (x y a : ℚ) : Prop where
  Vx : |v.Vx| ≤ x
  Vy : |v.Vy| ≤ y
  Omega : |v.Omega| ≤ a

theorem mecanum_Speed.Within.mono {v : mecanum_Speed ℚ} {x y a x' y' a' : ℚ} (h : v.Within x y a)
    (hx : x ≤ x') (hy : y ≤ y') (ha : a ≤ a') : v.Within x' y' a' :=
  ⟨h.Vx.trans hx, h.Vy.trans hy, h.Omega.trans ha⟩

/-- The largest wheel speed in a box. -/
def wheelBound (x y a : ℚ) : ℚ := max (x / 2 + y / (866 / 1000) + a) (x + a)

section

variable {v : mecanum_Speed ℚ} {x y a : ℚ} (h : v.Within x y a)
include h

/-- What the four formulas can add up to inside the box. -/
theorem wheelSpeed_within (w : Wheel) : |wheelSpeed v.Vx v.Vy v.Omega w| ≤ wheelBound x y a := by
  obtain ⟨hx1, hx2⟩ := abs_le.mp h.Vx
  obtain ⟨hy1, hy2⟩ := abs_le.mp h.Vy
  obtain ⟨ha1, ha2⟩ := abs_le.mp h.Omega
  cases w with
  | A =>
    -- `A` and `B` take half of `Vx` and share the first bound
    apply le_max_of_le_left
    show |-v.Vx * (1 / 2) + v.Vy / (866 / 1000) + v.Omega| ≤ _
    rw [abs_le]
    constructor <;> linarith
  | B =>
    apply le_max_of_le_left
    show |-v.Vx * (1 / 2) - v.Vy / (866 / 1000) + v.Omega| ≤ _
    rw [abs_le]
    constructor <;> linarith
  | C =>
    -- `C` takes the whole of `Vx` and nothing of `Vy`
    apply le_max_of_le_right
    show |v.Vx + v.Omega| ≤ _
    rw [abs_le]
    constructor <;> linarith

theorem mecanumRun_within (m : Motors ℚ) (w : Wheel) :
    |((mecanumRun v.Vx v.Vy v.Omega m).motor w).target_speed| ≤ wheelBound x y a := by
  have hsign : |w.sign| = 1 := by
    cases w <;> norm_num [Wheel.sign]
  rw [mecanumRun_target, abs_mul, abs_mul, hsign, one_mul, abs_of_pos (wheelScale_pos _)]
  exact (mul_le_of_le_one_left (abs_nonneg _) (wheelScale_le_one _)).trans (wheelSpeed_within h w)

/-- **Nothing is scaled** where the bound is within the limit: no wheel can exceed it, so each
    turns at its own share of the command. -/
theorem mecanumRun_unscaled (hbound : wheelBound x y a ≤ maxLinearSpeed) (m : Motors ℚ) (w : Wheel) :
    ((mecanumRun v.Vx v.Vy v.Omega m).motor w).target_speed =
      w.sign * wheelSpeed v.Vx v.Vy v.Omega w := by
  -- the largest wheel speed is that of some wheel, so the limit is not reached and the scale is 1
  obtain ⟨w', hw'⟩ := exists_wheelMax (wheelSpeed v.Vx v.Vy v.Omega)
  have hmax : wheelMax (wheelSpeed v.Vx v.Vy v.Omega) ≤ maxLinearSpeed := by
    rw [hw']
    exact (le_abs_self _).trans ((wheelSpeed_within h w').trans hbound)
  rw [mecanumRun_target, wheelScale, max_eq_left hmax, div_self maxLinearSpeed_pos.ne', one_mul]

end

/-- What turns forwards is within the limit in any case. -/
theorem mecanumRun_forwards (x y a : ℚ) (m : Motors ℚ) (w : Wheel) :
    w.sign * ((mecanumRun x y a m).motor w).target_speed ≤ maxLinearSpeed := by
  have hsign : w.sign * w.sign = 1 := by
    cases w <;> norm_num [Wheel.sign]
  have hM : 0 < max maxLinearSpeed (wheelMax (wheelSpeed x y a)) :=
    lt_max_of_lt_left maxLinearSpeed_pos
  calc w.sign * ((mecanumRun x y a m).motor w).target_speed
      = w.sign * w.sign * (wheelScale (wheelSpeed x y a) * wheelSpeed x y a w) := by
        rw [mecanumRun_target]
        ring
    _ = maxLinearSpeed / max maxLinearSpeed (wheelMax (wheelSpeed x y a)) *
          wheelSpeed x y a w := by rw [hsign, one_mul, wheelScale]
    _ ≤ maxLinearSpeed / max maxLinearSpeed (wheelMax (wheelSpeed x y a)) *
          max maxLinearSpeed (wheelMax (wheelSpeed x y a)) :=
        mul_le_mul_of_nonneg_left (le_max_of_le_right (le_wheelMax _ w))
          (div_pos maxLinearSpeed_pos hM).le
    _ = maxLinearSpeed := div_mul_cancel₀ _ hM.ne'

/-! ## Wheels -/

/-- A motor is within `B`: what is asked of it, what its ramp has come to, and its controller's sum
    and duty. -/
structure Motor.Within (m : Motor ℚ) (B : ℚ) : Prop where
  limited : m.Limited
  target : |m.target_speed| ≤ B
  Ref : |m.PID.Ref| ≤ B
  duty : m.duty ≤ 9500
  integral : |m.PID.Value_I| ≤ 50000

theorem Motor.init_within (Kp Ki Kd : ℚ) (m : Motor ℚ) {B : ℚ} (hB : 0 ≤ B) :
    (m.init Kp Ki Kd).Within B where
  limited := init_limited Kp Ki Kd m
  target := by
    show |((0 : ℤ) : ℚ)| ≤ B
    rwa [Int.cast_zero, abs_zero]
  Ref := by
    show |((0 : ℤ) : ℚ)| ≤ B
    rwa [Int.cast_zero, abs_zero]
  duty := Nat.zero_le _
  integral := by
    show |((0 : ℤ) : ℚ)| ≤ 50000
    norm_num

/-- **A turn toward a target within the bound** keeps the motor within it: the reference moves between
    two values that are. -/
theorem Motor.Within.Pwm_cb {m : Motor ℚ} {B target : ℚ} (h : m.Within B) (ht : |target| ≤ B)
    (RC_encoder : ℚ) :
    (({ m with target_speed := target } : Motor ℚ).Pwm_cb RC_encoder).Within B := by
  -- the limits do not depend on the target, which `Motor_Set_Speed` has just written
  have hlim : ({ m with target_speed := target } : Motor ℚ).Limited :=
    ⟨h.limited.Output_Max, h.limited.Output_Min, h.limited.Value_I_Max⟩
  obtain ⟨hr1, hr2⟩ := abs_le.mp h.Ref
  obtain ⟨ht1, ht2⟩ := abs_le.mp ht
  refine ⟨hlim.Pwm_cb RC_encoder, ht, ?_, hlim.Pwm_cb_duty RC_encoder,
    hlim.Pwm_cb_integral RC_encoder⟩
  rw [Motor.Pwm_cb_Ref]
  exact abs_le.mpr ⟨Slew.le_slew (by norm_num) hr1 ht1, Slew.slew_le (by norm_num) hr2 ht2⟩

/-- `Car_Stop` takes a motor's duty. -/
theorem Motor.Within.still {m : Motor ℚ} {B : ℚ} (h : m.Within B) :
    ({ m with duty := 0 } : Motor ℚ).Within B :=
  ⟨⟨h.limited.Output_Max, h.limited.Output_Min, h.limited.Value_I_Max⟩, h.target, h.Ref,
    Nat.zero_le _, h.integral⟩

/-! ## The car's loop -/

/-- The yaw controller as `car_motion_Init` sets it up; no call changes these values, so they hold
    for good. -/
structure Pos_PID_t.YawTuned (plant : Pos_PID_t ℚ) : Prop where
  Kp : plant.Kp = 5
  Ki : plant.Ki = 0
  Kd : plant.Kd = 0
  Output_Max : plant.Output_Max = 300
  Output_Min : plant.Output_Min = -300

theorem Pos_PID_t.YawTuned.call {plant : Pos_PID_t ℚ} (h : plant.YawTuned) (yaw : ℚ) :
    (Pos_PID_Controller plant yaw).2.YawTuned := by
  have hs := Pos_PID_Controller_settings plant yaw
  simp only [Pos_PID_t.settings, Prod.mk.injEq] at hs
  exact ⟨hs.1.trans h.Kp, hs.2.1.trans h.Ki, hs.2.2.1.trans h.Kd, hs.2.2.2.2.1.trans h.Output_Max,
    hs.2.2.2.2.2.1.trans h.Output_Min⟩

theorem Pos_PID_t.YawTuned.output {plant : Pos_PID_t ℚ} (h : plant.YawTuned) (yaw : ℚ) :
    |(Pos_PID_Controller plant yaw).1| ≤ 300 := by
  have hout := Pos_PID_Controller_output plant yaw (by rw [h.Output_Max, h.Output_Min]; norm_num)
  rw [h.Output_Max, h.Output_Min] at hout
  exact abs_le.mpr hout

/-- The motors are within `B`, forwards within `maxLinearSpeed`, and the yaw controller is set up. -/
structure CarMotion.Sound (s : CarMotion ℚ) (B : ℚ) : Prop where
  motor : ∀ w, (s.motors.motor w).Within B
  forwards : ∀ w, w.sign * s.target w ≤ maxLinearSpeed
  yaw : s.Car_Yaw_Controller.YawTuned

/-- The speed record that a turn of the loop hands to the wheels. -/
def CarMotion.handed (s : CarMotion ℚ) : mecanum_Speed ℚ :=
  if s.car.Car_Speed_ConRight = Con_By_AngleLoop then
    { s.car.Car_Speed with Omega := (Pos_PID_Controller s.Car_Yaw_Controller s.Att_yaw).1 }
  else s.car.Car_Speed

/-- **One turn of the loop**: the speed record is what is handed to the wheels, and the motors turn
    toward the targets that follow from it. -/
theorem car_motion_run_eq (count : Wheel → ℤ) (s : CarMotion ℚ) :
    car_motion_run count s =
      { s with
        car := { s.car with Car_Speed := s.handed }
        Car_Yaw_Controller :=
          if s.car.Car_Speed_ConRight = Con_By_AngleLoop then
            (Pos_PID_Controller s.Car_Yaw_Controller s.Att_yaw).2
          else s.Car_Yaw_Controller
        motors :=
          motor_run count (mecanumRun s.handed.Vx s.handed.Vy s.handed.Omega s.motors) } := by
  by_cases hright : s.car.Car_Speed_ConRight = Con_By_AngleLoop
  · rw [car_motion_run, CarMotion.handed]
    simp only [if_pos hright]
  · rw [car_motion_run, CarMotion.handed]
    simp only [if_neg hright]

/-- What a turn does to one motor. -/
theorem motor_run_mecanumRun_motor (count : Wheel → ℤ) (x y a : ℚ) (m : Motors ℚ) (w : Wheel) :
    ∃ RC_encoder, (motor_run count (mecanumRun x y a m)).motor w =
      ({ m.motor w with
        target_speed := ((mecanumRun x y a m).motor w).target_speed } : Motor ℚ).Pwm_cb
          RC_encoder := by
  refine ⟨_, (Motors.Pwm_cb_motor _ w).trans (congrArg (Motor.Pwm_cb _) ?_)⟩
  show (mecanumRun x y a m).motor w = _
  have hset := m.Set_Speed_motor
    (fun w => ((mecanumRun x y a m).motor w).target_speed) w
  rw [← hset]
  cases w <;> rfl

/-- **The loop keeps the wheels within the bound** of a box that holds what it hands to them.  A
    ramp only moves towards its target, so it stays within a bound that both are within. -/
theorem CarMotion.Sound.motion_run {s : CarMotion ℚ} {B x y a : ℚ} (h : s.Sound B)
    (hhanded : s.handed.Within x y a) (hB : wheelBound x y a ≤ B) (count : Wheel → ℤ) :
    (car_motion_run count s).Sound B := by
  rw [car_motion_run_eq]
  constructor
  · intro w
    -- a wheel turns toward its new target, which is within the box's bound
    obtain ⟨RC_encoder, hw⟩ := motor_run_mecanumRun_motor count s.handed.Vx s.handed.Vy
      s.handed.Omega s.motors w
    rw [hw]
    exact (h.motor w).Pwm_cb ((mecanumRun_within hhanded s.motors w).trans hB) RC_encoder
  · intro w
    rw [CarMotion.target, motor_run_target]
    exact mecanumRun_forwards _ _ _ s.motors w
  · dsimp only
    split
    · exact h.yaw.call s.Att_yaw
    · exact h.yaw

end Car2025
