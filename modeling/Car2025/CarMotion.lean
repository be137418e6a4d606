/-
  `car.c`: from the speed record to the wheels, and the boot switch.

  1. **Program** — `mecanumRun` turns a speed into three wheel targets; `car_motion_run` does so with
     the speed record and runs the motor loop; `Car_Stop` and `Car_Start` turn the switch.

  2. **Standing still (`mecanumRun_still`)** — the wheel targets are all zero for the speed zero only.

  3. **Saturation (`mecanumRun_limited_iff`)** — the speeds are scaled by the largest of them, signs
     included: what turns backwards is held within the limit only where something turns forwards as
     fast.

  4. **Runs** — neither `Car_Stop` nor `Car_Start` touches the speed record, and while the switch is
     off nobody can: a car that is started again moves on exactly unless it stood still when it was
     started (`restarted_still_iff`).
-/
import Mathlib
import Car2025.Car
import Car2025.Motor

namespace Car2025

open Wheel Speed_Con_Right

/-! ## Program -/

/-- The globals of `car.c`, the yaw it reads and the motors it drives. -/
structure CarMotion (R : Type) where
  car : Car R
  Car_Yaw_Controller : Pos_PID_t R
  Att_yaw : R
  motors : Motors R

section

variable {R : Type}

/-- `Car_Stop`: the switch goes off and the three duties to zero; the speed record stays. -/
def Car_Stop (s : CarMotion R) : CarMotion R :=
  { s with
    car := { s.car with Car_BootSwitch := false }
    motors := { s.motors with motor := fun w => { s.motors.motor w with duty := 0 } } }

/-- `Car_Start` -/
def Car_Start (s : CarMotion R) : CarMotion R :=
  { s with car := { s.car with Car_BootSwitch := true } }

variable [CFloat R]

/-- `SIN30` and `COS30` -/
def SIN30 : R := CFloat.ofRat (1 / 2)
def COS30 : R := CFloat.ofRat (866 / 1000)

def maxLinearSpeed : R := CFloat.ofInt 1000

/-- `speedA`, `speedB` and `speedC` of `mecanumRun`. -/
def wheelSpeed (xSpeed ySpeed aSpeed : R) : Wheel → R
  | A => -xSpeed * SIN30 + ySpeed / COS30 + aSpeed
  | B => -xSpeed * SIN30 - ySpeed / COS30 + aSpeed
  | C => xSpeed + aSpeed

/-- `max` of `mecanumRun`: the largest of the three, signs included. -/
def wheelMax (speed : Wheel → R) : R :=
  let max := speed A
  let max := if CFloat.lt max (speed B) then speed B else max
  if CFloat.lt max (speed C) then speed C else max

/-- `mecanumRun` -/
def mecanumRun (xSpeed ySpeed aSpeed : R) (m : Motors R) : Motors R :=
  let speed := wheelSpeed xSpeed ySpeed aSpeed
  let max := wheelMax speed
  let speed :=
    if CFloat.lt maxLinearSpeed max then fun w => speed w / max * maxLinearSpeed else speed
  Motor_Set_Speed 3 (speed C) (Motor_Set_Speed 2 (-speed B) (Motor_Set_Speed 1 (speed A) m))

/-- `car_motion_run`, with the counts that the encoders show. -/
def car_motion_run (count : Wheel → ℤ) (s : CarMotion R) : CarMotion R :=
  let s :=
    if s.car.Car_Speed_ConRight = Con_By_AngleLoop then
      let (output, plant) := Pos_PID_Controller s.Car_Yaw_Controller s.Att_yaw
      { s with
        Car_Yaw_Controller := plant
        car := { s.car with Car_Speed := { s.car.Car_Speed with Omega := output } } }
    else s
  let m := mecanumRun s.car.Car_Speed.Vx s.car.Car_Speed.Vy s.car.Car_Speed.Omega s.motors
  { s with motors := motor_run count m }

/-- `car_motion_Init`, as far as it touches these globals. -/
def car_motion_Init (s : CarMotion R) : CarMotion R :=
  Car_Stop
    { s with
      motors := Motor_init s.motors
      Car_Yaw_Controller :=
        { Pos_PID_Init s.Car_Yaw_Controller (CFloat.ofInt 5) (CFloat.ofInt 0) (CFloat.ofInt 0) with
          Ref := CFloat.ofInt 0
          Output_Max := CFloat.ofInt 300
          Output_Min := CFloat.ofInt (-300)
          Value_I_Max := CFloat.ofInt 1000 }
      car :=
        { Car_Speed := ⟨CFloat.ofInt 0, CFloat.ofInt 0, CFloat.ofInt 0⟩
          Car_BootSwitch := false
          Car_Speed_ConRight := Con_By_TraceLine } }

/-- The globals before `main` runs; the filters of the encoders have their constant. -/
def CarMotion.zero : CarMotion R where
  car := Car.start
  Car_Yaw_Controller := Pos_PID_t.zero
  Att_yaw := CFloat.ofInt 0
  motors :=
    { motor := fun _ => ⟨Pos_PID_t.zero, CFloat.ofInt 0, CFloat.ofInt 0, false, 0⟩
      Encoder_Para := fun _ => ⟨CFloat.ofInt 0, CFloat.ofInt 0, CFloat.ofRat (7 / 100)⟩
      RC_encoder := fun _ => CFloat.ofInt 0 }

/-- It leaves the control right with whom it is. -/
theorem car_motion_run_ConRight (count : Wheel → ℤ) (s : CarMotion R) :
    (car_motion_run count s).car.Car_Speed_ConRight = s.car.Car_Speed_ConRight := by
  rw [car_motion_run]
  dsimp only
  split <;> rfl

/-- The targets that the last `mecanumRun` computed. -/
def CarMotion.target (s : CarMotion R) (w : Wheel) : R := (s.motors.motor w).target_speed

/-- The motor loop reads the targets and leaves them. -/
theorem motor_run_target (count : Wheel → ℤ) (m : Motors R) (w : Wheel) :
    ((motor_run count m).motor w).target_speed = (m.motor w).target_speed := by
  rw [motor_run, Motors.Pwm_cb_motor]
  rfl

end

/-! ## Standing still -/

/-- The car is asked not to move. -/
def mecanum_Speed.Still (v : mecanum_Speed ℚ) : Prop := v.Vx = 0 ∧ v.Vy = 0 ∧ v.Omega = 0

/-- The motor `B` turns the other way. -/
def Wheel.sign : Wheel → ℚ
  | A => 1
  | B => -1
  | C => 1

/-- The factor by which the wheel speeds are scaled. -/
def wheelScale (speed : Wheel → ℚ) : ℚ := maxLinearSpeed / max maxLinearSpeed (wheelMax speed)

theorem maxLinearSpeed_pos : (0 : ℚ) < maxLinearSpeed := by
  show (0 : ℚ) < ((1000 : ℤ) : ℚ)
  norm_num

theorem wheelScale_pos (speed : Wheel → ℚ) : 0 < wheelScale speed :=
  div_pos maxLinearSpeed_pos (lt_max_of_lt_left maxLinearSpeed_pos)

theorem wheelScale_le_one (speed : Wheel → ℚ) : wheelScale speed ≤ 1 :=
  (div_le_one (lt_max_of_lt_left maxLinearSpeed_pos)).mpr (le_max_left _ _)

/-- The targets are the scaled wheel speeds. -/
theorem mecanumRun_target (x y a : ℚ) (m : Motors ℚ) (w : Wheel) :
    ((mecanumRun x y a m).motor w).target_speed =
      wheelScale (wheelSpeed x y a) * (w.sign * wheelSpeed x y a w) := by
  have hset : ∀ (speed : Wheel → ℚ) (w : Wheel),
      ((Motor_Set_Speed 3 (speed C) (Motor_Set_Speed 2 (-speed B)
        (Motor_Set_Speed 1 (speed A) m))).motor w).target_speed = w.sign * speed w := by
    intro speed w
    have h := congrArg Motor.target_speed (m.Set_Speed_motor (fun w => w.sign * speed w) w)
    simp only [Wheel.sign, one_mul, neg_one_mul] at h ⊢
    exact h
  by_cases hmax : CFloat.lt maxLinearSpeed (wheelMax (wheelSpeed x y a)) = true
  · have hlt : maxLinearSpeed < wheelMax (wheelSpeed x y a) := (CFloat.lt_rat _ _).mp hmax
    rw [mecanumRun, if_pos hmax, wheelScale, max_eq_right hlt.le]
    refine (hset (fun w => wheelSpeed x y a w / wheelMax (wheelSpeed x y a) * maxLinearSpeed)
      w).trans ?_
    ring
  · have hle : wheelMax (wheelSpeed x y a) ≤ maxLinearSpeed :=
      not_lt.mp fun h => hmax ((CFloat.lt_rat _ _).mpr h)
    rw [mecanumRun, if_neg hmax, hset, wheelScale, max_eq_left hle,
      div_self maxLinearSpeed_pos.ne', one_mul]

/-- **Only the speed zero gives three zero targets**: the four wheel speeds determine the three
    components of the command. -/
theorem mecanumRun_still (v : mecanum_Speed ℚ) (m : Motors ℚ) :
    (∀ w, ((mecanumRun v.Vx v.Vy v.Omega m).motor w).target_speed = 0) ↔ v.Still := by
  obtain ⟨x, y, a⟩ := v
  have htarget := mecanumRun_target x y a m
  constructor
  · intro h
    have hzero : ∀ w : Wheel, w.sign * wheelSpeed x y a w = 0 := fun w =>
      (mul_eq_zero.mp ((htarget w).symm.trans (h w))).resolve_left (wheelScale_pos _).ne'
    have hA : 1 * (-x * (1 / 2) + y / (866 / 1000) + a) = 0 := hzero A
    have hB : -1 * (-x * (1 / 2) - y / (866 / 1000) + a) = 0 := hzero B
    have hC : 1 * (x + a) = 0 := hzero C
    exact ⟨by linarith, by linarith, by linarith⟩
  · rintro ⟨rfl, rfl, rfl⟩ w
    rw [htarget]
    have hspeed : wheelSpeed (0 : ℚ) 0 0 w = 0 := by
      cases w <;> simp [wheelSpeed]
    rw [hspeed, mul_zero, mul_zero]

/-! ## Saturation -/

theorem le_wheelMax (speed : Wheel → ℚ) (w : Wheel) : speed w ≤ wheelMax speed := by
  simp only [wheelMax, CFloat.lt_rat]
  cases w <;> split_ifs <;> linarith

theorem exists_wheelMax (speed : Wheel → ℚ) : ∃ w, wheelMax speed = speed w := by
  simp only [wheelMax, CFloat.lt_rat]
  split_ifs
  · exact ⟨C, rfl⟩
  · exact ⟨B, rfl⟩
  · exact ⟨C, rfl⟩
  · exact ⟨A, rfl⟩

/-- The scaled speed of a wheel is within the limit exactly when the speed is within what the scale
    was chosen for. -/
theorem scaled_le_iff (speed : Wheel → ℚ) (w : Wheel) :
    |wheelScale speed * (w.sign * speed w)| ≤ maxLinearSpeed ↔
      |speed w| ≤ max maxLinearSpeed (wheelMax speed) := by
  have hsign : |w.sign| = 1 := by
    cases w <;> norm_num [Wheel.sign]
  have hM : 0 < max maxLinearSpeed (wheelMax speed) := lt_max_of_lt_left maxLinearSpeed_pos
  rw [abs_mul, abs_mul, hsign, one_mul, abs_of_pos (wheelScale_pos speed), wheelScale,
    div_mul_eq_mul_div, div_le_iff₀ hM, mul_le_mul_iff_right₀ maxLinearSpeed_pos]

/-- **Saturation** — the targets are one positive multiple, of at most 1, of the wheel speeds and
    within `maxLinearSpeed`, exactly when no wheel is asked to turn backwards faster than
    `maxLinearSpeed` and than every wheel is asked to turn forwards. -/
theorem mecanumRun_limited_iff (x y a : ℚ) (m : Motors ℚ) :
    (∃ k : ℚ, 0 < k ∧ k ≤ 1 ∧ ∀ w,
      ((mecanumRun x y a m).motor w).target_speed = k * (w.sign * wheelSpeed x y a w) ∧
      |((mecanumRun x y a m).motor w).target_speed| ≤ maxLinearSpeed) ↔
    ∀ w, -wheelSpeed x y a w ≤ maxLinearSpeed ∨ ∃ w', -wheelSpeed x y a w ≤ wheelSpeed x y a w' := by
  constructor
  · rintro ⟨k, -, -, hk⟩ w
    have hw := (hk w).2
    rw [mecanumRun_target, scaled_le_iff] at hw
    rcases le_max_iff.mp ((neg_le_abs _).trans hw) with h | h
    · exact Or.inl h
    · obtain ⟨w', hw'⟩ := exists_wheelMax (wheelSpeed x y a)
      exact Or.inr ⟨w', hw' ▸ h⟩
  · intro h
    refine ⟨wheelScale (wheelSpeed x y a), wheelScale_pos _, wheelScale_le_one _, fun w =>
      ⟨mecanumRun_target x y a m w, ?_⟩⟩
    rw [mecanumRun_target, scaled_le_iff]
    refine abs_le'.mpr ⟨le_max_of_le_right (le_wheelMax _ w), ?_⟩
    rcases h w with hback | ⟨w', hw'⟩
    · exact le_max_of_le_left hback
    · exact le_max_of_le_right (hw'.trans (le_wheelMax _ w'))

/-- Turning on the spot, backwards: all three wheel speeds are -2000 and none is scaled. -/
theorem mecanumRun_limited_backwards :
    ¬ ∃ k : ℚ, 0 < k ∧ k ≤ 1 ∧ ∀ w,
      ((mecanumRun (0 : ℚ) 0 (-2000) CarMotion.zero.motors).motor w).target_speed =
        k * (w.sign * wheelSpeed 0 0 (-2000) w) ∧
      |((mecanumRun (0 : ℚ) 0 (-2000) CarMotion.zero.motors).motor w).target_speed| ≤
        maxLinearSpeed := by
  rintro ⟨k, -, -, hk⟩
  exact absurd (hk C).2 (by decide +kernel)

/-! ## Runs -/

/-- What happens to the car while the tracing code has the control right. -/
inductive CarMotion.Action where
  | Change_Speed (xSpeed ySpeed aSpeed : ℚ)
  | Stop
  | Start
  | motion_run (count : Wheel → ℤ)

namespace CarMotion

def act (s : CarMotion ℚ) : Action → CarMotion ℚ
  | .Change_Speed x y a => { s with car := Car_Change_Speed x y a s.car }
  | .Stop => Car_Stop s
  | .Start => Car_Start s
  | .motion_run count => car_motion_run count s

def run (s : CarMotion ℚ) (as : List Action) : CarMotion ℚ := as.foldl act s

variable {s : CarMotion ℚ}

theorem run_append (s : CarMotion ℚ) (as bs : List Action) :
    s.run (as ++ bs) = (s.run as).run bs := List.foldl_append

/-- No action changes who controls the speed. -/
theorem act_ConRight (s : CarMotion ℚ) (a : Action) :
    (s.act a).car.Car_Speed_ConRight = s.car.Car_Speed_ConRight := by
  cases a with
  | Change_Speed x y a =>
    show (Car_Change_Speed x y a s.car).Car_Speed_ConRight = _
    rw [Car_Change_Speed]
    split <;> rfl
  | Stop => rfl
  | Start => rfl
  | motion_run count => exact car_motion_run_ConRight count s

theorem run_ConRight (as : List Action) :
    ∀ s : CarMotion ℚ, (s.run as).car.Car_Speed_ConRight = s.car.Car_Speed_ConRight := by
  induction as with
  | nil =>
    intro s
    rfl
  | cons a as ih =>
    intro s
    exact (ih (s.act a)).trans (s.act_ConRight a)

/-- While the tracing code controls, `car_motion_run` hands the speed record to the wheels. -/
theorem motion_run_eq (hright : s.car.Car_Speed_ConRight = Con_By_TraceLine)
    (count : Wheel → ℤ) :
    s.act (.motion_run count) =
      { s with
        motors := motor_run count
          (mecanumRun s.car.Car_Speed.Vx s.car.Car_Speed.Vy s.car.Car_Speed.Omega s.motors) } := by
  have hangle : ¬ s.car.Car_Speed_ConRight = Con_By_AngleLoop := by
    rw [hright]
    decide
  show car_motion_run count s = _
  rw [car_motion_run]
  dsimp only
  rw [if_neg hangle]

/-- **Only `Car_Change_Speed` changes the speed record**, while the tracing code has the control
    right; `Car_Stop` is not among the writers. -/
theorem act_Car_Speed (hright : s.car.Car_Speed_ConRight = Con_By_TraceLine) {a : Action}
    (ha : ∀ x y z, a ≠ .Change_Speed x y z) : (s.act a).car.Car_Speed = s.car.Car_Speed := by
  cases a with
  | Change_Speed x y z => exact absurd rfl (ha x y z)
  | Stop => rfl
  | Start => rfl
  | motion_run count => rw [motion_run_eq hright]

/-- No speed was commanded. -/
def Quiet (as : List Action) : Prop := ∀ x y z, Action.Change_Speed x y z ∉ as

theorem run_Car_Speed {as : List Action} :
    ∀ {s : CarMotion ℚ}, s.car.Car_Speed_ConRight = Con_By_TraceLine → Quiet as →
      (s.run as).car.Car_Speed = s.car.Car_Speed := by
  induction as with
  | nil =>
    intro s _ _
    rfl
  | cons a as ih =>
    intro s hright hquiet
    have hact := act_Car_Speed hright (a := a) fun x y z h =>
      hquiet x y z (h ▸ List.mem_cons_self)
    have hrest : Quiet as := fun x y z h => hquiet x y z (List.mem_cons_of_mem a h)
    exact (ih ((s.act_ConRight a).trans hright) hrest).trans hact

/-- The wheels are asked not to turn. -/
def Idle (s : CarMotion ℚ) : Prop := ∀ w, s.target w = 0

theorem motion_run_idle_iff (hright : s.car.Car_Speed_ConRight = Con_By_TraceLine)
    (count : Wheel → ℤ) : (s.act (.motion_run count)).Idle ↔ s.car.Car_Speed.Still := by
  rw [motion_run_eq hright, Idle]
  simp only [target, motor_run_target]
  exact mecanumRun_still s.car.Car_Speed s.motors

/-- **A restarted car** — in a run with the control right at the tracing code, every
    `car_motion_run` that follows a `Car_Stop` and a later `Car_Start` with no `Car_Change_Speed`
    since that start computes three zero targets, exactly when the speed record was zero at each
    such start that a `car_motion_run` follows. -/
theorem restarted_still_iff (hright : s.car.Car_Speed_ConRight = Con_By_TraceLine)
    (as : List Action) :
    (∀ (before between after : List Action) (count : Wheel → ℤ),
      before ++ .Stop :: between ++ .Start :: after ++ [.motion_run count] <+: as → Quiet after →
        (s.run (before ++ .Stop :: between ++ .Start :: after ++ [.motion_run count])).Idle) ↔
    ∀ (before between after : List Action) (count : Wheel → ℤ),
      before ++ .Stop :: between ++ .Start :: after ++ [.motion_run count] <+: as → Quiet after →
        (s.run (before ++ .Stop :: between)).car.Car_Speed.Still := by
  have hiff : ∀ (before between after : List Action) (count : Wheel → ℤ), Quiet after →
      ((s.run (before ++ .Stop :: between ++ .Start :: after ++ [.motion_run count])).Idle ↔
        (s.run (before ++ .Stop :: between)).car.Car_Speed.Still) := by
    intro before between after count hquiet
    rw [run_append s (before ++ .Stop :: between ++ .Start :: after),
      run_append s (before ++ .Stop :: between)]
    have hat : (s.run (before ++ .Stop :: between)).car.Car_Speed_ConRight = Con_By_TraceLine :=
      (run_ConRight _ s).trans hright
    have hstart : Quiet (.Start :: after) := by
      intro x y z h
      rcases List.mem_cons.mp h with h | h
      · exact nomatch h
      · exact hquiet x y z h
    have hspeed := run_Car_Speed hat hstart
    rw [← hspeed]
    exact motion_run_idle_iff ((run_ConRight _ _).trans hat) count
  constructor
  · intro h before between after count hpre hquiet
    exact (hiff before between after count hquiet).mp (h before between after count hpre hquiet)
  · intro h before between after count hpre hquiet
    exact (hiff before between after count hquiet).mpr (h before between after count hpre hquiet)

/-- The car is started, driven, stopped and started again. -/
def stoppedWhileDriving : List Action := [.Start, .Change_Speed 100 0 0, .Stop, .Start]

theorem restarted_still_stopped :
    (∀ (before between after : List Action) (count : Wheel → ℤ),
      before ++ .Stop :: between ++ .Start :: after ++ [.motion_run count] <+:
          stoppedWhileDriving ++ [.motion_run fun _ => 0] → Quiet after →
        ((car_motion_Init zero).run
          (before ++ .Stop :: between ++ .Start :: after ++ [.motion_run count])).Idle) ↔
    ∀ (before between after : List Action) (count : Wheel → ℤ),
      before ++ .Stop :: between ++ .Start :: after ++ [.motion_run count] <+:
          stoppedWhileDriving ++ [.motion_run fun _ => 0] → Quiet after →
        ((car_motion_Init zero).run (before ++ .Stop :: between)).car.Car_Speed.Still :=
  restarted_still_iff rfl _

/-- **The defect**: it drives off without a command, at the speed it had when it was stopped. -/
theorem stoppedWhileDriving_moves :
    ¬ ((car_motion_Init zero).run (stoppedWhileDriving ++ [.motion_run fun _ => 0])).Idle := by
  rw [run_append]
  intro h
  have hstill : ((car_motion_Init zero).run stoppedWhileDriving).car.Car_Speed.Still :=
    (motion_run_idle_iff (run_ConRight _ _) _).mp h
  have h100 : (100 : ℚ) = 0 := hstill.1
  norm_num at h100

end CarMotion

end Car2025
