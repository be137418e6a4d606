/-
  What the whole program does to the car, at any time and in any order of its steps.

  1. **Who drives (`control_right`)** — the angle loop has the control right exactly while the push task
     turns; so no frame that the tracing code handles is skipped for want of it.

  2. **How fast (`speed_envelope`)** — the speed record, the wheels' targets and references, their duty
     and their integral are bounded in every state.

  3. **Tracing (`traced_unscaled`)** — while the push task does not run the wheels turn exactly as the
     speed record asks: `mecanumRun` scales nothing, and the missing magnitude in it does not matter.
-/
import Mathlib
import Car2025.Whole.Sound

namespace Car2025

open Speed_Con_Right

namespace Program

variable {o : Outside} {s : Program ℚ}

/-! ## Who drives -/

/-- **The control right**, as the invariant tells it: `Held` says who has it while the push task
    runs, and otherwise it is the tracing code's. -/
theorem Sound.right_iff (h : s.Sound) :
    s.motion.car.Car_Speed_ConRight = Con_By_AngleLoop ↔ s.hand.Pushing ∧ s.hand.push.Turning := by
  by_cases hpush : s.hand.Pushing
  · have hheld := h.driven.held hpush
    by_cases hturn : s.hand.push.Turning
    · exact iff_of_true (hheld.angle hturn) ⟨hpush, hturn⟩
    · refine iff_of_false (fun hright => ?_) fun hboth => hturn hboth.2
      exact Speed_Con_Right.noConfusion ((hheld.trace hturn).symm.trans hright)
  · refine iff_of_false (fun hright => ?_) fun hboth => hpush hboth.1
    exact Speed_Con_Right.noConfusion ((h.driven.traced hpush).right.symm.trans hright)

/-- Nobody else has it. -/
theorem Sound.right_else (h : s.Sound)
    (hnot : s.motion.car.Car_Speed_ConRight ≠ Con_By_AngleLoop) :
    s.motion.car.Car_Speed_ConRight = Con_By_TraceLine := by
  by_cases hpush : s.hand.Pushing
  · have hheld := h.driven.held hpush
    by_cases hturn : s.hand.push.Turning
    · exact absurd (hheld.angle hturn) hnot
    · exact hheld.trace hturn
  · exact (h.driven.traced hpush).right

/-- The offset is 0 between the frames. -/
theorem act_offset (h : s.line.TraceLine_Aver_Offset = 0) (a : Action ℚ) :
    (s.act o a).line.TraceLine_Aver_Offset = 0 := by
  cases a with
  | trace_line working c =>
    show (s.trace_line_entry o working c).line.TraceLine_Aver_Offset = 0
    have hcases := trace_line_entry_cases (o := o) (s := s) working c
    generalize s.trace_line_entry o working c = s' at hcases ⊢
    cases hcases with
    | traced =>
      show (trace_line_method s.vision.Image_S s.traced).TraceLine_Aver_Offset = 0
      rw [trace_line_method]
      split
      · rfl
      · exact h
    | _ => exact h
  | _ => exact h

theorem run_offset (b : Boot ℚ) (as : List (Action ℚ)) :
    (b.start.run o as).line.TraceLine_Aver_Offset = 0 := by
  induction as using List.reverseRecOn with
  | nil => rfl
  | append_singleton as a ih =>
    rw [run_concat]
    exact act_offset ih a

/-- Where `trace_line_method` is called it has the offset of the frame's borders, and the car. -/
theorem run_method_line (b : Boot ℚ) (as : List (Action ℚ))
    (htrace : (b.start.run o as).hand.trace = .trace_line_method) :
    (b.start.run o as).method.line =
      (b.start.run o as).traced.steer (b.start.run o as).vision.Image_S.Aver_Offset := by
  -- the test at the head of `trace_line_method` never fails
  have hright := ((run_sound (o := o) b as).tracing (Or.inr htrace)).right
  have hline := trace_line_method_eq (b.start.run o as).vision.Image_S
    (s := (b.start.run o as).traced) (run_offset b as)
  exact hline.trans (if_pos hright)

/-- **Who drives** — after every run the angle loop has the control right exactly while the push task
    turns, and otherwise the tracing code has it.  So whenever `trace_line_method` is called it feeds
    its controllers with the offset of the frame's borders and commands the car. -/
theorem control_right (o : Outside) (b : Boot ℚ) (as : List (Action ℚ)) :
    ((b.start.run o as).motion.car.Car_Speed_ConRight = Con_By_AngleLoop ↔
      (b.start.run o as).hand.Pushing ∧ (b.start.run o as).hand.push.Turning) ∧
    ((b.start.run o as).motion.car.Car_Speed_ConRight ≠ Con_By_AngleLoop →
      (b.start.run o as).motion.car.Car_Speed_ConRight = Con_By_TraceLine) ∧
    ((b.start.run o as).hand.trace = .trace_line_method →
      (b.start.run o as).method.line =
        (b.start.run o as).traced.steer (b.start.run o as).vision.Image_S.Aver_Offset) := by
  have h := run_sound (o := o) b as
  exact ⟨h.right_iff, h.right_else, run_method_line b as⟩

/-! ## How fast -/

/-- The components of the speed record, whoever drives. -/
theorem Sound.speed (h : s.Sound) : s.motion.car.Car_Speed.Within 500 500 1000 := by
  by_cases hpush : s.hand.Pushing
  · rcases (h.driven.held hpush).speed with hbox | hbox
    · exact hbox.mono (by norm_num) (by norm_num) (by norm_num)
    · exact hbox.mono (by norm_num) (by norm_num) (by norm_num)
  · exact (h.driven.traced hpush).speed.mono (by norm_num) (by norm_num) (by norm_num)

/-- **How fast** — after every run the components of the speed record are at most 500, 500 and 1000; no
    wheel's target or reference exceeds 1703, and none is above `maxLinearSpeed` forwards; the duty is
    at most 9500 and the integral at most 50000.  While the push task does not run the components are
    at most 200, 400 and 300. -/
theorem speed_envelope (o : Outside) (b : Boot ℚ) (as : List (Action ℚ)) :
    (b.start.run o as).motion.car.Car_Speed.Within 500 500 1000 ∧
    (¬ (b.start.run o as).hand.Pushing →
      (b.start.run o as).motion.car.Car_Speed.Within 200 400 300) ∧
    ∀ w, ((b.start.run o as).motion.motors.motor w).Within 1703 ∧
      w.sign * (b.start.run o as).motion.target w ≤ maxLinearSpeed := by
  have h := run_sound (o := o) b as
  exact ⟨h.speed, fun hpush => (h.driven.traced hpush).speed,
    fun w => ⟨h.driven.wheels.motor w, h.driven.wheels.forwards w⟩⟩

/-! ## Tracing -/

/-- **Tracing** — whenever the push task does not run and the switch is on, a turn of the car's thread
    gives every wheel exactly the speed that the speed record asks for, at most 862. -/
theorem traced_unscaled (o : Outside) (b : Boot ℚ) (as : List (Action ℚ)) (r : Reading)
    (count : Wheel → ℤ) (hpush : ¬ (b.start.run o as).hand.Pushing)
    (hon : (b.start.run o as).motion.car.Car_BootSwitch = true) (w : Wheel) :
    (b.start.run o (as ++ [.car_motion r count])).motion.target w =
      w.sign * wheelSpeed (b.start.run o as).motion.car.Car_Speed.Vx
        (b.start.run o as).motion.car.Car_Speed.Vy
        (b.start.run o as).motion.car.Car_Speed.Omega w ∧
    |(b.start.run o (as ++ [.car_motion r count])).motion.target w| ≤ 862 := by
  obtain ⟨hright, hspeed⟩ := (run_sound (o := o) b as).driven.traced hpush
  rw [run_concat]
  generalize b.start.run o as = s at hpush hon hright hspeed ⊢
  have htarget : (s.act o (.car_motion r count)).motion.target w =
      ((mecanumRun s.motion.car.Car_Speed.Vx s.motion.car.Car_Speed.Vy
        s.motion.car.Car_Speed.Omega s.motion.motors).motor w).target_speed := by
    show (car_motion_entry r count (s.att, s.motion)).2.target w = _
    rw [car_motion_entry]
    dsimp only
    rw [if_pos hon, car_motion_run_eq, CarMotion.target]
    have hhanded : ({ s.motion with Att_yaw := (Att_GetYaw r s.att).1 } : CarMotion ℚ).handed =
        s.motion.car.Car_Speed := if_neg (by
      show ¬ s.hand.push.motion.car.Car_Speed_ConRight = _
      rw [hright]
      decide)
    rw [hhanded]
    exact motor_run_target count _ w
  -- what the tracing code asks for is well below what a wheel can do
  have hbound : wheelBound 200 400 300 ≤ 862 := by decide +kernel
  have hlimit : (862 : ℚ) ≤ maxLinearSpeed := by decide +kernel
  rw [htarget]
  exact ⟨mecanumRun_unscaled hspeed (hbound.trans hlimit) _ w,
    (mecanumRun_within hspeed _ w).trans hbound⟩

end Program

/-! ## A car that is started -/

/-- The initialisation of a car at rest. -/
def Boot.parked : Boot ℚ :=
  ⟨fun _ => ⟨0, 0, 0⟩, [], ⟨fun _ => LEFT_LOSE_VALUE, fun _ => RIGHT_LOSE_VALUE⟩, PushBox.parked, 0⟩

/-- A car at rest, read once. -/
def Reading.still : Reading := ⟨⟨0, 0, 0⟩, ⟨0, 0, 0⟩, 1⟩

namespace Program

/-- A frame with no border and a zebra crossing. -/
def lostPicture : Picture ℚ where
  Image_S := ⟨fun _ => LEFT_LOSE_VALUE, fun _ => RIGHT_LOSE_VALUE⟩
  junk := fun _ _ => Uninit.zero
  Start_Flag := false
  car := Car.start
  inp := ⟨true, 0, 0, 0⟩

/-- The button, and a first frame. -/
def firstFrame : List (Action ℚ) :=
  [.button, .image, .trace_line false lostPicture, .trace_line false lostPicture]

/-- Its borders are traced, and the car goes ahead. -/
def movingRun : List (Action ℚ) := firstFrame ++ [.trace_line false lostPicture]

example : (Boot.parked.start.run .reads movingRun).motion.car.Car_Speed.Vy = 400 := by
  decide +kernel

theorem traced_unscaled_button :
    (Boot.parked.start.run .reads
        (movingRun ++ [.car_motion Reading.still fun _ => 0])).motion.target .A =
      Wheel.A.sign * wheelSpeed (Boot.parked.start.run .reads movingRun).motion.car.Car_Speed.Vx
        (Boot.parked.start.run .reads movingRun).motion.car.Car_Speed.Vy
        (Boot.parked.start.run .reads movingRun).motion.car.Car_Speed.Omega .A ∧
    |(Boot.parked.start.run .reads
        (movingRun ++ [.car_motion Reading.still fun _ => 0])).motion.target .A| ≤ 862 :=
  traced_unscaled .reads Boot.parked movingRun Reading.still (fun _ => 0)
    (by rw [Handover.Pushing]; decide +kernel) (by decide +kernel) .A

end Program

end Car2025
