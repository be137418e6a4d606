/-
  The end of the run: the car comes to rest and stays there.

  1. **On the way (`Finishing`)** — a zebra crossing that ends the run stops the car, moves it half a
     metre on and stops it again; the tracing thread is in `Vision_Handle` all the time, so the push
     task cannot be called.

  2. **Rest (`finished_rest`)** — once the results are shown the speed record is zero for good, whatever
     the camera detects, and 18 turns of the car's loop bring every wheel's reference to zero.
-/
import Mathlib
import Car2025.Whole.Safety
import Car2025.Whole.Start

namespace Car2025

open Speed_Con_Right

namespace Program

variable {o : Outside} {s : Program ℚ}

/-! ## On the way -/

/-- What the stages of the end leave of the speed record.  The middle one is about the turning
    speed only: `Car_DistanceMotion` passes on the `Omega` that it finds, and the halt before it
    has made it zero. -/
structure Finishing (s : Program ℚ) : Prop where
  forward : s.finish = some .forward → s.motion.car.Car_Speed = ⟨0, 0, 0⟩
  stop : s.finish = some .stop → s.motion.car.Car_Speed.Omega = 0
  shown : s.finish = some .shown → s.motion.car.Car_Speed = ⟨0, 0, 0⟩

theorem Finishing.of_none (h : s.finish = none) : s.Finishing := by
  refine ⟨fun hs => ?_, fun hs => ?_, fun hs => ?_⟩
  all_goals
    rw [h] at hs
    cases hs

/-- A step that leaves the stage and the speed record. -/
theorem Finishing.keep {s' : Program ℚ} (h : s.Finishing) (hf : s'.finish = s.finish)
    (hspeed : s'.motion.car.Car_Speed = s.motion.car.Car_Speed) : s'.Finishing :=
  ⟨fun hs => hspeed.trans (h.forward (hf.symm.trans hs)),
    fun hs => (congrArg mecanum_Speed.Omega hspeed).trans (h.stop (hf.symm.trans hs)),
    fun hs => hspeed.trans (h.shown (hf.symm.trans hs))⟩

/-- A command of the tracing thread, at a car that is on or parked. -/
theorem Car_Change_Speed_traced {m : CarMotion ℚ} (htraced : m.car.Traced)
    (hcar : m.car.Car_BootSwitch = true ∨ m.Parked) (vx vy omega : ℚ) :
    (Car_Change_Speed vx vy omega m.car).Car_Speed = ⟨vx, vy, omega⟩ ∨
      (Car_Change_Speed vx vy omega m.car).Car_Speed = ⟨0, 0, 0⟩ := by
  -- a car that was never started drops the command, but is at rest anyway
  rcases hcar with hon | hparked
  · refine Or.inl ?_
    rw [Car_Change_Speed, if_pos hon, htraced.right]
    rfl
  · refine Or.inr ?_
    rw [Car_Change_Speed_off _ _ _ hparked.off]
    exact hparked.speed

/-- In `Vision_Handle` a driving step drives. -/
theorem drive_car (htrace : s.hand.trace = .Vision_Handle) (car : Car ℚ) (more : Bool) :
    (s.drive car more).motion.car = car := by
  show (s.hand.trace_line_entry _).push.motion.car = car
  rw [Handover.trace_line_entry, htrace]

/-- **A stage of the end** leaves what the next one needs.  The tracing code has the control right
    here, so `Car_Change_Speed` sets all three components, unless the car is off, and then it is
    parked anyway. -/
theorem Finishing.finishing (h : s.Finishing) (hsound : s.Sound)
    (hcar : s.motion.car.Car_BootSwitch = true ∨ s.motion.Parked) {stage : Finish}
    (hfinish : s.finish = some stage) : (s.finishing stage).Finishing := by
  have htrace := hsound.finish (by rw [hfinish]; exact Option.some_ne_none stage)
  have htraced := hsound.tracing (Or.inl htrace)
  have hspeed : (s.finishing stage).motion.car = stage.command s.motion.car :=
    drive_car htrace _ true
  have hnext : (s.finishing stage).finish = some stage.next := rfl
  have hasked := fun vx vy omega => Car_Change_Speed_traced htraced hcar vx vy omega
  cases stage with
  | halt =>
    refine ⟨fun _ => ?_, fun hs => ?_, fun hs => ?_⟩
    · rw [hspeed]
      exact (hasked _ _ _).elim id id
    · exact Finish.noConfusion (Option.some.inj (hnext.symm.trans hs))
    · exact Finish.noConfusion (Option.some.inj (hnext.symm.trans hs))
  | forward =>
    refine ⟨fun hs => ?_, fun _ => ?_, fun hs => ?_⟩
    · exact Finish.noConfusion (Option.some.inj (hnext.symm.trans hs))
    · -- `Car_DistanceMotion` passes on the `Omega` that the halt has left
      have homega : s.motion.car.Car_Speed.Omega = 0 := by rw [h.forward hfinish]
      rw [hspeed, Finish.command, homega]
      rcases hasked (Car_DistanceMotion_speed (CFloat.ofInt 0) (CFloat.ofInt 50 : ℚ)
        (CFloat.ofRat (1 / 2))).1 _ 0 with heq | heq
      · exact congrArg mecanum_Speed.Omega heq
      · exact congrArg mecanum_Speed.Omega heq
    · exact Finish.noConfusion (Option.some.inj (hnext.symm.trans hs))
  | stop =>
    refine ⟨fun hs => ?_, fun hs => ?_, fun _ => ?_⟩
    · exact Finish.noConfusion (Option.some.inj (hnext.symm.trans hs))
    · exact Finish.noConfusion (Option.some.inj (hnext.symm.trans hs))
    · rw [hspeed, Finish.command, h.stop hfinish]
      exact (hasked _ _ _).elim id id
  | shown =>
    refine ⟨fun hs => ?_, fun hs => ?_, fun _ => ?_⟩
    · exact Finish.noConfusion (Option.some.inj (hnext.symm.trans hs))
    · exact Finish.noConfusion (Option.some.inj (hnext.symm.trans hs))
    · rw [hspeed]
      exact h.shown hfinish

/-- The tracing thread. -/
theorem Finishing.traces (h : s.Finishing) (hsound : s.Sound)
    (hcar : s.motion.car.Car_BootSwitch = true ∨ s.motion.Parked) {s' : Program ℚ}
    (hs' : s.Traces s') : s'.Finishing := by
  cases hs' with
  | idle => exact h
  | finishing stage hfinish => exact h.finishing hsound hcar hfinish
  | framed vision htrace hmoved hfinish => exact .of_none hfinish
  | finished => exact ⟨nofun, nofun, nofun⟩
  | traced htrace hfinish => exact .of_none hfinish
  | along htrace hfinish => exact .of_none hfinish

/-- While the tracing thread is in its driving code the push-box thread leaves the car. -/
theorem locate_motion (hpush : ¬ s.hand.Pushing) (i : PushInput) :
    (s.hand.locate_box_entry i).push.motion = s.hand.push.motion := by
  rw [Handover.locate_box_entry]
  cases hlocate : s.hand.locate with
  | sem_take stage | release => rfl
  | call =>
    dsimp only
    split <;> rfl
  | direction_correction_test1 => exact absurd hlocate hpush

/-- While the tracing code has the car, the car's thread leaves the speed record. -/
theorem car_motion_entry_speed (r : Reading) (count : Wheel → ℤ) {x : Attitude ℚ × CarMotion ℚ}
    (hright : x.2.car.Car_Speed_ConRight = Con_By_TraceLine) :
    (car_motion_entry r count x).2.car.Car_Speed = x.2.car.Car_Speed := by
  have hhanded : ({ x.2 with Att_yaw := (Att_GetYaw r x.1).1 } : CarMotion ℚ).handed =
      x.2.car.Car_Speed := if_neg (by
    show ¬ x.2.car.Car_Speed_ConRight = _
    rw [hright]
    decide)
  rw [car_motion_entry]
  by_cases hon : x.2.car.Car_BootSwitch = true
  · dsimp only
    rw [if_pos hon, car_motion_run_eq, hhanded]
  · dsimp only
    rw [if_neg hon]

/-- **One step** keeps it: while the run ends, the tracing thread is the only one to command the
    car. -/
theorem Finishing.act (h : s.Finishing) (hsound : s.Sound)
    (hcar : s.motion.car.Car_BootSwitch = true ∨ s.motion.Parked) (a : Action ℚ) :
    (s.act o a).Finishing := by
  cases a with
  | trace_line working c => exact h.traces hsound hcar (trace_line_entry_cases working c)
  | locate_box i =>
    by_cases hfinish : s.finish = none
    · exact .of_none hfinish
    · have hpush : ¬ s.hand.Pushing := hsound.cycle.not_pushing fun stage hstage =>
        TracePc.noConfusion ((hsound.finish hfinish).symm.trans hstage)
      exact h.keep rfl (congrArg (fun m : CarMotion ℚ => m.car.Car_Speed) (locate_motion hpush i))
  | car_motion r count =>
    by_cases hfinish : s.finish = none
    · exact .of_none hfinish
    · have htraced := hsound.tracing (Or.inl (hsound.finish hfinish))
      exact h.keep rfl (car_motion_entry_speed (x := (s.att, s.motion)) r count htraced.right)
  | mcx bytes | art bytes | image | clock ticks | CarStart | button => exact h.keep rfl rfl

theorem run_finishing (b : Boot ℚ) (as : List (Action ℚ)) : (b.start.run o as).Finishing := by
  induction as using List.reverseRecOn with
  | nil => exact .of_none rfl
  | append_singleton as a ih =>
    rw [run_concat]
    exact ih.act (run_sound b as) (run_on_or_parked b as) a

/-! ## Rest -/

/-- The results stay on the screen. -/
theorem act_shown (h : s.finish = some .shown) (a : Action ℚ) :
    (s.act o a).finish = some .shown := by
  cases a with
  | trace_line working c =>
    show (s.trace_line_entry o working c).finish = some .shown
    rw [trace_line_entry, h]
    rfl
  | _ => exact h

theorem run_shown (as bs : List (Action ℚ)) (h : (s.run o as).finish = some .shown) :
    (s.run o (as ++ bs)).finish = some .shown := by
  induction bs using List.reverseRecOn with
  | nil =>
    rw [List.append_nil]
    exact h
  | append_singleton bs a ih =>
    rw [← List.append_assoc, run_concat]
    exact act_shown ih a

/-- The turns of the car's thread among the steps. -/
def Action.isTurn : Action ℚ → Bool
  | .car_motion _ _ => true
  | _ => false

/-- Only the car's loop turns the wheels. -/
theorem act_motors {a : Action ℚ} (ha : a.isTurn = false)
    (hpush : ¬ s.hand.Pushing) : (s.act o a).motion.motors = s.motion.motors := by
  cases a with
  | trace_line working c =>
    obtain ⟨car, hm, -⟩ := (trace_line_entry_cases (o := o) (s := s) working c).asked
    show (s.trace_line_entry o working c).motion.motors = _
    rw [hm]
  | locate_box i => exact congrArg CarMotion.motors (locate_motion hpush i)
  | car_motion r count => exact Bool.noConfusion ha
  | mcx bytes | art bytes | image | clock ticks | CarStart | button => rfl

/-- How close to rest a wheel is after this many turns.  A turn brings the reference 100 nearer to
    the target, which is zero from the first turn on; the reference cannot start further away than
    `speedLimit`, so 18 turns are enough. -/
structure Slowing (s : Program ℚ) (turns : ℕ) (w : Wheel) : Prop where
  target : 0 < turns → s.motion.target w = 0
  Ref : |(s.motion.motors.motor w).PID.Ref| ≤ max (speedLimit - turns * 100) 0

theorem Slowing.other {turns : ℕ} {w : Wheel} (h : s.Slowing turns w) {a : Action ℚ}
    (ha : a.isTurn = false) (hpush : ¬ s.hand.Pushing) : (s.act o a).Slowing turns w := by
  have hmotors := act_motors (o := o) ha hpush
  constructor
  · intro hpos
    rw [CarMotion.target, hmotors]
    exact h.target hpos
  · rw [hmotors]
    exact h.Ref

/-- A turn at the speed zero brings the reference 100 nearer to zero. -/
theorem Slowing.turn {turns : ℕ} {w : Wheel} (h : s.Slowing turns w)
    (hcar : s.motion.car.Car_BootSwitch = true ∨ s.motion.Parked)
    (hright : s.motion.car.Car_Speed_ConRight = Con_By_TraceLine)
    (hspeed : s.motion.car.Car_Speed = ⟨0, 0, 0⟩) (r : Reading) (count : Wheel → ℤ) :
    (s.act o (.car_motion r count)).Slowing (turns + 1) w := by
  -- a car that is off turns no wheel, and has nothing to slow down
  rcases hcar with hon | hparked
  · have hhanded : ({ s.motion with Att_yaw := (Att_GetYaw r s.att).1 } : CarMotion ℚ).handed =
        ⟨0, 0, 0⟩ := (if_neg (by
      show ¬ s.motion.car.Car_Speed_ConRight = _
      rw [hright]
      decide)).trans hspeed
    have hmotors : (s.act o (.car_motion r count)).motion.motors =
        motor_run count (mecanumRun 0 0 0 s.motion.motors) := by
      show (car_motion_entry r count (s.att, s.motion)).2.motors = _
      rw [car_motion_entry]
      dsimp only
      rw [if_pos hon, car_motion_run_eq, hhanded]
    have hzero : ((mecanumRun 0 0 0 s.motion.motors).motor w).target_speed = 0 :=
      (mecanumRun_still ⟨0, 0, 0⟩ s.motion.motors).mpr ⟨rfl, rfl, rfl⟩ w
    constructor
    · intro _
      rw [CarMotion.target, hmotors, motor_run_target, hzero]
    · obtain ⟨RC_encoder, hw⟩ := motor_run_mecanumRun_motor count 0 0 0 s.motion.motors w
      rw [hmotors, hw, Motor.Pwm_cb_Ref, hzero]
      have hslew := Slew.abs_sub_slew (by norm_num : (0 : ℚ) < 100) 0
        (s.motion.motors.motor w).PID.Ref
      rw [zero_sub, abs_neg, zero_sub, abs_neg] at hslew
      show |Slew.slew 100 0 (s.motion.motors.motor w).PID.Ref| ≤ _
      rw [hslew]
      have hRef := h.Ref
      push_cast
      rcases le_max_iff.mp hRef with hle | hle
      · exact max_le_max (by linarith) le_rfl
      · exact max_le (le_max_of_le_right (by linarith)) (le_max_right _ _)
  · have hstays := hparked.entry (x := (s.att, s.motion)) r count
    have hw := hstays.wheels.motor w
    exact ⟨fun _ => abs_nonpos_iff.mp hw.target, hw.Ref.trans (le_max_right _ _)⟩

/-- **Rest** — once the end of the run shows the results, the speed record is zero and the push task
    does not run, after any further steps; and after 18 turns of the car's loop among them every
    wheel's target and reference are zero. -/
theorem finished_rest (o : Outside) (b : Boot ℚ) (as bs : List (Action ℚ))
    (h : (b.start.run o as).finish = some .shown) :
    (b.start.run o (as ++ bs)).motion.car.Car_Speed = ⟨0, 0, 0⟩ ∧
    ¬ (b.start.run o (as ++ bs)).hand.Pushing ∧
    (18 ≤ bs.countP Action.isTurn → ∀ w,
      (b.start.run o (as ++ bs)).motion.target w = 0 ∧
        ((b.start.run o (as ++ bs)).motion.motors.motor w).PID.Ref = 0) := by
  have hat : ∀ bs, (b.start.run o (as ++ bs)).motion.car.Car_Speed = ⟨0, 0, 0⟩ ∧
      ¬ (b.start.run o (as ++ bs)).hand.Pushing ∧
        (b.start.run o (as ++ bs)).motion.car.Car_Speed_ConRight = Con_By_TraceLine := by
    intro bs
    have hshown := run_shown as bs h
    have hsound := run_sound (o := o) b (as ++ bs)
    have htrace := hsound.finish (by rw [hshown]; exact Option.some_ne_none _)
    exact ⟨(run_finishing b (as ++ bs)).shown hshown,
      hsound.cycle.not_pushing fun stage hstage => TracePc.noConfusion (htrace.symm.trans hstage),
      (hsound.tracing (Or.inl htrace)).right⟩
  have hslow : ∀ w, (b.start.run o (as ++ bs)).Slowing (bs.countP Action.isTurn) w := by
    intro w
    induction bs using List.reverseRecOn with
    | nil =>
      rw [List.append_nil]
      refine ⟨fun hpos => absurd hpos (lt_irrefl 0), ?_⟩
      have hRef := ((run_sound (o := o) b as).driven.wheels.motor w).Ref
      refine le_max_of_le_left (hRef.trans ?_)
      rw [List.countP_nil, Nat.cast_zero, zero_mul, sub_zero]
    | append_singleton bs a ih =>
      obtain ⟨hspeed, hpush, hright⟩ := hat bs
      have hcar := run_on_or_parked (o := o) b (as ++ bs)
      rw [← List.append_assoc, run_concat, List.countP_append, List.countP_singleton]
      generalize b.start.run o (as ++ bs) = s at ih hspeed hpush hright hcar ⊢
      cases a with
      | car_motion r count => exact ih.turn hcar hright hspeed r count
      | _ => exact ih.other rfl hpush
  refine ⟨(hat bs).1, (hat bs).2.1, fun hturns w => ⟨(hslow w).target (by omega), ?_⟩⟩
  have hRef := (hslow w).Ref
  -- 18 turns of 100 are more than a wheel's reference can ever be
  have hmany : (18 : ℚ) ≤ (bs.countP Action.isTurn : ℕ) := by exact_mod_cast hturns
  rw [max_eq_right (by rw [speedLimit]; linarith)] at hRef
  exact abs_nonpos_iff.mp hRef

/-- The car moves, and sees a zebra crossing when the run is over. -/
def finishRun : List (Action ℚ) :=
  movingRun ++ .car_motion Reading.still (fun _ => 0) ::
    List.replicate 4 (.trace_line false lostPicture) ++ [.clock 5001, .image] ++
    List.replicate 5 (.trace_line false lostPicture)

/-- And then the car's loop goes on. -/
def afterwards : List (Action ℚ) := List.replicate 18 (.car_motion Reading.still fun _ => 0)

/-- When the run is over the wheels are still asked to turn, -/
example : (Boot.parked.start.run .reads finishRun).motion.target .A = 200000 / 433 := by
  decide +kernel

/-- and 18 turns later they are not. -/
theorem finished_rest_zebra :
    (Boot.parked.start.run .reads (finishRun ++ afterwards)).motion.car.Car_Speed = ⟨0, 0, 0⟩ ∧
    ¬ (Boot.parked.start.run .reads (finishRun ++ afterwards)).hand.Pushing ∧
    ∀ w, (Boot.parked.start.run .reads (finishRun ++ afterwards)).motion.target w = 0 ∧
      ((Boot.parked.start.run .reads (finishRun ++ afterwards)).motion.motors.motor w).PID.Ref =
        0 := by
  obtain ⟨hspeed, hpush, hwheels⟩ :=
    finished_rest .reads Boot.parked finishRun afterwards (by decide +kernel)
  exact ⟨hspeed, hpush, hwheels (by decide)⟩

end Program

end Car2025
