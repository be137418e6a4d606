/-
  The angle loop: what turns the car while it is pushed about.

  1. **Rotations (`rotation`)** — the push task calls `Car_Rotate` twice: to hold the yaw when it has gone
     around the picture, and to turn to the side when the picture is pushed away.

  2. **The goal (`Boot.goal`)** — the yaw that the last rotation asked for.

  3. **Result (`angle_loop`)** — while the angle loop has the control right every turn of the car's loop
     sets the turning speed from the goal and the yaw of that turn alone, and nothing else touches it.
-/
import Mathlib
import Car2025.Whole.Safety
import Car2025.Lib.Runs
import Car2025.PIDRun

namespace Car2025

open Speed_Con_Right Runs Saturate

/-! ## Rotations -/

/-- The angle of `Car_Rotate`, if the step calls it. -/
def PushBox.rotation (s : PushBox ℚ) : Option ℚ :=
  match s.pc with
  | .rotate0 => some 0
  | .rotate => some (if s.l_or_r = PUSH_RIGHT then 90 else -90)
  | _ => none

namespace Program

def rotation (s : Program ℚ) : Action ℚ → Option ℚ
  | .locate_box _ =>
    if s.hand.locate = .direction_correction_test1 ∧ s.hand.push.pc ≠ .done then s.hand.push.rotation
    else none
  | _ => none

/-! ## The goal -/

/-- The state, and the yaw that the last rotation asked for. -/
def aim (o : Outside) (x : Program ℚ × ℚ) (a : Action ℚ) : Program ℚ × ℚ :=
  (x.1.act o a, (x.1.rotation a).elim x.2 fun angle => x.1.motion.Att_yaw + angle)

end Program

/-- The goal after a run; 0 before the first rotation. -/
def Boot.goal (o : Outside) (b : Boot ℚ) (as : List (Program.Action ℚ)) : ℚ :=
  (as.foldl (Program.aim o) (b.start, 0)).2

namespace Program

variable {o : Outside} {s : Program ℚ}

theorem aim_run (o : Outside) (s : Program ℚ) (goal : ℚ) (as : List (Action ℚ)) :
    (as.foldl (aim o) (s, goal)).1 = s.run o as := by
  induction as generalizing s goal with
  | nil => rfl
  | cons a as ih => exact ih (s.act o a) _

theorem goal_concat (o : Outside) (b : Boot ℚ) (as : List (Action ℚ)) (a : Action ℚ) :
    b.goal o (as ++ [a]) = ((b.start.run o as).rotation a).elim (b.goal o as)
      fun angle => (b.start.run o as).motion.Att_yaw + angle := by
  rw [Boot.goal, List.foldl_append, List.foldl_cons, List.foldl_nil, aim, aim_run]
  rfl

/-- A step of the push task sets the reference of the angle loop where it calls `Car_Rotate`. -/
theorem thread_Ref (p : PushBox ℚ) (i : PushInput) :
    (p.thread i).motion.Car_Yaw_Controller.Ref =
      p.rotation.elim p.motion.Car_Yaw_Controller.Ref fun angle => p.motion.Att_yaw + angle := by
  rw [PushBox.thread, PushBox.rotation]
  cases p.pc with
  | rotate0 => rfl
  | rotate =>
    show p.motion.Att_yaw + _ = p.motion.Att_yaw + _
    congr 1
  | _ =>
    dsimp only
    try split
    all_goals rfl

/-- The car's thread leaves the reference. -/
theorem entry_Ref (r : Reading) (count : Wheel → ℤ) (x : Attitude ℚ × CarMotion ℚ) :
    (car_motion_entry r count x).2.Car_Yaw_Controller.Ref = x.2.Car_Yaw_Controller.Ref := by
  rw [car_motion_entry]
  dsimp only
  by_cases hon : x.2.car.Car_BootSwitch = true
  · rw [if_pos hon, car_motion_run_eq]
    dsimp only
    split
    · exact Pos_PID_Controller_Ref x.2.Car_Yaw_Controller _
    · rfl
  · rw [if_neg hon]

/-- **The reference** of the angle loop after a step: `Car_Rotate` is the only writer, and the push
    task is the only caller. -/
theorem act_Ref (a : Action ℚ) :
    (s.act o a).motion.Car_Yaw_Controller.Ref =
      (s.rotation a).elim s.motion.Car_Yaw_Controller.Ref fun angle => s.motion.Att_yaw + angle := by
  cases a with
  | trace_line working c =>
    obtain ⟨car, hm, -⟩ := (trace_line_entry_cases (o := o) (s := s) working c).asked
    show (s.trace_line_entry o working c).motion.Car_Yaw_Controller.Ref = _
    rw [hm]
    rfl
  | locate_box i =>
    show (s.hand.locate_box_entry i).push.motion.Car_Yaw_Controller.Ref = _
    rw [Handover.locate_box_entry, rotation]
    cases s.hand.locate with
    | direction_correction_test1 =>
      dsimp only
      by_cases hdone : s.hand.push.pc = .done
      · rw [if_pos hdone, if_neg fun h => h.2 hdone]
        rfl
      · rw [if_neg hdone, if_pos ⟨rfl, hdone⟩]
        exact thread_Ref s.hand.push i
    | call =>
      dsimp only
      split <;> rfl
    | sem_take stage | release => rfl
  | car_motion r count => exact entry_Ref r count (s.att, s.motion)
  | mcx bytes | art bytes | image | clock ticks | button | CarStart => rfl

theorem entries_Ref (turns : List (Reading × (Wheel → ℤ))) :
    ∀ x : Attitude ℚ × CarMotion ℚ,
      (turns.foldl (fun s t => car_motion_entry t.1 t.2 s) x).2.Car_Yaw_Controller.Ref =
        x.2.Car_Yaw_Controller.Ref := by
  induction turns with
  | nil => exact fun x => rfl
  | cons t turns ih => exact fun x => (ih _).trans (entry_Ref t.1 t.2 x)

/-- The reference is the goal, by induction on the run. -/
theorem run_Ref (b : Boot ℚ) (as : List (Action ℚ)) :
    (b.start.run o as).motion.Car_Yaw_Controller.Ref = b.goal o as := by
  induction as using List.reverseRecOn with
  | nil => exact entries_Ref b.turns (Att_Algo_Init b.samples Attitude.zero, _)
  | append_singleton as a ih => rw [run_concat, goal_concat, act_Ref, ih]

/-! ## Result -/

/-- What a controller returns does not depend on the limit of its integral. -/
theorem Pos_PID_output_eq (plant : Pos_PID_t ℚ) (v : ℚ) :
    (Pos_PID_Controller plant v).1 = limit plant.Output_Min plant.Output_Max
      (plant.Kp * (plant.Ref - v) + plant.Ki * (plant.Value_I + (plant.Ref - v)) -
        |plant.Ref - v - plant.Past_Error| * plant.Kd) := by
  simp only [Pos_PID_Controller, limit, CFloat.lt_rat, CFloat.abs_rat]
  split_ifs <;> rfl

/-- The yaw controller is a proportional one. -/
theorem yaw_output_eq {plant : Pos_PID_t ℚ} (h : plant.YawTuned) (yaw : ℚ) :
    (Pos_PID_Controller plant yaw).1 = limit (-300) 300 (5 * (plant.Ref - yaw)) := by
  rw [Pos_PID_output_eq, h.Output_Min, h.Output_Max, h.Kp, h.Ki, h.Kd, zero_mul, mul_zero, add_zero,
    sub_zero]

/-- While the push task runs the tracing thread leaves all that it works on. -/
theorem Sound.waits (h : s.Sound) (hpush : s.hand.Pushing) {s' : Program ℚ} (hs' : s.Traces s') :
    s'.hand.push = s.hand.push := by
  -- the tracing thread waits, so it is in none of the places where it drives
  obtain ⟨⟨stage, hstage⟩, -⟩ := h.cycle.pushing hpush
  cases hs' with
  | idle | finished => rfl
  | finishing stage' hfinish =>
    have htrace := h.finish (by rw [hfinish]; exact Option.some_ne_none stage')
    exact TracePc.noConfusion (htrace.symm.trans hstage)
  | framed vision htrace => exact TracePc.noConfusion (htrace.symm.trans hstage)
  | traced htrace => exact TracePc.noConfusion (htrace.symm.trans hstage)
  | along =>
    show (s.hand.trace_line_entry ⟨id, false⟩).push = s.hand.push
    rw [Handover.trace_take _ hstage]

/-- A command of the push task leaves the turning speed to the angle loop. -/
theorem thread_Omega {p : PushBox ℚ} (hright : p.motion.car.Car_Speed_ConRight = Con_By_AngleLoop)
    (i : PushInput) : (p.thread i).motion.car.Car_Speed.Omega = p.motion.car.Car_Speed.Omega := by
  have hspeed : ∀ vx vy omega : ℚ,
      (Car_Change_Speed vx vy omega p.motion.car).Car_Speed.Omega = p.motion.car.Car_Speed.Omega := by
    intro vx vy omega
    rw [Car_Change_Speed, hright]
    split <;> rfl
  rw [PushBox.thread]
  cases p.pc <;> dsimp only <;> (try split) <;>
    first
    | rfl
    | exact hspeed _ _ _

/-- **Nothing but the car's loop** touches the turning speed while the angle loop has the control
    right.  The right is with the angle loop only while the push task runs; then the tracing thread
    waits, and the task's own commands leave the turning speed to whoever has the right. -/
theorem Sound.Omega (h : s.Sound) (hright : s.motion.car.Car_Speed_ConRight = Con_By_AngleLoop)
    {a : Action ℚ} (ha : ∀ r count, a ≠ .car_motion r count) :
    (s.act o a).motion.car.Car_Speed.Omega = s.motion.car.Car_Speed.Omega := by
  have hpush : s.hand.Pushing := by
    by_contra hnot
    exact Speed_Con_Right.noConfusion ((h.driven.traced hnot).right.symm.trans hright)
  cases a with
  | trace_line working c =>
    have hpush' := h.waits hpush (trace_line_entry_cases (o := o) working c)
    exact congrArg (fun p : PushBox ℚ => p.motion.car.Car_Speed.Omega) hpush'
  | locate_box i =>
    show (s.hand.locate_box_entry i).push.motion.car.Car_Speed.Omega = _
    rw [Handover.locate_box_entry, show s.hand.locate = .direction_correction_test1 from hpush]
    dsimp only
    split
    · rfl
    · exact thread_Omega hright i
  | car_motion r count => exact absurd rfl (ha r count)
  | mcx bytes | art bytes | image | clock ticks | button | CarStart => rfl

/-- **The angle loop** — in every run, while the angle loop has the control right: every turn of the car's
    loop sets the turning speed to five times the angle that is left to the goal, limited to 300, and
    every other step leaves it.  The controller has no integral, so the turns before this one have left
    nothing behind that the speed could depend on. -/
theorem angle_loop (o : Outside) (b : Boot ℚ) (as : List (Action ℚ)) :
    EachStep (fun pre a =>
      (b.start.run o pre).motion.car.Car_Speed_ConRight = Con_By_AngleLoop →
        (b.start.run o (pre ++ [a])).motion.car.Car_Speed.Omega =
          match a with
          | .car_motion r _ => limit (-300) 300
              (5 * (b.goal o pre - (Att_GetYaw r (b.start.run o pre).att).1))
          | _ => (b.start.run o pre).motion.car.Car_Speed.Omega) as := by
  intro pre a hpre hright
  have h := run_sound (o := o) b pre
  have hRef := run_Ref (o := o) b pre
  rw [run_concat]
  generalize b.start.run o pre = s at h hRef hright ⊢
  cases a with
  | car_motion r count =>
    obtain ⟨hpush, hturn⟩ := h.right_iff.mp hright
    -- the angle loop has the right, so the task has come past its start
    have hon : s.motion.car.Car_BootSwitch = true :=
      (h.driven.held hpush).on fun hstart => by
        have ha := (h.cycle.pushing hpush).2.angle_state hstart (a := .zero)
          (by intro φ; cases φ <;> decide)
        exact Angle_State.noConfusion (hturn.1.symm.trans ha)
    show (car_motion_entry r count (s.att, s.motion)).2.car.Car_Speed.Omega = _
    rw [car_motion_entry]
    dsimp only
    rw [if_pos hon, car_motion_run_eq, ← hRef]
    have hhanded : ({ s.motion with Att_yaw := (Att_GetYaw r s.att).1 } : CarMotion ℚ).handed =
        { s.motion.car.Car_Speed with
          Omega := (Pos_PID_Controller s.motion.Car_Yaw_Controller (Att_GetYaw r s.att).1).1 } :=
      if_pos hright
    rw [hhanded]
    exact yaw_output_eq h.driven.wheels.yaw _
  | _ => exact h.Omega hright fun r count heq => by cases heq

end Program

end Car2025
