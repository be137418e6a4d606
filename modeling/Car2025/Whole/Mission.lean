/-
  The program as a spectator sees it.

  1. **Mission** — the car is parked, traces the line, pushes a box, ends the run, or has ended it.  The
     machine says which thread or which button may change that, and how, and what the car may be told
     in the meantime.

  2. **Stages (`Program.stage`)** — what the spectator sees of a state of the program.

  3. **Refinement (`mission_refined`)** — every run of the program is a path of the machine: no
     interleaving of the threads and the interrupts has another effect that shows.

  A run takes the steps of `Program.Action`: the tracing, the push-box and the car's thread, the two serial
  interrupts, finished images, the clock, the button and the shell's `CarStart`.  The shell's `CarStop`,
  `CarMove` and `setarg` are not among them; with `CarStop` a car could be parked again.
-/
import Mathlib
import Car2025.Lib.Refine
import Car2025.Whole.Finish

namespace Car2025

open Refine Runs

/-! ## Mission -/

inductive Mission where
  | parked
  | tracing
  | pushing
  | ending
  | ended
  deriving DecidableEq, Repr

namespace Mission

/-- The moves of the spectator's machine, and what causes them.  Nothing leads back to `parked`: of the
    steps of a run none turns the switch off. -/
inductive Move : Program.Action ℚ → Mission → Mission → Prop
  | button : Move .button .parked .tracing
  | call (i : PushInput) {m : Mission} (h : m = .parked ∨ m = .tracing) :
      Move (.locate_box i) m .pushing
  | back (i : PushInput) : Move (.locate_box i) .pushing .tracing
  | zebra (working : Bool) (c : Picture ℚ) {m : Mission} (h : m = .parked ∨ m = .tracing) :
      Move (.trace_line working c) m .ending
  | shown (working : Bool) (c : Picture ℚ) : Move (.trace_line working c) .ending .ended

/-- How far the mission has come.  Tracing and pushing take turns, so neither is behind the other: the
    order is parked, then these two, then ending, then ended. -/
def rank : Mission → ℕ
  | parked => 0
  | tracing | pushing => 1
  | ending => 2
  | ended => 3

theorem rank_le (a : Program.Action ℚ) (m m' : Mission) (h : Move a m m') : m.rank ≤ m'.rank := by
  cases h with
  | button | back | shown => decide
  | call i h =>
    rcases h with rfl | rfl <;> decide
  | zebra working c h =>
    rcases h with rfl | rfl <;> decide

/-- What the car may be told to do. -/
def Allows : Mission → Car ℚ → Prop
  | parked, car => car.Car_BootSwitch = false ∧ car.Car_Speed = ⟨0, 0, 0⟩
  | tracing, car | ending, car => car.Traced
  | pushing, car => car.Car_Speed.Within 500 500 1000
  | ended, car => car.Car_Speed = ⟨0, 0, 0⟩

end Mission

/-! ## Stages -/

/-- What is seen of the end of the run, the push-box thread and the switch. -/
def stageOf (finish : Option Finish) (locate : LocatePc) (on : Bool) : Mission :=
  match finish with
  | some .shown => .ended
  | some _ => .ending
  | none =>
    if locate = .direction_correction_test1 then .pushing
    else if on then .tracing else .parked

namespace Program

variable {o : Outside} {s : Program ℚ}

def stage (s : Program ℚ) : Mission :=
  stageOf s.finish s.hand.locate s.motion.car.Car_BootSwitch

theorem stage_of_none (h : s.finish = none) (hpush : ¬ s.hand.Pushing) :
    s.stage = if s.motion.car.Car_BootSwitch then .tracing else .parked := by
  rw [stage, h]
  exact if_neg hpush

theorem stage_driving (h : s.finish = none) (hpush : ¬ s.hand.Pushing) :
    s.stage = .parked ∨ s.stage = .tracing := by
  rw [stage_of_none h hpush]
  cases s.motion.car.Car_BootSwitch with
  | false => exact Or.inl rfl
  | true => exact Or.inr rfl

/-- A step that changes nothing that is seen. -/
theorem Seen.of_eq {a : Action ℚ} {s' : Program ℚ} (hf : s'.finish = s.finish)
    (hl : s'.hand.locate = s.hand.locate)
    (hon : s'.motion.car.Car_BootSwitch = s.motion.car.Car_BootSwitch) :
    Seen Mission.Move a s.stage s'.stage := by
  refine Or.inl ?_
  rw [stage, stage, hf, hl, hon]

/-- Away from its task the push-box thread changes nothing that is seen. -/
theorem stage_of_locate {s' : Program ℚ} (hf : s'.finish = s.finish) (hpush : ¬ s.hand.Pushing)
    (hpush' : ¬ s'.hand.Pushing)
    (hon : s'.motion.car.Car_BootSwitch = s.motion.car.Car_BootSwitch) : s'.stage = s.stage := by
  cases hfinish : s.finish with
  | none => rw [stage_of_none (hf.trans hfinish) hpush', stage_of_none hfinish hpush, hon]
  | some stage =>
    rw [Program.stage, Program.stage, hf, hfinish]
    cases stage <;> rfl

/-! ## Refinement -/

/-- The turns of the car's thread leave the switch. -/
theorem car_motion_entry_BootSwitch (r : Reading) (count : Wheel → ℤ)
    (x : Attitude ℚ × CarMotion ℚ) :
    (car_motion_entry r count x).2.car.Car_BootSwitch = x.2.car.Car_BootSwitch := by
  rw [car_motion_entry]
  dsimp only
  split
  · rw [car_motion_run_eq]
  · rfl

/-- **The tracing thread**: a zebra crossing ends the run, and then the results are shown.  What it
    asks of the car meanwhile is not seen, since none of its commands touches the switch. -/
theorem seen_trace (hsound : s.Sound) (working : Bool) (c : Picture ℚ) :
    Seen Mission.Move (.trace_line working c) s.stage (s.act o (.trace_line working c)).stage := by
  have hcases := trace_line_entry_cases (o := o) (s := s) working c
  show Seen Mission.Move _ s.stage (s.trace_line_entry o working c).stage
  generalize s.trace_line_entry o working c = s' at hcases
  obtain ⟨car, hm, hasked⟩ := hcases.asked
  have hon : s'.motion.car.Car_BootSwitch = s.motion.car.Car_BootSwitch := by
    rw [hm]
    exact hasked.BootSwitch
  have hlocate : s'.hand.locate = s.hand.locate := by
    rcases hcases.hand with heq | ⟨i, heq⟩
    · rw [heq]
    · rw [heq]
      exact (Handover.trace_line_entry_push i s.hand).1
  cases hcases with
  | idle => exact Or.inl rfl
  | framed vision htrace hmoved hfinish => exact Seen.of_eq rfl hlocate hon
  | traced htrace hfinish => exact Seen.of_eq rfl hlocate hon
  | along htrace hfinish => exact Seen.of_eq rfl hlocate hon
  | finished htrace hfinish =>
    -- the tracing thread has found it, so the push task does not run
    have hpush : ¬ s.hand.Pushing := hsound.cycle.not_pushing fun stage hstage =>
      TracePc.noConfusion (htrace.symm.trans hstage)
    exact Or.inr (.zebra working c (stage_driving hfinish hpush))
  | finishing stage hfinish =>
    have hbefore : s.stage = stageOf (some stage) s.hand.locate s.motion.car.Car_BootSwitch := by
      rw [Program.stage, hfinish]
    rw [hbefore]
    cases stage with
    | halt | forward | shown => exact Or.inl rfl
    | stop => exact Or.inr (.shown working c)

/-- **The push-box thread**: it is called, and comes back with the car switched on.  The task's
    first step is `Car_Start`, so it can be called in `parked` but goes back to `tracing` only. -/
theorem seen_locate (hsound : s.Sound) (i : PushInput) :
    Seen Mission.Move (.locate_box i) s.stage (s.act o (.locate_box i)).stage := by
  have haway : ∀ {s' : Program ℚ}, s' = s.act o (.locate_box i) → s'.finish = s.finish := by
    rintro s' rfl
    rfl
  cases hfinish : s.finish with
  | some stage =>
    -- after the run the push-box thread is not seen
    refine Or.inl ?_
    rw [Program.stage, Program.stage, haway rfl, hfinish]
    cases stage <;> rfl
  | none =>
    have hfinish' : (s.act o (.locate_box i)).finish = none := hfinish
    by_cases hpush : s.hand.Pushing
    · have hbefore : s.stage = .pushing := by
        rw [Program.stage, hfinish]
        exact if_pos hpush
      by_cases hpush' : (s.act o (.locate_box i)).hand.Pushing
      · refine Or.inl ?_
        rw [hbefore, Program.stage, hfinish']
        exact if_pos hpush'
      · -- the task is over, so the car has been started
        have hpc : s.hand.push.pc = .done := by
          by_contra hne
          refine hpush' ?_
          show (s.hand.locate_box_entry i).Pushing
          rw [Handover.locate_thread i hpush hne]
          exact hpush
        have hon := (hsound.driven.held hpush).on (by rw [hpc]; decide)
        rw [hbefore, stage_of_none hfinish' hpush', act_on hon, if_pos rfl]
        exact Or.inr (.back i)
    · by_cases hpush' : (s.act o (.locate_box i)).hand.Pushing
      · have hafter : (s.act o (.locate_box i)).stage = .pushing := by
          rw [Program.stage, hfinish']
          exact if_pos hpush'
        rw [hafter]
        exact Or.inr (.call i (stage_driving hfinish hpush))
      · refine Or.inl (stage_of_locate rfl hpush hpush' ?_)
        exact congrArg (fun m : CarMotion ℚ => m.car.Car_BootSwitch) (locate_motion hpush i)

/-- **One step** of the program is a move of the mission, or it is not seen.  Only the two threads that
    drive and the button can be seen: what else happens touches neither the switch nor what the two
    threads are at. -/
theorem act_seen (hsound : s.Sound) (a : Action ℚ) :
    Seen Mission.Move a s.stage (s.act o a).stage := by
  cases a with
  | trace_line working c => exact seen_trace hsound working c
  | locate_box i => exact seen_locate hsound i
  | car_motion r count =>
    exact Seen.of_eq rfl rfl (car_motion_entry_BootSwitch r count (s.att, s.motion))
  | mcx bytes | art bytes | image | clock ticks | CarStart => exact Seen.of_eq rfl rfl rfl
  | button =>
    cases hfinish : s.finish with
    | some stage =>
      refine Or.inl ?_
      have hfinish' : (s.act o .button).finish = some stage := hfinish
      rw [Program.stage, Program.stage, hfinish, hfinish']
      cases stage <;> rfl
    | none =>
      by_cases hpush : s.hand.Pushing
      · have hpush' : (s.act o .button).hand.Pushing := hpush
        refine Or.inl ?_
        rw [Program.stage, Program.stage, hfinish, show (s.act o .button).finish = none from hfinish]
        exact (if_pos hpush').trans (if_pos hpush).symm
      · have hpush' : ¬ (s.act o .button).hand.Pushing := hpush
        -- pressed again, the button is not seen
        rw [stage_of_none (s := s.act o .button) hfinish hpush', stage_of_none hfinish hpush]
        cases s.motion.car.Car_BootSwitch with
        | true => exact Or.inl rfl
        | false => exact Or.inr .button

/-- **In each stage** the car is told no more than the stage allows: the bounds of the invariant,
    read off at the stage that the finish, the push-box thread and the switch make up. -/
theorem stage_allows (o : Outside) (b : Boot ℚ) (as : List (Action ℚ)) :
    (b.start.run o as).stage.Allows (b.start.run o as).motion.car := by
  have hsound := run_sound (o := o) b as
  have hcar := run_on_or_parked (o := o) b as
  have hspeed := hsound.speed
  have hrest := run_finishing (o := o) b as
  generalize b.start.run o as = s at hsound hcar hspeed hrest ⊢
  cases hfinish : s.finish with
  | some stage =>
    have htrace := hsound.finish (by rw [hfinish]; exact Option.some_ne_none stage)
    have htraced := hsound.tracing (Or.inl htrace)
    rw [Program.stage, hfinish]
    cases stage with
    | halt | forward | stop => exact htraced
    | shown => exact hrest.shown hfinish
  | none =>
    by_cases hpush : s.hand.Pushing
    · have hstage : s.stage = .pushing := by
        rw [Program.stage, hfinish]
        exact if_pos hpush
      rw [hstage]
      exact hspeed
    · rw [stage_of_none hfinish hpush]
      rcases hcar with hon | hparked
      · rw [hon, if_pos rfl]
        exact hsound.driven.traced hpush
      · rw [hparked.off, if_neg Bool.false_ne_true]
        exact ⟨hparked.off, hparked.speed⟩

/-- **Refinement** — every run of the program's steps (`Program.Action`), from its initialisation on, is a
    path of the spectator's machine from `parked`; so the mission never falls back in the order of
    `Mission.rank`, and in each stage the car is told no more than the stage allows. -/
theorem mission_refined (o : Outside) (b : Boot ℚ) (as : List (Action ℚ)) :
    Path Mission.Move .parked as (b.start.run o as).stage ∧
      Always (fun pre => (b.start.run o pre).stage.rank ≤ (b.start.run o as).stage.rank ∧
        (b.start.run o pre).stage.Allows (b.start.run o pre).motion.car) as := by
  have hpath : ∀ pre bs : List (Action ℚ),
      Path Mission.Move (b.start.run o pre).stage bs (b.start.run o (pre ++ bs)).stage := by
    intro pre bs
    have hsteps : EachStep (fun bs a => Seen Mission.Move a (b.start.run o (pre ++ bs)).stage
        (b.start.run o (pre ++ (bs ++ [a]))).stage) bs := by
      intro bs a _
      rw [← List.append_assoc, run_concat]
      exact act_seen (run_sound b (pre ++ bs)) a
    have hsteps_path := Path.of_steps hsteps
    rw [List.append_nil] at hsteps_path
    exact hsteps_path
  refine ⟨hpath [] as, fun pre hpre => ?_⟩
  obtain ⟨bs, rfl⟩ := hpre
  exact ⟨(hpath pre bs).rank_le Mission.rank_le, stage_allows o b pre⟩

end Program

end Car2025
