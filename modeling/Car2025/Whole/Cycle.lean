/-
  The whole program takes the turns of `Handover`.

  1. **Steps of the tracing thread (`trace_line_entry_cases`)** — every one of them is a step of
     `Handover`'s tracing thread, with the code of the frame as its driving code, or none at all.

  2. **The car alone (`Cycle.setMotion`)** — what the car's thread and the button do is no matter of
     whose turn it is.

  3. **Runs (`Program.run_cycle`)** — so every run of the program is in the cycle of `Handover`; while
     the push task runs the tracing thread waits for its semaphore.
-/
import Mathlib
import Car2025.Whole.Program

namespace Car2025

open Speed_Con_Right Semaphore

section

variable {R : Type} [CFloat R] {o : Outside} {s : Program R}

/-! ## Steps of the tracing thread -/

/-- All that a step of the tracing thread can be. -/
inductive Program.Traces (s : Program R) : Program R → Prop
  | idle : Program.Traces s s
  /-- the end of the run -/
  | finishing (stage : Finish) (hfinish : s.finish = some stage) : Program.Traces s (s.finishing stage)
  | framed (vision : Vision R) (htrace : s.hand.trace = .Vision_Handle)
      (hmoved : Car.Moved s.motion.car vision.car) (hfinish : s.finish = none) :
      Program.Traces s { s.drive vision.car false with vision := vision }
  | finished (htrace : s.hand.trace = .Vision_Handle) (hfinish : s.finish = none) :
      Program.Traces s { s with finish := some .halt }
  | traced (htrace : s.hand.trace = .trace_line_method) (hfinish : s.finish = none) :
      Program.Traces s s.method
  | along (htrace : ¬ s.hand.Tracing) (hfinish : s.finish = none) :
      Program.Traces s s.along

theorem Program.Vision_Handle_cases (c : Picture R) (htrace : s.hand.trace = .Vision_Handle)
    (hfinish : s.finish = none) : s.Traces (s.Vision_Handle o c) := by
  rw [Vision_Handle]
  cases hv : Vision_picture o s.vision (s.picture c) with
  | ok vision => exact .framed vision htrace (Vision_picture_moved hv) hfinish
  | error e =>
    cases e with
    -- the end of the run is the only stop that is a stage; a failed read leaves the thread there
    | finished => exact .finished htrace hfinish
    | _ => exact .idle

/-- **A step of the tracing thread**. -/
theorem Program.trace_line_entry_cases (working : Bool) (c : Picture R) :
    s.Traces (s.trace_line_entry o working c) := by
  rw [Program.trace_line_entry]
  cases hfinish : s.finish with
  | some stage => exact .finishing stage hfinish
  | none =>
    cases htrace : s.hand.trace with
    | Vision_Handle =>
      -- `working` is a step inside the handler, which ends with the frame
      cases working with
      | true => exact .idle
      | false => exact Program.Vision_Handle_cases c htrace hfinish
    | trace_line_method => exact .traced htrace hfinish
    | _ =>
      refine .along (fun h => ?_) hfinish
      rw [Handover.Tracing, htrace] at h
      rcases h with h | h <;> exact TracePc.noConfusion h

/-- **The tracing thread takes the steps of `Handover`**, with the vision code as its driving code.
    So what is proved of `Handover` for any driving code holds here. -/
theorem Program.Traces.hand {s' : Program R} (h : s.Traces s') :
    s'.hand = s.hand ∨ ∃ i, s'.hand = s.hand.trace_line_entry i := by
  cases h with
  | idle | finished => exact Or.inl rfl
  | finishing stage => exact Or.inr ⟨_, rfl⟩
  | framed vision => exact Or.inr ⟨_, rfl⟩
  | traced => exact Or.inr ⟨_, rfl⟩
  | along => exact Or.inr ⟨_, rfl⟩

/-- All that the tracing thread asks of the car. -/
inductive Car.Asked (car : Car R) : Car R → Prop
  | kept : Car.Asked car car
  | changed (vx vy omega : R) : Car.Asked car (Car_Change_Speed vx vy omega car)
  | given : Car.Asked car { car with Car_Speed_ConRight := Con_By_TraceLine }

theorem Car.Moved.asked {car car' : Car R} (h : car.Moved car') : car.Asked car' := by
  cases h with
  | kept => exact .kept
  | halted => exact .changed _ _ _
  | given => exact .given

theorem Finish.command_asked (stage : Finish) (car : Car R) : car.Asked (stage.command car) := by
  cases stage with
  | halt | forward | stop => exact .changed _ _ _
  | shown => exact .kept

theorem trace_line_method_asked (I : Image) (s : TraceLine R) :
    s.car.Asked (trace_line_method I s).car := by
  rw [trace_line_method]
  split
  · exact .changed _ _ _
  · exact .kept

/-- What a step of the tracing thread does to the car and the push task. -/
theorem Handover.trace_line_entry_push (i : TraceInput R) (s : Handover R) :
    (s.trace_line_entry i).locate = s.locate ∧
    (s.trace_line_entry i).push.data = s.push.data ∧
    ((s.trace_line_entry i).push.motion = s.push.motion ∨
      (s.Tracing ∧ (s.trace_line_entry i).push.motion = i.drive s.push.motion) ∨
      (s.trace = .stop ∧ (s.trace_line_entry i).push.motion =
        { s.push.motion with
          car := Car_Change_Speed (CFloat.ofInt 0) (CFloat.ofInt 0) (CFloat.ofInt 0)
            s.push.motion.car })) := by
  rw [trace_line_entry, Tracing]
  cases htrace : s.trace with
  | loop | detection | timer =>
    dsimp only
    split <;> exact ⟨rfl, rfl, Or.inl rfl⟩
  | Vision_Handle => exact ⟨rfl, rfl, Or.inr (Or.inl ⟨Or.inl rfl, rfl⟩)⟩
  | trace_line_method => exact ⟨rfl, rfl, Or.inr (Or.inl ⟨Or.inr rfl, rfl⟩)⟩
  | stop => exact ⟨rfl, rfl, Or.inr (Or.inr ⟨rfl, rfl⟩)⟩
  | _ => exact ⟨rfl, rfl, Or.inl rfl⟩

/-- The push-box thread in the push task, -/
theorem Handover.locate_thread {s : Handover R} (i : PushInput) (hpush : s.Pushing)
    (hpc : s.push.pc ≠ .done) : s.locate_box_entry i = { s with push := s.push.thread i } := by
  have hlocate : s.locate = .direction_correction_test1 := hpush
  rw [locate_box_entry, hlocate]
  dsimp only
  rw [if_neg hpc]

/-- and at its return. -/
theorem Handover.locate_exit {s : Handover R} (i : PushInput) (hpush : s.Pushing)
    (hpc : s.push.pc = .done) :
    s.locate_box_entry i = { s with locate := .release, log := .exit s.now :: s.log } := by
  have hlocate : s.locate = .direction_correction_test1 := hpush
  rw [locate_box_entry, hlocate]
  dsimp only
  rw [if_pos hpc]

/-- In `Vision_Handle` it stays there as long as it works on. -/
theorem Handover.trace_line_entry_more {s : Handover R} (htrace : s.trace = .Vision_Handle)
    (drive : CarMotion R → CarMotion R) : (s.trace_line_entry ⟨drive, true⟩).trace = .Vision_Handle := by
  rw [trace_line_entry, htrace]
  rfl

/-- **The car is all that the tracing thread changes** of what is driven: neither the wheels nor
    the yaw nor the controllers, and the car only by the commands that `Car.Asked` lists. -/
theorem Program.Traces.asked {s' : Program R} (h : s.Traces s') :
    ∃ car, s'.motion = { s.motion with car := car } ∧ s.motion.car.Asked car := by
  have hdrive : ∀ (car : Car R) (more : Bool), s.motion.car.Asked car →
      ∃ car', (s.drive car more).motion = { s.motion with car := car' } ∧
        s.motion.car.Asked car' := by
    intro car more hasked
    obtain ⟨-, -, hmotion⟩ :=
      Handover.trace_line_entry_push ⟨fun m => { m with car := car }, more⟩ s.hand
    rcases hmotion with hm | ⟨-, hm⟩ | ⟨-, hm⟩
    · exact ⟨_, hm, .kept⟩
    · exact ⟨car, hm, hasked⟩
    · exact ⟨_, hm, .changed _ _ _⟩
  cases h with
  | idle | finished => exact ⟨_, rfl, .kept⟩
  | finishing stage => exact hdrive _ true (stage.command_asked _)
  | framed vision htrace hmoved => exact hdrive _ false hmoved.asked
  | traced => exact hdrive _ false (trace_line_method_asked _ s.traced)
  | along htrace =>
    obtain ⟨-, -, hmotion⟩ := Handover.trace_line_entry_push ⟨id, false⟩ s.hand
    rcases hmotion with hm | ⟨htracing, -⟩ | ⟨-, hm⟩
    · exact ⟨_, hm, .kept⟩
    · exact absurd htracing htrace
    · exact ⟨_, hm, .changed _ _ _⟩

/-! ## The car alone -/

omit [CFloat R] in
/-- The push task is told by what it has done, not by what the car does. -/
theorem Told.setMotion {p : PushBox R} (h : Told p) {m : CarMotion R}
    (hright : m.car.Car_Speed_ConRight = p.motion.car.Car_Speed_ConRight) :
    Told { p with motion := m } := by
  obtain ⟨φ, c, d, h⟩ := h
  exact ⟨φ, c, d, h.pc, h.angle_state, h.log, h.side, h.finish, h.reset,
    fun hφ => hright.trans (h.right hφ)⟩

omit [CFloat R] in
theorem Cycle.setMotion {hand : Handover R} (h : Cycle hand) {m : CarMotion R}
    (hright : m.car.Car_Speed_ConRight = hand.push.motion.car.Car_Speed_ConRight) :
    Cycle { hand with push := { hand.push with motion := m } } := by
  obtain ⟨φ, r, T, h⟩ := h
  exact ⟨φ, r, T, h.trace, h.locate, Handover.turn_congr rfl rfl rfl rfl h.turn, h.debug, h.push_flag,
    h.log, h.spaced, h.rested, h.timed, h.quiet, h.due, fun hφ => (h.told hφ).setMotion hright⟩

/-- A turn of the car's thread leaves the control right with whom it is. -/
theorem car_motion_entry_ConRight (r : Reading) (count : Wheel → ℤ) (x : Attitude R × CarMotion R) :
    (car_motion_entry r count x).2.car.Car_Speed_ConRight = x.2.car.Car_Speed_ConRight := by
  rw [car_motion_entry]
  dsimp only
  split
  · exact car_motion_run_ConRight count _
  · rfl

/-! ## Runs -/

theorem Program.act_cycle (h : Cycle s.hand) (a : Program.Action R) : Cycle (s.act o a).hand := by
  cases a with
  | trace_line working c =>
    rcases (Program.trace_line_entry_cases (o := o) (s := s) working c).hand with heq | ⟨i, heq⟩
    · exact heq ▸ h
    · exact heq ▸ h.act (.trace_line i)
  | locate_box i => exact h.act (.locate_box i)
  | car_motion r count => exact h.setMotion (car_motion_entry_ConRight r count (s.att, s.motion))
  | mcx bytes => exact h.act (.interrupt _)
  | art bytes => exact h.act (.interrupt _)
  | image => exact h.act (.interrupt _)
  | clock ticks => exact h.act (.clock ticks)
  | button => exact h.setMotion rfl
  | CarStart => exact h

/-- **Whose turn it is** in the whole program: every run stays in the cycle, as the two threads
    take the steps of `Handover` and nothing else touches the semaphores. -/
theorem Program.run_cycle (b : Boot R) (as : List (Program.Action R)) :
    Cycle (b.start.run o as).hand := by
  induction as using List.reverseRecOn with
  | nil => exact Handover.start_cycle _ b.now
  | append_singleton as a ih =>
    rw [run_concat]
    exact Program.act_cycle ih a

omit [CFloat R] in
/-- **While the push task runs** the tracing thread waits for its semaphore.  Of the phases of the
    cycle only one has the push-box thread in its task, and that phase has the tracing thread at
    `sem_take`. -/
theorem Cycle.pushing {hand : Handover R} (h : Cycle hand) (hpush : hand.Pushing) :
    (∃ stage, hand.trace = .sem_take stage) ∧ Told hand.push := by
  obtain ⟨φ, r, T, h⟩ := h
  have hlocate := h.locate
  rw [show hand.locate = .direction_correction_test1 from hpush] at hlocate
  have hφ : φ = .pushing := by
    revert hlocate
    cases φ <;> decide
  subst hφ
  refine ⟨?_, h.told rfl⟩
  rcases List.mem_pair.mp h.trace with htake | hwait
  · exact ⟨.take, htake⟩
  · exact ⟨.waiting, hwait⟩

omit [CFloat R] in
/-- The push task does not run while the tracing thread is elsewhere. -/
theorem Cycle.not_pushing {hand : Handover R} (h : Cycle hand)
    (htrace : ∀ stage, hand.trace ≠ .sem_take stage) : ¬ hand.Pushing := by
  intro hpush
  obtain ⟨⟨stage, hstage⟩, -⟩ := h.pushing hpush
  exact htrace stage hstage

end

end Car2025
