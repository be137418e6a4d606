/-
  When the car may move at all.

  1. **Parked (`CarMotion.Parked`)** — the switch is off, the speed record is zero, the wheels have
     neither target nor reference nor duty.

  2. **Starts (`Program.Starts`)** — the button, and the first step of the push task; nothing else turns
     the switch on, and nothing at all turns it off again.

  3. **Result (`started_iff`)** — the switch is on exactly after a start, and before the first start the
     car is parked, whatever frames, detections and bytes come in.
-/
import Mathlib
import Car2025.Whole.Sound

namespace Car2025

open Speed_Con_Right

/-! ## Parked -/

/-- The car is off and nothing is asked of the wheels.  With the switch off every command is
    dropped and no wheel is turned, so this state keeps itself. -/
structure CarMotion.Parked (m : CarMotion ℚ) : Prop where
  off : m.car.Car_BootSwitch = false
  speed : m.car.Car_Speed = ⟨0, 0, 0⟩
  wheels : m.Sound 0
  duty : ∀ w, (m.motors.motor w).duty = 0

theorem Car_Change_Speed_off {R : Type} (vx vy omega : R) {car : Car R}
    (h : car.Car_BootSwitch = false) : Car_Change_Speed vx vy omega car = car := by
  rw [Car_Change_Speed, h]
  rfl

/-- A car that is off can be given back, and no more. -/
theorem Car.Asked.off {car car' : Car ℚ} (h : car.Asked car') (hoff : car.Car_BootSwitch = false) :
    car'.Car_BootSwitch = false ∧ car'.Car_Speed = car.Car_Speed := by
  cases h with
  | kept => exact ⟨hoff, rfl⟩
  | changed vx vy omega =>
    rw [Car_Change_Speed_off _ _ _ hoff]
    exact ⟨hoff, rfl⟩
  | given => exact ⟨hoff, rfl⟩

/-- The tracing thread does not touch the switch. -/
theorem Car.Asked.BootSwitch {R : Type} [CFloat R] {car car' : Car R} (h : car.Asked car') :
    car'.Car_BootSwitch = car.Car_BootSwitch := by
  cases h with
  | kept => rfl
  | changed vx vy omega => exact Car_Change_Speed_BootSwitch vx vy omega car
  | given => rfl

/-- The car's thread leaves a parked car alone. -/
theorem CarMotion.Parked.entry {x : Attitude ℚ × CarMotion ℚ} (h : x.2.Parked) (r : Reading)
    (count : Wheel → ℤ) : (car_motion_entry r count x).2.Parked := by
  rw [car_motion_entry]
  dsimp only
  rw [if_neg (by rw [h.off]; exact Bool.false_ne_true)]
  exact ⟨h.off, h.speed, ⟨h.wheels.motor, h.wheels.forwards, h.wheels.yaw⟩, h.duty⟩

/-! ## Starts -/

/-- The car is switched on. -/
def Program.Starts (s : Program ℚ) (a : Program.Action ℚ) : Prop :=
  a = .button ∨ (∃ i, a = .locate_box i) ∧ s.hand.Pushing ∧ s.hand.push.pc = .start

namespace Program

variable {o : Outside} {s : Program ℚ}

theorem Traces.parked {s' : Program ℚ} (hs' : s.Traces s') (h : s.motion.Parked) :
    s'.motion.Parked := by
  obtain ⟨car, hm, hasked⟩ := hs'.asked
  obtain ⟨hoff, hspeed⟩ := hasked.off h.off
  rw [hm]
  exact ⟨hoff, hspeed.trans h.speed, h.wheels.setCar car, h.duty⟩

/-- While the car is off the push-box thread has not come past the start of its task. -/
theorem locate_parked (h : s.motion.Parked) (hsound : s.Sound) (i : PushInput)
    (hstart : ¬ s.Starts (.locate_box i)) :
    (s.act o (.locate_box i)).motion.Parked := by
  show (s.hand.locate_box_entry i).push.motion.Parked
  rw [Handover.locate_box_entry]
  cases hlocate : s.hand.locate with
  | sem_take stage => exact h
  | call =>
    dsimp only
    split <;> exact h
  | release => exact h
  | direction_correction_test1 =>
    have hheld := hsound.driven.held hlocate
    -- past its first step the task has switched the car on
    have hpc : s.hand.push.pc = .start := by
      by_contra hne
      exact Bool.noConfusion (h.off.symm.trans (hheld.on hne))
    exact absurd (Or.inr ⟨⟨i, rfl⟩, hlocate, hpc⟩) hstart

/-- **A step that is no start** leaves a parked car parked: commands are dropped while the switch
    is off, and the car's thread reads the yaw only. -/
theorem act_parked (h : s.motion.Parked) (hsound : s.Sound) {a : Action ℚ}
    (hstart : ¬ s.Starts a) : (s.act o a).motion.Parked := by
  cases a with
  | trace_line working c => exact (trace_line_entry_cases working c).parked h
  | locate_box i => exact locate_parked h hsound i hstart
  | car_motion r count => exact h.entry (x := (s.att, s.motion)) r count
  | mcx bytes | art bytes | image | clock ticks | CarStart => exact h
  | button => exact absurd (Or.inl rfl) hstart

/-- **Nothing turns the switch off**: of the steps of a run the only ones that touch it are the
    button and the first step of a push task, and both turn it on. -/
theorem act_on (h : s.motion.car.Car_BootSwitch = true) (a : Action ℚ) :
    (s.act o a).motion.car.Car_BootSwitch = true := by
  -- What else writes the car keeps the switch: the road line and the push ask for speeds, the
  -- loop sets duties.
  cases a with
  | trace_line working c =>
    obtain ⟨car, hm, hasked⟩ := (trace_line_entry_cases (o := o) (s := s) working c).asked
    show (s.trace_line_entry o working c).motion.car.Car_BootSwitch = true
    rw [hm]
    exact hasked.BootSwitch.trans h
  | locate_box i =>
    show (s.hand.locate_box_entry i).push.motion.car.Car_BootSwitch = true
    rw [Handover.locate_box_entry]
    cases s.hand.locate with
    | sem_take stage | release => exact h
    | call =>
      dsimp only
      split <;> exact h
    | direction_correction_test1 =>
      dsimp only
      split
      · exact h
      · exact PushBox.thread_on h i
  | car_motion r count =>
    show (car_motion_entry r count (s.att, s.motion)).2.car.Car_BootSwitch = true
    rw [car_motion_entry]
    dsimp only
    rw [if_pos h, car_motion_run_eq]
    exact h
  | mcx bytes | art bytes | image | clock ticks | CarStart => exact h
  | button => rfl

/-- **A start** turns it on: the button, or the first step of a push task. -/
theorem act_starts {a : Action ℚ} (hstart : s.Starts a) :
    (s.act o a).motion.car.Car_BootSwitch = true := by
  rcases hstart with rfl | ⟨⟨i, rfl⟩, hpush, hpc⟩
  · rfl
  · show (s.hand.locate_box_entry i).push.motion.car.Car_BootSwitch = true
    rw [Handover.locate_box_entry, show s.hand.locate = .direction_correction_test1 from hpush]
    dsimp only
    rw [if_neg (by rw [hpc]; decide), PushBox.thread, hpc]
    rfl

/-! ## Result -/

/-- After `car_motion_Init` the car is parked. -/
theorem start_parked (b : Boot ℚ) : b.start.motion.Parked := by
  obtain ⟨hwheels, -⟩ := car_motion_Init_started_sound b.samples b.turns
  exact ⟨rfl, rfl, hwheels, fun _ => rfl⟩

/-- After every run the car is on or parked. -/
theorem run_on_or_parked (b : Boot ℚ) (as : List (Action ℚ)) :
    (b.start.run o as).motion.car.Car_BootSwitch = true ∨ (b.start.run o as).motion.Parked := by
  induction as using List.reverseRecOn with
  | nil => exact Or.inr (start_parked b)
  | append_singleton as a ih =>
    rw [run_concat]
    -- what is on stays on; what is parked stays so until a start
    rcases ih with hon | hparked
    · exact Or.inl (act_on hon a)
    · by_cases hstarts : (b.start.run o as).Starts a
      · exact Or.inl (act_starts hstarts)
      · exact Or.inr (act_parked hparked (run_sound b as) hstarts)

/-- **Starts** — after every run the switch is on exactly if the button was pressed or a push task
    began, and otherwise the car is parked. -/
theorem started_iff (o : Outside) (b : Boot ℚ) (as : List (Action ℚ)) :
    ((b.start.run o as).motion.car.Car_BootSwitch = true ↔
      ∃ pre a, pre ++ [a] <+: as ∧ (b.start.run o pre).Starts a) ∧
    ((b.start.run o as).motion.car.Car_BootSwitch = true ∨ (b.start.run o as).motion.Parked) := by
  refine ⟨?_, run_on_or_parked b as⟩
  induction as using List.reverseRecOn with
  | nil =>
    -- `car_motion_Init` leaves the switch off, and nothing has happened
    refine iff_of_false Bool.false_ne_true ?_
    rintro ⟨pre, a, hpre, -⟩
    exact List.append_ne_nil_of_right_ne_nil _ (List.cons_ne_nil _ _) (List.prefix_nil.mp hpre)
  | append_singleton as a ih =>
    have hexists : (∃ pre a', pre ++ [a'] <+: as ++ [a] ∧ (b.start.run o pre).Starts a') ↔
        (∃ pre a', pre ++ [a'] <+: as ∧ (b.start.run o pre).Starts a') ∨
          (b.start.run o as).Starts a := by
      constructor
      · rintro ⟨pre, a', hpre, hstarts⟩
        rcases List.prefix_concat_iff.mp hpre with heq | hpre
        · obtain ⟨rfl, ha⟩ := List.append_inj' heq rfl
          obtain rfl : a' = a := List.singleton_injective ha
          exact Or.inr hstarts
        · exact Or.inl ⟨pre, a', hpre, hstarts⟩
      · rintro (⟨pre, a', hpre, hstarts⟩ | hstarts)
        · exact ⟨pre, a', hpre.trans (List.prefix_append as [a]), hstarts⟩
        · exact ⟨as, a, List.prefix_refl _, hstarts⟩
    rw [hexists, ← ih, run_concat]
    by_cases hstarts : (b.start.run o as).Starts a
    · exact iff_of_true (act_starts hstarts) (Or.inr hstarts)
    · rw [or_iff_left hstarts]
      rcases run_on_or_parked (o := o) b as with hon | hparked
      · exact iff_of_true (act_on hon a) hon
      · have hstays := act_parked (o := o) hparked (run_sound b as) hstarts
        rw [hstays.off, hparked.off]

end Program

end Car2025
