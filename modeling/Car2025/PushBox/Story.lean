/-
  What one run of the push task does, whatever the interrupts bring.

  1. **Chapters (`Chapter`)** — the task looks for the picture, lines up, classifies, goes around,
     pushes.  A chapter says where in the program the task can be, what it has done so far and which
     side it has chosen.

  2. **Story (`Story`)** — a state is in a chapter.  Interrupts stay in it (`Story.interrupt`), and a
     step of the task stays in it or goes on to the next (`Told.thread`).

  3. **The end (`push_returns`)** — when the task returns it has told the whole story.
-/
import Mathlib
import Car2025.PushBox.Program

namespace Car2025

open Speed_Con_Right Angle_State MCX_Current_Mode

/-! ## Chapters -/

/-- How far the task is. -/
inductive Chapter where
  | seeking
  | aligning
  | classifying
  | circling
  | pushing
  | pushed
  | finished
  deriving DecidableEq, Repr

namespace Chapter

/-- The steps outside the branches of the switch, but for the last one. -/
def outside : List Pc := [.loop, .image, .verdict, .clearImage, .flag, .clearFlag, .delay]

/-- Where the task can be. -/
def pcs : Chapter → List Pc
  | seeking => [.start, .right, .seek, .seekX] ++ outside
  | aligning => [.angle, .angleX, .angleY, .angleStop, .angleState] ++ outside
  | classifying =>
    [.dataClear, .wait, .first, .firstClear, .vote, .poll, .compare, .reload, .voted, .add]
  | circling => [.addClear, .location, .shouldPush] ++ outside
  | pushing => [.locationStop, .rotate0, .push, .pushX, .ahead] ++ outside
  | pushed => [.low, .high, .pushStop, .back, .backStop, .rotate, .reset, .finish]
  | finished => [.clearFlag, .delay, .loop, .done]

def angle_state : Chapter → Angle_State
  | seeking => zero
  | aligning => Angle_Correct
  | classifying => Location_Correct
  | circling => Location_Correct
  | pushing => Push_Box
  | pushed => Push_Box
  | finished => Push_Box

/-- What it has done, the newest first, when `c` is the class it adds and `d` the side it is given
    for it. -/
def log (c d : UInt8) : Chapter → List PushEvent
  | seeking => []
  | aligning => [.angle_state Angle_Correct]
  | classifying => [.angle_state Location_Correct, .angle_state Angle_Correct]
  | circling => [.Class_Add c d, .angle_state Location_Correct, .angle_state Angle_Correct]
  | pushing =>
    [.angle_state Push_Box, .Class_Add c d, .angle_state Location_Correct,
      .angle_state Angle_Correct]
  | pushed | finished =>
    [.push_box d, .angle_state Push_Box, .Class_Add c d, .angle_state Location_Correct,
      .angle_state Angle_Correct]

/-- The side has been chosen. -/
def sided : Chapter → Bool
  | seeking => false
  | aligning => false
  | classifying => false
  | _ => true

end Chapter

section

variable {R : Type} {s s' : PushBox R} {φ : Chapter} {c d : UInt8}

/-- The state is in this chapter: the place, `angle_state` and all that the task has done so far
    are those of the chapter, with the class `c` and the side `d`.  `finish_flag` is up in the last
    chapter alone, and there the camera has been reset and the tracing code has its right back. -/
structure Story (s : PushBox R) (φ : Chapter) (c d : UInt8) : Prop where
  pc : s.pc ∈ φ.pcs
  angle_state : s.angle_state = φ.angle_state
  log : s.log = φ.log c d
  side : φ.sided = true → s.l_or_r = d
  finish : s.finish_flag = true ↔ φ = .finished
  reset : s.pc = .finish ∨ φ = .finished → s.mcx.mcxCurrent_Mode = Reset_Mode
  right : φ = .finished → s.motion.car.Car_Speed_ConRight = Con_By_TraceLine

/-- The state is in some chapter. -/
def Told (s : PushBox R) : Prop := ∃ φ c d, Story s φ c d

/-- A step within a chapter that has not come to its end: it goes to another place of the chapter
    and writes none of the rest. -/
theorem Story.stay (h : Story s φ c d) (hφ : φ ≠ .finished) (pc : Pc)
    (hin : pc ∈ φ.pcs ∧ pc ≠ .finish) (hpc : s'.pc = pc) (ha : s'.angle_state = s.angle_state)
    (hl : s'.log = s.log) (hd : s'.l_or_r = s.l_or_r) (hf : s'.finish_flag = s.finish_flag) :
    Told s' := by
  refine ⟨φ, c, d, ?_, ha.trans h.angle_state, hl.trans h.log, fun hs => hd.trans (h.side hs), ?_,
    fun hor => ?_, fun hfin => absurd hfin hφ⟩
  · rw [hpc]
    exact hin.1
  · rw [hf, h.finish]
  · rcases hor with hfin | hfin
    · exact absurd (hpc.symm.trans hfin) hin.2
    · exact absurd hfin hφ

/-- A step after the end, of which there are only those up to the head of the loop. -/
theorem Story.over (h : Story s .finished c d) (pc : Pc) (hin : pc ∈ Chapter.finished.pcs)
    (hpc : s'.pc = pc) (ha : s'.angle_state = s.angle_state) (hl : s'.log = s.log)
    (hd : s'.l_or_r = s.l_or_r) (hf : s'.finish_flag = s.finish_flag)
    (hm : s'.mcx.mcxCurrent_Mode = s.mcx.mcxCurrent_Mode)
    (hr : s'.motion.car.Car_Speed_ConRight = s.motion.car.Car_Speed_ConRight) : Told s' := by
  refine ⟨.finished, c, d, ?_, ha.trans h.angle_state, hl.trans h.log,
    fun hs => hd.trans (h.side hs), ?_, fun _ => hm.trans (h.reset (Or.inr rfl)),
    fun _ => hr.trans (h.right rfl)⟩
  · rw [hpc]
    exact hin
  · rw [hf, h.finish]

/-- A task that has returned is in the last chapter. -/
theorem Told.finished_of_done (h : Told s) (hdone : s.pc = .done) :
    ∃ c d, Story s .finished c d := by
  obtain ⟨φ, c, d, h⟩ := h
  have hpc := h.pc
  rw [hdone] at hpc
  obtain rfl : φ = .finished := by
    revert hpc
    cases φ <;> decide
  exact ⟨c, d, h⟩

theorem Told.reset_of_done (h : Told s) (hdone : s.pc = .done) :
    s.mcx.mcxCurrent_Mode = Reset_Mode := by
  obtain ⟨c, d, h⟩ := h.finished_of_done hdone
  exact h.reset (Or.inr rfl)

/-- A choice of the program. -/
theorem Told.ite {p : Prop} [Decidable p] {a b : PushBox R} (ha : p → Told a) (hb : ¬ p → Told b) :
    Told (if p then a else b) :=
  iteInduction (motive := Told) ha hb

/-- An assignment to `angle_state` opens the next chapter; the log of a chapter is the one of the
    chapter before with this assignment on top. -/
theorem Story.turn (h : Story s φ c d) {ψ : Chapter} {a : Angle_State} {pc : Pc}
    (hφ : φ ≠ .finished) (hψ : ψ ≠ .finished) (hin : pc ∈ ψ.pcs ∧ pc ≠ .finish)
    (ha : a = ψ.angle_state) (hl : ψ.log c d = .angle_state a :: φ.log c d)
    (hd : ψ.sided = true → φ.sided = true) : Told (s.turn a pc) := by
  refine ⟨ψ, c, d, hin.1, ha, ?_, fun hs => h.side (hd hs), ?_, fun hor => ?_,
    fun hfin => absurd hfin hψ⟩
  · show PushEvent.angle_state a :: s.log = _
    rw [hl, h.log]
  · show s.finish_flag = true ↔ _
    rw [h.finish]
    exact iff_of_false hφ hψ
  · exact (hor.elim hin.2 hψ).elim

theorem PushBox.enter_story (s : PushBox R) : Story s.enter .seeking 0 0 where
  pc := show Pc.start ∈ Chapter.seeking.pcs by decide
  angle_state := rfl
  log := rfl
  side := fun h => absurd h Bool.false_ne_true
  finish := iff_of_false Bool.false_ne_true (by decide)
  reset := fun h => absurd h (show ¬ (Pc.start = .finish ∨ _) by decide)
  right := fun h => absurd h (by decide)

variable [CFloat R]

/-! ## Interrupts -/

/-- **What is no step of the task** leaves it where it is: what the camera sends does not change
    its mode, nor the control period the control right. -/
theorem Story.interrupt (h : Story s φ c d) (a : PushBox.Action R) (ha : ∀ i, a ≠ .thread i) :
    Story (s.act a) φ c d := by
  cases a with
  | thread i => exact absurd rfl (ha i)
  | mcx bytes =>
    refine ⟨h.pc, h.angle_state, h.log, h.side, h.finish, fun hor => ?_, h.right⟩
    exact (MCX.feed_mode bytes s.mcx).trans (h.reset hor)
  | art bytes => exact ⟨h.pc, h.angle_state, h.log, h.side, h.finish, h.reset, h.right⟩
  | image => exact ⟨h.pc, h.angle_state, h.log, h.side, h.finish, h.reset, h.right⟩
  | attitude yaw => exact ⟨h.pc, h.angle_state, h.log, h.side, h.finish, h.reset, h.right⟩
  | motion count =>
    show Story (if s.motion.car.Car_BootSwitch then _ else s) φ c d
    split
    · refine ⟨h.pc, h.angle_state, h.log, h.side, h.finish, h.reset, fun hfin => ?_⟩
      exact (car_motion_run_ConRight count s.motion).trans (h.right hfin)
    · exact h

/-! ## Steps of the task -/

/-- **Outside the branches** a chapter that is not finished goes on to the branch of its own, as
    the switch looks at the `angle_state` that the chapter fixes. -/
theorem Story.outside (h : Story s φ c d) (i : PushInput) (hφ : φ ≠ .finished)
    (hpcs : ∀ pc ∈ Chapter.outside, pc ∈ φ.pcs ∧ pc ≠ .finish)
    (hbranch : s.branch ∈ φ.pcs ∧ s.branch ≠ .finish) (hpc : s.pc ∈ Chapter.outside) :
    Told (s.thread i) := by
  have hfin : ¬ s.finish_flag = true := fun hf => hφ (h.finish.mp hf)
  have hgoto : ∀ pc ∈ Chapter.outside, Told (s.goto pc) := fun pc hpc =>
    h.stay hφ pc (hpcs pc hpc) rfl rfl rfl rfl rfl
  obtain ⟨pc, _, _, _, _, _, _, _, _, _, _, _, _, _, _⟩ := s
  simp only [Chapter.outside, List.mem_cons, List.not_mem_nil, or_false] at hpc
  rcases hpc with rfl | rfl | rfl | rfl | rfl | rfl | rfl
  · -- loop
    exact Told.ite (fun hf => absurd hf hfin) fun _ =>
      h.stay hφ .image (hpcs _ (by decide)) rfl rfl rfl rfl rfl
  · -- image
    exact Told.ite (fun _ => hgoto .verdict (by decide)) fun _ => hgoto .flag (by decide)
  · -- verdict
    exact h.stay hφ .clearImage (hpcs _ (by decide)) rfl rfl rfl rfl rfl
  · -- clearImage
    exact h.stay hφ .flag (hpcs _ (by decide)) rfl rfl rfl rfl rfl
  · -- flag
    exact Told.ite (fun _ => h.stay hφ _ hbranch rfl rfl rfl rfl rfl) fun _ =>
      hgoto .delay (by decide)
  · -- clearFlag
    exact h.stay hφ .delay (hpcs _ (by decide)) rfl rfl rfl rfl rfl
  · -- delay
    exact hgoto .loop (by decide)

/-- **Seeking**: a pass ends at the flag of the report, or goes over to the aligning. -/
theorem Story.seeking (h : Story s .seeking c d) (i : PushInput) : Told (s.thread i) := by
  have hφ : Chapter.seeking ≠ .finished := by decide
  have hbranch : s.branch = .seek := by rw [PushBox.branch, h.angle_state]; rfl
  rcases List.mem_append.mp h.pc with hpc | hpc
  · obtain ⟨pc, _, _, _, _, _, _, _, _, _, _, _, _, _, _⟩ := s
    simp only [List.mem_cons, List.not_mem_nil, or_false] at hpc
    rcases hpc with rfl | rfl | rfl | rfl
    · -- start
      exact h.stay hφ .right (by decide) rfl rfl rfl rfl rfl
    · -- right
      exact h.stay hφ .loop (by decide) rfl rfl rfl rfl rfl
    · -- seek
      exact h.stay hφ .seekX (by decide) rfl rfl rfl rfl rfl
    · -- seekX
      exact Told.ite (fun _ => h.turn (ψ := .aligning) hφ (by decide) (by decide) rfl rfl id)
        fun _ => h.stay hφ .clearFlag (by decide) rfl rfl rfl rfl rfl
  · exact h.outside i hφ (by decide) (by rw [hbranch]; decide) hpc

/-- **Aligning**: only its last place assigns `angle_state`; a correction that is not done ends the
    pass. -/
theorem Story.aligning (h : Story s .aligning c d) (i : PushInput) : Told (s.thread i) := by
  have hφ : Chapter.aligning ≠ .finished := by decide
  have hbranch : s.branch = .angle := by rw [PushBox.branch, h.angle_state]; rfl
  rcases List.mem_append.mp h.pc with hpc | hpc
  · obtain ⟨pc, _, _, _, _, _, _, _, _, _, _, _, _, _, _⟩ := s
    simp only [List.mem_cons, List.not_mem_nil, or_false] at hpc
    rcases hpc with rfl | rfl | rfl | rfl | rfl
    · -- angle
      exact h.stay hφ .angleX (by decide) rfl rfl rfl rfl rfl
    · -- angleX
      exact Told.ite (fun _ => h.stay hφ .angleY (by decide) rfl rfl rfl rfl rfl)
        fun _ => h.stay hφ .clearFlag (by decide) rfl rfl rfl rfl rfl
    · -- angleY
      exact Told.ite (fun _ => h.stay hφ .angleStop (by decide) rfl rfl rfl rfl rfl)
        fun _ => h.stay hφ .clearFlag (by decide) rfl rfl rfl rfl rfl
    · -- angleStop
      exact h.stay hφ .angleState (by decide) rfl rfl rfl rfl rfl
    · -- angleState
      exact h.turn (ψ := .classifying) hφ (by decide) (by decide) rfl rfl id
  · exact h.outside i hφ (by decide) (by rw [hbranch]; decide) hpc

/-- **Classifying**: the two waits and the vote stay in the chapter; the call of `Class_Add` ends
    it, and fixes the class and the side for the chapters to come. -/
theorem Story.classifying (h : Story s .classifying c d) (i : PushInput) : Told (s.thread i) := by
  have hφ : Chapter.classifying ≠ .finished := by decide
  have hpc := h.pc
  have hlog := h.log
  have hfin : ¬ s.finish_flag = true := fun hf => hφ (h.finish.mp hf)
  obtain ⟨pc, _, _, _, _, _, _, _, _, _, _, _, _, _, _⟩ := s
  simp only [Chapter.pcs, List.mem_cons, List.not_mem_nil, or_false] at hpc
  rcases hpc with rfl | rfl | rfl | rfl | rfl | rfl | rfl | rfl | rfl | rfl
  · -- dataClear
    exact h.stay hφ .wait (by decide) rfl rfl rfl rfl rfl
  · -- wait
    exact Told.ite (fun _ => h.stay hφ .wait (by decide) rfl rfl rfl rfl rfl)
      fun _ => h.stay hφ .first (by decide) rfl rfl rfl rfl rfl
  · -- first
    exact h.stay hφ .firstClear (by decide) rfl rfl rfl rfl rfl
  · -- firstClear
    exact h.stay hφ .vote (by decide) rfl rfl rfl rfl rfl
  · -- vote
    exact Told.ite (fun _ => h.stay hφ .poll (by decide) rfl rfl rfl rfl rfl)
      fun _ => h.stay hφ .add (by decide) rfl rfl rfl rfl rfl
  · -- poll
    exact Told.ite (fun _ => h.stay hφ .compare (by decide) rfl rfl rfl rfl rfl)
      fun _ => h.stay hφ .vote (by decide) rfl rfl rfl rfl rfl
  · -- compare
    exact Told.ite (fun _ => h.stay hφ .voted (by decide) rfl rfl rfl rfl rfl)
      fun _ => h.stay hφ .reload (by decide) rfl rfl rfl rfl rfl
  · -- reload
    exact h.stay hφ .voted (by decide) rfl rfl rfl rfl rfl
  · -- voted
    exact Told.ite (fun _ => h.stay hφ .vote (by decide) rfl rfl rfl rfl rfl)
      fun _ => h.stay hφ .vote (by decide) rfl rfl rfl rfl rfl
  · -- add: the class and the side of the rest of the story
    exact ⟨.circling, _, _, show Pc.addClear ∈ Chapter.circling.pcs by decide, h.angle_state,
      congrArg (List.cons _) hlog, fun _ => rfl, iff_of_false hfin (by decide),
      fun hor => absurd hor (show ¬ (Pc.addClear = .finish ∨ _) by decide),
      fun hfin => absurd hfin (by decide)⟩

/-- **Circling**: a pass ends at the flag of the report, or goes over to the push where
    `ShouldPush` is set. -/
theorem Story.circling (h : Story s .circling c d) (i : PushInput) : Told (s.thread i) := by
  have hφ : Chapter.circling ≠ .finished := by decide
  have hbranch : s.branch = .location := by rw [PushBox.branch, h.angle_state]; rfl
  rcases List.mem_append.mp h.pc with hpc | hpc
  · obtain ⟨pc, _, _, _, _, _, _, _, _, _, _, _, _, _, _⟩ := s
    simp only [List.mem_cons, List.not_mem_nil, or_false] at hpc
    rcases hpc with rfl | rfl | rfl
    · -- addClear
      exact h.stay hφ .clearFlag (by decide) rfl rfl rfl rfl rfl
    · -- location
      exact h.stay hφ .shouldPush (by decide) rfl rfl rfl rfl rfl
    · -- shouldPush
      exact Told.ite (fun _ => h.turn (ψ := .pushing) hφ (by decide) (by decide) rfl rfl id)
        fun _ => h.stay hφ .clearFlag (by decide) rfl rfl rfl rfl rfl
  · exact h.outside i hφ (by decide) (by rw [hbranch]; decide) hpc

/-- **Pushing**: the car is brought in front of the box; the call of `push_box` ends the chapter,
    with the side that was chosen for the class. -/
theorem Story.pushing (h : Story s .pushing c d) (i : PushInput) : Told (s.thread i) := by
  have hφ : Chapter.pushing ≠ .finished := by decide
  have hbranch : s.branch = .push := by rw [PushBox.branch, h.angle_state]; rfl
  rcases List.mem_append.mp h.pc with hpc | hpc
  · have hlog := h.log
    have hside := h.side rfl
    have hfin : ¬ s.finish_flag = true := fun hf => hφ (h.finish.mp hf)
    obtain ⟨pc, _, _, _, l_or_r, _, _, _, _, _, _, _, _, _, _⟩ := s
    simp only [List.mem_cons, List.not_mem_nil, or_false] at hpc
    rcases hpc with rfl | rfl | rfl | rfl | rfl
    · -- locationStop
      exact h.stay hφ .rotate0 (by decide) rfl rfl rfl rfl rfl
    · -- rotate0
      exact h.stay hφ .clearFlag (by decide) rfl rfl rfl rfl rfl
    · -- push
      exact h.stay hφ .pushX (by decide) rfl rfl rfl rfl rfl
    · -- pushX
      exact Told.ite (fun _ => h.stay hφ .ahead (by decide) rfl rfl rfl rfl rfl)
        fun _ => h.stay hφ .clearFlag (by decide) rfl rfl rfl rfl rfl
    · -- ahead: `push_box` is called with the side that was chosen
      obtain rfl : l_or_r = d := hside
      exact ⟨.pushed, c, l_or_r, show Pc.low ∈ Chapter.pushed.pcs by decide, h.angle_state,
        congrArg (List.cons _) hlog, fun _ => rfl, iff_of_false hfin (by decide),
        fun hor => absurd hor (show ¬ (Pc.low = .finish ∨ _) by decide),
        fun hfin => absurd hfin (by decide)⟩
  · exact h.outside i hφ (by decide) (by rw [hbranch]; decide) hpc

/-- **Pushed**: the camera is reset before the flag of the end is raised. -/
theorem Story.pushed (h : Story s .pushed c d) (i : PushInput) : Told (s.thread i) := by
  have hφ : Chapter.pushed ≠ .finished := by decide
  have hpc := h.pc
  have hfin : ¬ s.finish_flag = true := fun hf => hφ (h.finish.mp hf)
  have hreset := h.reset
  obtain ⟨pc, _, _, _, _, _, _, _, _, _, _, _, _, _, _⟩ := s
  simp only [Chapter.pcs, List.mem_cons, List.not_mem_nil, or_false] at hpc
  rcases hpc with rfl | rfl | rfl | rfl | rfl | rfl | rfl | rfl
  · -- low
    exact Told.ite (fun _ => h.stay hφ .low (by decide) rfl rfl rfl rfl rfl)
      fun _ => h.stay hφ .high (by decide) rfl rfl rfl rfl rfl
  · -- high
    exact Told.ite (fun _ => h.stay hφ .high (by decide) rfl rfl rfl rfl rfl)
      fun _ => h.stay hφ .pushStop (by decide) rfl rfl rfl rfl rfl
  · -- pushStop
    exact h.stay hφ .back (by decide) rfl rfl rfl rfl rfl
  · -- back
    exact h.stay hφ .backStop (by decide) rfl rfl rfl rfl rfl
  · -- backStop
    exact h.stay hφ .rotate (by decide) rfl rfl rfl rfl rfl
  · -- rotate
    exact h.stay hφ .reset (by decide) rfl rfl rfl rfl rfl
  · -- reset
    exact ⟨.pushed, c, d, show Pc.finish ∈ Chapter.pushed.pcs by decide, h.angle_state, h.log,
      h.side, h.finish, fun _ => rfl, fun hfin => absurd hfin hφ⟩
  · -- finish: only now, after the last `Car_Rotate`, the control right goes back
    exact ⟨.finished, c, d, show Pc.clearFlag ∈ Chapter.finished.pcs by decide, h.angle_state,
      h.log, h.side, iff_of_true rfl rfl, fun _ => hreset (Or.inl rfl), fun _ => rfl⟩

/-- **Finished**: what is left is the way to the head of the loop, where the flag is read. -/
theorem Story.finished (h : Story s .finished c d) (i : PushInput) : Told (s.thread i) := by
  have hpc := h.pc
  have hfin : s.finish_flag = true := h.finish.mpr rfl
  obtain ⟨pc, _, _, _, _, _, _, _, _, _, _, _, _, _, _⟩ := s
  simp only [Chapter.pcs, List.mem_cons, List.not_mem_nil, or_false] at hpc
  rcases hpc with rfl | rfl | rfl | rfl
  · -- clearFlag
    exact h.over .delay (by decide) rfl rfl rfl rfl rfl rfl rfl
  · -- delay
    exact h.over .loop (by decide) rfl rfl rfl rfl rfl rfl rfl
  · -- loop
    exact Told.ite (fun _ => h.over .done (by decide) rfl rfl rfl rfl rfl rfl rfl)
      fun hf => absurd hfin hf
  · -- done
    exact ⟨.finished, c, d, h⟩

/-- **One step of the task**, chapter by chapter: it stays in the chapter, or it opens the one that
    follows. -/
theorem Told.thread (h : Told s) (i : PushInput) : Told (s.thread i) := by
  obtain ⟨φ, c, d, h⟩ := h
  cases φ with
  | seeking => exact h.seeking i
  | aligning => exact h.aligning i
  | classifying => exact h.classifying i
  | circling => exact h.circling i
  | pushing => exact h.pushing i
  | pushed => exact h.pushed i
  | finished => exact h.finished i

theorem Told.act (h : Told s) (a : PushBox.Action R) : Told (s.act a) := by
  by_cases ha : ∃ i, a = .thread i
  · obtain ⟨i, rfl⟩ := ha
    exact h.thread i
  · obtain ⟨φ, c, d, h⟩ := h
    exact ⟨φ, c, d, h.interrupt a fun i hi => ha ⟨i, hi⟩⟩

/-! ## The end -/

/-- **Every run tells the story**, by induction on the run.  That the task adds once, pushes once
    and goes through its states in order is then only read off the logs of the chapters. -/
theorem Told.run (as : List (PushBox.Action R)) : ∀ {s : PushBox R}, Told s → Told (s.run as) := by
  induction as with
  | nil =>
    intro s h
    exact h
  | cons a as ih =>
    intro s h
    exact ih (h.act a)

theorem PushBox.enter_told (s : PushBox R) (as : List (PushBox.Action R)) : Told (s.enter.run as) :=
  Told.run as ⟨_, _, _, s.enter_story⟩

/-- **The task returns** having added one class, pushed once, later and to the side that it was
    given for the class, and gone through its states in order; the tracing code has its control
    right back, and the camera is reset. -/
theorem push_returns (s : PushBox R) (as : List (PushBox.Action R))
    (hdone : (s.enter.run as).pc = .done) :
    (∃ c d, (s.enter.run as).log.reverse =
      [.angle_state Angle_Correct, .angle_state Location_Correct, .Class_Add c d,
        .angle_state Push_Box, .push_box d]) ∧
    (s.enter.run as).motion.car.Car_Speed_ConRight = Con_By_TraceLine ∧
    (s.enter.run as).mcx.mcxCurrent_Mode = Reset_Mode := by
  obtain ⟨c, d, h⟩ := (s.enter_told as).finished_of_done hdone
  refine ⟨⟨c, d, ?_⟩, h.right rfl, h.reset (Or.inr rfl)⟩
  rw [h.log]
  rfl

end

/-! ## A run that returns -/

/-- The car after its initialisation, with no task. -/
def PushBox.parked : PushBox ℚ where
  pc := .done
  angle_state := zero
  finish_flag := false
  ShouldPush := false
  l_or_r := 0
  tick := 0
  Class := 0
  gpio_tick := 0
  mcx := MCX.start
  art := Art.start
  mt9v03x_finish_flag := false
  motion := car_motion_Init CarMotion.zero
  data := ⟨Pos_PID_t.zero, Pos_PID_t.zero, Pos_PID_t.zero⟩
  classes := ⟨fun _ => ⟨0, .Class_Num, 0, false⟩, 0⟩
  log := []

namespace PushBox.Action

/-- `n` steps of the task, with the level of the pin. -/
def steps (n : ℕ) (gpio : Bool) : List (PushBox.Action ℚ) :=
  List.replicate n (thread ⟨true, gpio, 0⟩)

/-- A report of a picture in the centre, and one of a wrench. -/
def centred : PushBox.Action ℚ := mcx [BUFFER_HEAD, 1, 0, 160, 0, 120, BUFFER_TAIL]
def wrench : PushBox.Action ℚ := art (Art.frame Class_Wrench)

/-- The task finds a wrench in front of it and pushes it away. -/
def pushWrench : List (PushBox.Action ℚ) :=
  centred :: steps 9 false ++ centred :: steps 13 false ++
    wrench :: steps 5 false ++ wrench :: steps 4 false ++ wrench :: steps 4 false ++
    wrench :: steps 8 false ++ image :: centred :: steps 10 false ++
    centred :: steps 18 false ++ steps 22 true

end PushBox.Action

open PushBox PushBox.Action

theorem push_returns_wrench :
    (∃ c d, (parked.enter.run pushWrench).log.reverse =
      [.angle_state Angle_Correct, .angle_state Location_Correct, .Class_Add c d,
        .angle_state Push_Box, .push_box d]) ∧
    (parked.enter.run pushWrench).motion.car.Car_Speed_ConRight = Con_By_TraceLine ∧
    (parked.enter.run pushWrench).mcx.mcxCurrent_Mode = Reset_Mode :=
  push_returns parked pushWrench (by decide +kernel)

end Car2025
