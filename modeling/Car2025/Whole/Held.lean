/-
  What the push task asks of the car.

  1. **Turning (`PushBox.Turning`)** — the angle loop has the control right from the `Car_Rotate` after
     the task has gone around the picture until the task has pushed it away.

  2. **Steps that leave the car (`PushBox.thread_quiet`)** — a lemma for each kind of them: tests, the
     loop, the classification, the changes of `angle_state`, and the pin of `push_box`.

  3. **Held (`Held.thread`)** — every step of the task keeps the speed record within bounds and leaves
     the car, when it returns, as the tracing code may find it.  Where the speed bound changes is where the
     control right does: before the turn a command sets all three components, and during it the turning
     speed is the angle loop's, whose limit is 300.
-/
import Mathlib
import Car2025.Envelope
import Car2025.PushBox.Push
import Car2025.Whole.Frame
import Car2025.PushBox.Story

namespace Car2025

open Speed_Con_Right Angle_State

/-! ## Turning -/

section

variable {R : Type}

/-- The task has given the control right to the angle loop and not taken it back. -/
def PushBox.Turning (s : PushBox R) : Prop :=
  s.angle_state = Push_Box ∧ s.finish_flag = false ∧ s.pc ≠ .locationStop ∧ s.pc ≠ .rotate0

/-- It has stopped after the push for the last time. -/
def PushBox.Last (s : PushBox R) : Prop := s.pc ∈ [.rotate, .reset, .finish] ∨ s.finish_flag = true

/-- What a place in the program tells of the chapter: where all chapters with this place agree, the
    state is known. -/
theorem Told.angle_state {s : PushBox R} (h : Told s) {pc : Pc} (hpc : s.pc = pc) {a : Angle_State}
    (ha : ∀ φ : Chapter, pc ∈ φ.pcs → φ.angle_state = a) : s.angle_state = a := by
  obtain ⟨φ, c, d, h⟩ := h
  exact h.angle_state.trans (ha φ (hpc ▸ h.pc))

theorem Told.finish_flag {s : PushBox R} (h : Told s) {pc : Pc} (hpc : s.pc = pc)
    (ha : ∀ φ : Chapter, pc ∈ φ.pcs → φ ≠ .finished) : s.finish_flag = false := by
  obtain ⟨φ, c, d, h⟩ := h
  rw [← Bool.not_eq_true, h.finish]
  exact ha φ (hpc ▸ h.pc)

/-- What some places in the program tell of the chapter. -/
theorem Told.chapter {s : PushBox R} (h : Told s) {pcs : List Pc} (hpc : s.pc ∈ pcs)
    {P : Angle_State → Prop}
    (hφ : ∀ φ : Chapter, ∀ pc ∈ pcs, pc ∈ φ.pcs → P φ.angle_state ∧ φ ≠ .finished) :
    P s.angle_state ∧ s.finish_flag = false := by
  obtain ⟨φ, c, d, h⟩ := h
  obtain ⟨ha, hfin⟩ := hφ φ _ hpc h.pc
  refine ⟨h.angle_state ▸ ha, ?_⟩
  rw [← Bool.not_eq_true, h.finish]
  exact hfin

/-- Nothing is turned before the state is `Push_Box`. -/
theorem PushBox.not_turning {s : PushBox R} (h : s.angle_state ≠ Push_Box) : ¬ s.Turning :=
  fun ht => h ht.1

theorem PushBox.not_last {s : PushBox R} (p : Pc) (hpc : s.pc = p)
    (hp : p ∉ [Pc.rotate, .reset, .finish]) (hf : s.finish_flag = false) : ¬ s.Last := by
  rintro (hl | hl)
  · exact hp (hpc ▸ hl)
  · exact Bool.noConfusion (hf.symm.trans hl)

/-- What turning and the last stop depend on.  This is all that the invariant `Held` reads of the task
    beside the car and the controllers, so a step that keeps it and them keeps `Held`. -/
structure PushBox.SameTurn (s s' : PushBox R) : Prop where
  turning : s'.Turning ↔ s.Turning
  last : s'.Last → s.Last
  pc : s'.pc ∉ [Pc.start, .rotate0]

/-- A step between two places where the right does not change hands, with the state and the flag as
    they were. -/
theorem PushBox.SameTurn.of_pc {s s' : PushBox R} (ha : s'.angle_state = s.angle_state)
    (hf : s'.finish_flag = s.finish_flag) (hpc : s.pc ∉ [Pc.locationStop, .rotate0])
    (hpc' : s'.pc ∉ [Pc.locationStop, .rotate0, .rotate, .reset, .finish, .start]) :
    SameTurn s s' := by
  simp only [List.mem_cons, List.not_mem_nil, or_false, not_or] at hpc hpc'
  obtain ⟨h1, h2, h3, h4, h5, h6⟩ := hpc'
  refine ⟨?_, fun hlast => ?_, by simp [h2, h6]⟩
  · rw [Turning, Turning, ha, hf]
    simp only [ne_eq, h1, h2, hpc.1, hpc.2]
  · rcases hlast with hlast | hlast
    · simp only [List.mem_cons, List.not_mem_nil, or_false, h3, h4, h5] at hlast
    · exact Or.inr (hf ▸ hlast)

/-- Before the task has gone around the picture nothing is turned. -/
theorem PushBox.SameTurn.of_before {s s' : PushBox R} (ha : s.angle_state ≠ Push_Box)
    (ha' : s'.angle_state ≠ Push_Box) (hf : s'.finish_flag = s.finish_flag)
    (hpc' : s'.pc ∉ [Pc.rotate, .reset, .finish, .start, .rotate0]) : SameTurn s s' := by
  simp only [List.mem_cons, List.not_mem_nil, or_false, not_or] at hpc'
  obtain ⟨h3, h4, h5, h6, h7⟩ := hpc'
  refine ⟨iff_of_false (not_turning ha') (not_turning ha), fun hlast => ?_, by simp [h6, h7]⟩
  rcases hlast with hlast | hlast
  · simp only [List.mem_cons, List.not_mem_nil, or_false, h3, h4, h5] at hlast
  · exact Or.inr (hf ▸ hlast)

end

/-! ## Steps that leave the car -/

/-- The steps at which the task commands the car. -/
def PushBox.commands : List Pc :=
  [.start, .right, .seek, .angle, .angleStop, .location, .locationStop, .rotate0, .push, .ahead,
    .pushStop, .back, .backStop, .rotate, .finish]

section

variable {R : Type}

/-- What such a step leaves: the car, the controllers, and who has the control right.  All parts of
    `Held` are about these, so a quiet step needs no more than this. -/
structure PushBox.Quiet (s s' : PushBox R) : Prop where
  motion : s'.motion = s.motion
  data : s'.data = s.data
  turn : SameTurn s s'

variable {s s' : PushBox R}

/-- A step that goes on, to a place where the right does not change hands. -/
theorem PushBox.Quiet.of_pc (h : s.pc ∉ commands) (pc : Pc) (hpc : s'.pc = pc)
    (hpc' : pc ∉ [Pc.locationStop, .rotate0, .rotate, .reset, .finish, .start])
    (hm : s'.motion = s.motion) (hd : s'.data = s.data) (ha : s'.angle_state = s.angle_state)
    (hf : s'.finish_flag = s.finish_flag) : Quiet s s' := by
  have hplace : s.pc ∉ [Pc.locationStop, .rotate0] := fun hin =>
    h ((show [Pc.locationStop, .rotate0] ⊆ commands by decide) hin)
  refine ⟨hm, hd, SameTurn.of_pc ha hf hplace ?_⟩
  rw [hpc]
  exact hpc'

theorem PushBox.Quiet.goto (h : s.pc ∉ commands) (pc : Pc)
    (hpc' : pc ∉ [Pc.locationStop, .rotate0, .rotate, .reset, .finish, .start]) :
    Quiet s (s.goto pc) := of_pc h pc rfl hpc' rfl rfl rfl rfl

/-- Either way, a test goes on. -/
theorem PushBox.Quiet.ite_goto {p : Prop} [Decidable p] {a b : Pc} (ha : Quiet s (s.goto a))
    (hb : Quiet s (s.goto b)) : Quiet s (if p then s.goto a else s.goto b) := by
  split
  · exact ha
  · exact hb

/-- **A step to the next state** turns nothing yet: `Push_Box` is entered by way of the stop and of
    `Car_Rotate(0)`, and `Turning` leaves these two places out. -/
theorem PushBox.Quiet.of_turn (hs : s.angle_state ≠ Push_Box) {a : Angle_State} {pc : Pc}
    (ha : a ≠ Push_Box ∨ pc = .locationStop)
    (hpc : pc ∉ [Pc.rotate, .reset, .finish, .start, .rotate0]) : Quiet s (s.turn a pc) := by
  refine ⟨rfl, rfl, ?_⟩
  rcases ha with ha | rfl
  · exact SameTurn.of_before hs ha rfl hpc
  · refine ⟨iff_of_false (fun ht => ht.2.2.1 rfl) (not_turning hs), fun hlast => ?_,
      show Pc.locationStop ∉ _ by decide⟩
    rcases hlast with hlast | hlast
    · exact absurd hlast (show Pc.locationStop ∉ [Pc.rotate, .reset, .finish] by decide)
    · exact Or.inr hlast

/-- A pass of the loop leads to one of the four branches. -/
theorem PushBox.branch_quiet (s : PushBox R) :
    s.branch ∉ [Pc.locationStop, .rotate0, .rotate, .reset, .finish, .start] := by
  rw [branch]
  cases s.angle_state <;> decide

variable [CFloat R]

/-- **The tests** ask something of the inputs, the camera or the classes and go one way or the
    other; both ways lead to places where the right does not change hands. -/
theorem PushBox.quiet_test (i : PushInput)
    (hpc : s.pc ∈ [Pc.image, .flag, .angleX, .angleY, .wait, .vote, .poll, .pushX]) :
    Quiet s (s.thread i) := by
  have h : s.pc ∉ commands := by
    revert hpc
    cases s.pc <;> decide
  simp only [List.mem_cons, List.not_mem_nil, or_false] at hpc
  rw [thread]
  rcases hpc with hpc | hpc | hpc | hpc | hpc | hpc | hpc | hpc <;> rw [hpc]
  case inr.inl => exact .ite_goto (.goto h _ s.branch_quiet) (.goto h _ (by decide))
  all_goals exact .ite_goto (.goto h _ (by decide)) (.goto h _ (by decide))

/-- **The loop** and its image: the flags of the camera are read and cleared, the verdict is kept,
    and the thread waits. -/
theorem PushBox.quiet_loop (i : PushInput)
    (hpc : s.pc ∈ [Pc.loop, .verdict, .clearImage, .clearFlag, .delay, .done]) :
    Quiet s (s.thread i) := by
  have h : s.pc ∉ commands := by
    revert hpc
    cases s.pc <;> decide
  simp only [List.mem_cons, List.not_mem_nil, or_false] at hpc
  rw [thread]
  rcases hpc with hpc | hpc | hpc | hpc | hpc | hpc <;> rw [hpc]
  · -- loop
    dsimp only
    split
    · exact .goto h .done (by decide)
    · exact .of_pc h .image rfl (by decide) rfl rfl rfl rfl
  · -- verdict
    exact .of_pc h .clearImage rfl (by decide) rfl rfl rfl rfl
  · -- clearImage
    exact .of_pc h .flag rfl (by decide) rfl rfl rfl rfl
  · -- clearFlag
    exact .of_pc h .delay rfl (by decide) rfl rfl rfl rfl
  · -- delay
    exact .goto h .loop (by decide)
  · -- done
    refine ⟨rfl, rfl, Iff.rfl, fun hl => hl, ?_⟩
    rw [hpc]
    decide

/-- **The classification** writes the class and the count, and the list of those added; the car
    stands still for it, as it was stopped before. -/
theorem PushBox.quiet_vote (i : PushInput)
    (hpc : s.pc ∈ [Pc.dataClear, .first, .firstClear, .reload, .compare, .voted, .add, .addClear]) :
    Quiet s (s.thread i) := by
  have h : s.pc ∉ commands := by
    revert hpc
    cases s.pc <;> decide
  simp only [List.mem_cons, List.not_mem_nil, or_false] at hpc
  rw [thread]
  rcases hpc with hpc | hpc | hpc | hpc | hpc | hpc | hpc | hpc <;> rw [hpc]
  · -- dataClear
    exact .of_pc h .wait rfl (by decide) rfl rfl rfl rfl
  · -- first
    exact .of_pc h .firstClear rfl (by decide) rfl rfl rfl rfl
  · -- firstClear
    exact .of_pc h .vote rfl (by decide) rfl rfl rfl rfl
  · -- reload
    exact .of_pc h .voted rfl (by decide) rfl rfl rfl rfl
  · -- compare
    dsimp only
    split
    · exact .of_pc h .voted rfl (by decide) rfl rfl rfl rfl
    · exact .goto h .reload (by decide)
  · -- voted
    dsimp only
    split
    · exact .of_pc h .vote rfl (by decide) rfl rfl rfl rfl
    · exact .goto h .vote (by decide)
  · -- add
    exact .of_pc h .addClear rfl (by decide) rfl rfl rfl rfl
  · -- addClear
    exact .of_pc h .clearFlag rfl (by decide) rfl rfl rfl rfl

/-- **The changes of `angle_state`**: what the task has done so far tells the state it is in.  At
    all three places it is one before `Push_Box`, so nothing was turned. -/
theorem PushBox.quiet_state (i : PushInput) (ht : Told s)
    (hpc : s.pc ∈ [Pc.seekX, .angleState, .shouldPush]) : Quiet s (s.thread i) := by
  have h : s.pc ∉ commands := by
    revert hpc
    cases s.pc <;> decide
  obtain ⟨ha, -⟩ := ht.chapter (P := (· ≠ Push_Box)) hpc (by intro φ; cases φ <;> decide)
  simp only [List.mem_cons, List.not_mem_nil, or_false] at hpc
  rw [thread]
  rcases hpc with hpc | hpc | hpc <;> rw [hpc]
  · -- seekX
    dsimp only
    split
    · exact .of_turn ha (Or.inl (by decide)) (by decide)
    · exact .goto h .clearFlag (by decide)
  · -- angleState
    exact .of_turn ha (Or.inl (by decide)) (by decide)
  · -- shouldPush
    dsimp only
    split
    · exact .of_turn ha (Or.inr rfl) (by decide)
    · exact .goto h .clearFlag (by decide)

/-- **The pin** of `push_box`, and the end of the task up to its last step.  The step `reset` lies
    between two stops that count as the last one, and only commands the camera. -/
theorem PushBox.quiet_drive (i : PushInput) (hpc : s.pc ∈ [Pc.low, .high, .reset]) :
    Quiet s (s.thread i) := by
  have h : s.pc ∉ commands := by
    revert hpc
    cases s.pc <;> decide
  simp only [List.mem_cons, List.not_mem_nil, or_false] at hpc
  rw [thread]
  rcases hpc with hpc | hpc | hpc <;> rw [hpc]
  · -- low
    dsimp only
    split
    · exact .of_pc h .low rfl (by decide) rfl rfl rfl rfl
    · exact .of_pc h .high rfl (by decide) rfl rfl rfl rfl
  · -- high
    dsimp only
    split
    · exact .of_pc h .high rfl (by decide) rfl rfl rfl rfl
    · exact .goto h .pushStop (by decide)
  · -- reset
    refine ⟨rfl, rfl, ?_, fun _ => Or.inl ?_, show Pc.finish ∉ _ by decide⟩
    · show _ ∧ _ ∧ Pc.finish ≠ _ ∧ Pc.finish ≠ _ ↔ _
      rw [Turning, hpc]
      simp only [ne_eq, reduceCtorEq, not_false_eq_true, and_true]
    · rw [hpc]
      decide

/-- **All steps but the commands** leave the car, the controllers, and who has the control right.
    The five lemmas before this one have all places between them that are not in `commands`. -/
theorem PushBox.thread_quiet (i : PushInput) (h : s.pc ∉ commands) (ht : Told s) :
    Quiet s (s.thread i) := by
  have hsplit : s.pc ∈ [Pc.image, .flag, .angleX, .angleY, .wait, .vote, .poll, .pushX] ∨
      s.pc ∈ [Pc.loop, .verdict, .clearImage, .clearFlag, .delay, .done] ∨
      s.pc ∈ [Pc.dataClear, .first, .firstClear, .reload, .compare, .voted, .add, .addClear] ∨
      s.pc ∈ [Pc.seekX, .angleState, .shouldPush] ∨ s.pc ∈ [Pc.low, .high, .reset] := by
    revert h
    generalize s.pc = pc
    cases pc <;> decide
  rcases hsplit with hpc | hpc | hpc | hpc | hpc
  · exact quiet_test i hpc
  · exact quiet_loop i hpc
  · exact quiet_vote i hpc
  · exact quiet_state i ht hpc
  · exact quiet_drive i hpc

end

/-! ## Held -/

/-- The limits that `locate_box_init` sets: no output of a controller, and so no command that is
    made of them, is beyond. -/
structure LocateBoxData.Tuned (d : LocateBoxData ℚ) : Prop where
  Transverse : d.Transverse_pid.Limits 500
  Longitudinal : d.Longitudinal_pid.Limits 500
  Dir_Cen : d.Dir_Cen_pid.Limits 1000

/-- A speed that the push task may ask for, before it turns or while it does.  Neither bound is below the
    other: before the turn the turning speed may be higher, and during it the speed to the side. -/
def mecanum_Speed.Pushed (v : mecanum_Speed ℚ) : Prop := v.Within 250 500 1000 ∨ v.Within 500 500 300

/-- What the push task, while it runs, has made of the car.  The invariant of its steps: `angle` and
    `trace` say who has the control right, which decides what the next command does to the turning
    speed; `turning` is the bound that the angle loop needs when it takes over, and is true a step early,
    at `rotate0`, because the stop before it has set the turning speed to zero; `last` is what the tracing
    code finds. -/
structure PushBox.Held (s : PushBox ℚ) : Prop where
  angle : s.Turning → s.motion.car.Car_Speed_ConRight = Con_By_AngleLoop
  trace : ¬ s.Turning → s.motion.car.Car_Speed_ConRight = Con_By_TraceLine
  on : s.pc ≠ .start → s.motion.car.Car_BootSwitch = true
  speed : s.motion.car.Car_Speed.Pushed
  turning : s.Turning ∨ s.pc = .rotate0 → s.motion.car.Car_Speed.Within 500 500 300
  last : s.Last → s.motion.car.Car_Speed.Within 0 0 300
  data : s.data.Tuned

namespace PushBox

variable {s s' : PushBox ℚ}

/-- **A step that leaves the car** keeps the invariant: all its parts are about the car, the controllers
    and who has the right. -/
theorem Held.quiet (h : Held s) (hstart : s.pc ≠ .start) (hm : s'.motion = s.motion)
    (hd : s'.data = s.data) (hturn : SameTurn s s') : Held s' := by
  have hpc := hturn.pc
  simp only [List.mem_cons, List.not_mem_nil, or_false, not_or] at hpc
  refine ⟨fun ht => ?_, fun ht => ?_, fun _ => ?_, ?_, fun ht => ?_, fun hl => ?_, hd ▸ h.data⟩
  · rw [hm]
    exact h.angle (hturn.turning.mp ht)
  · rw [hm]
    exact h.trace (hturn.turning.not.mp ht)
  · rw [hm]
    exact h.on hstart
  · rw [hm]
    exact h.speed
  · rw [hm]
    exact h.turning (ht.imp hturn.turning.mp fun hr => absurd hr hpc.2)
  · rw [hm]
    exact h.last (hturn.last hl)

/-- **A command before the turn** is carried out as it is, all three components of it.  It must be
    within the first bound, and at `rotate0` its turning speed must be zero, for the angle loop is
    next. -/
theorem Held.command (h : Held s) (hstart : s.pc ≠ .start) (hs : ¬ s.Turning) (hs' : ¬ s'.Turning)
    (hlast : ¬ s'.Last) {x y a : ℚ}
    (hcar : s'.motion.car = Car_Change_Speed x y a s.motion.car) (hd : s'.data.Tuned)
    (hx : |x| ≤ 250) (hy : |y| ≤ 500) (ha : |a| ≤ 1000) (hrot : s'.pc = .rotate0 → a = 0) :
    Held s' := by
  -- the switch is on and the right is with the tracing code, so `Omega` is taken too
  have hon := h.on hstart
  have hright := h.trace hs
  have hspeed : s'.motion.car.Car_Speed = ⟨x, y, a⟩ := by
    rw [hcar, Car_Change_Speed, if_pos hon, hright]
    rfl
  refine ⟨fun ht => absurd ht hs', fun _ => ?_, fun _ => ?_, Or.inl ?_, fun ht => ?_,
    fun hl => absurd hl hlast, hd⟩
  · rw [hcar, Car_Change_Speed_ConRight, hright]
  · rw [hcar, Car_Change_Speed_BootSwitch]
    exact hon
  · rw [hspeed]
    exact ⟨hx, hy, ha⟩
  · rw [hspeed]
    refine ⟨hx.trans (by norm_num), hy, ?_⟩
    rw [hrot (ht.resolve_left hs'), abs_zero]
    norm_num

/-- **A command while the angle loop turns the car** leaves the turn to it: whatever turning speed
    is asked for, the one of the angle loop stays, and that is within 300. -/
theorem Held.push (h : Held s) (hstart : s.pc ≠ .start) (hs : s.Turning) (hs' : s'.Turning)
    {x y a : ℚ} (hcar : s'.motion.car = Car_Change_Speed x y a s.motion.car) (hd : s'.data.Tuned)
    (hx : |x| ≤ 500) (hy : |y| ≤ 500) (hlast : s'.Last → x = 0 ∧ y = 0) : Held s' := by
  -- the right is with the angle loop, so `Car_Change_Speed` leaves the `Omega` that it finds
  have hon := h.on hstart
  have hright := h.angle hs
  have hspeed : s'.motion.car.Car_Speed = ⟨x, y, s.motion.car.Car_Speed.Omega⟩ := by
    rw [hcar, Car_Change_Speed, if_pos hon, hright]
    rfl
  have hwithin : s'.motion.car.Car_Speed.Within 500 500 300 := by
    rw [hspeed]
    exact ⟨hx, hy, (h.turning (Or.inl hs)).Omega⟩
  refine ⟨fun _ => ?_, fun ht => absurd hs' ht, fun _ => ?_, Or.inr hwithin, fun _ => hwithin,
    fun hl => ?_, hd⟩
  · rw [hcar, Car_Change_Speed_ConRight, hright]
  · rw [hcar, Car_Change_Speed_BootSwitch]
    exact hon
  · obtain ⟨rfl, rfl⟩ := hlast hl
    rw [hspeed]
    exact ⟨abs_zero.le, abs_zero.le, (h.turning (Or.inl hs)).Omega⟩

/-- The steps that use the controllers leave them limited, and what they get from them is within
    the limit. -/
theorem Held.Dir_Cen (h : Held s) : |s.Dir_Cen.1| ≤ 1000 ∧ s.Dir_Cen.2.Limits 1000 :=
  ⟨h.data.Dir_Cen.output (by norm_num) _, h.data.Dir_Cen.call _⟩

theorem Held.Longitudinal (h : Held s) : |s.Longitudinal.1| ≤ 500 ∧ s.Longitudinal.2.Limits 500 :=
  ⟨h.data.Longitudinal.output (by norm_num) _, h.data.Longitudinal.call _⟩

theorem Held.Transverse (h : Held s) : |s.Transverse.1| ≤ 500 ∧ s.Transverse.2.Limits 500 :=
  ⟨h.data.Transverse.output (by norm_num) _, h.data.Transverse.call _⟩

/-- **The commands before the turn** take the turning speed from `Dir_Cen` and the speed ahead from
    `Longitudinal`; to the side the car is asked for 250 at most. -/
theorem Held.before (h : Held s) (ht : Told s) (i : PushInput)
    (hpc : s.pc ∈ [Pc.seek, .angle, .angleStop, .location]) : Held (s.thread i) := by
  obtain ⟨ha, hf⟩ := ht.chapter (P := (· ≠ Push_Box)) hpc (by intro φ; cases φ <;> decide)
  have hstart : s.pc ≠ .start := by
    intro heq
    rw [heq] at hpc
    exact absurd hpc (by decide)
  obtain ⟨hdir, hdir'⟩ := h.Dir_Cen
  obtain ⟨hlong, hlong'⟩ := h.Longitudinal
  have hzero : ∀ b : ℚ, 0 ≤ b → |(CFloat.ofInt 0 : ℚ)| ≤ b := by
    intro b hb
    rw [CFloat.ofInt_rat, Int.cast_zero, abs_zero]
    exact hb
  simp only [List.mem_cons, List.not_mem_nil, or_false] at hpc
  rcases hpc with hpc | hpc | hpc | hpc
  · -- seek
    rw [thread, hpc]
    exact h.command hstart (not_turning ha) (not_turning ha)
      (not_last .seekX rfl (by decide) hf) rfl ⟨h.data.Transverse, h.data.Longitudinal, hdir'⟩
      (hzero _ (by norm_num)) (hzero _ (by norm_num)) hdir Pc.noConfusion
  · -- angle
    rw [thread, hpc]
    exact h.command hstart (not_turning ha) (not_turning ha)
      (not_last .angleX rfl (by decide) hf) rfl ⟨h.data.Transverse, hlong', hdir'⟩
      (hzero _ (by norm_num)) hlong hdir Pc.noConfusion
  · -- angleStop
    rw [thread, hpc]
    exact h.command hstart (not_turning ha) (not_turning ha)
      (not_last .angleState rfl (by decide) hf) rfl h.data (hzero _ (by norm_num))
      (hzero _ (by norm_num)) (hzero _ (by norm_num)) Pc.noConfusion
  · -- location
    have hside : |if s.l_or_r = PUSH_RIGHT then (CFloat.ofInt (-250) : ℚ) else CFloat.ofInt 250| ≤
        250 := by
      split <;> norm_num
    rw [thread, hpc]
    exact h.command hstart (not_turning ha) (not_turning ha)
      (not_last .shouldPush rfl (by decide) hf) rfl ⟨h.data.Transverse, hlong', hdir'⟩ hside hlong
      hdir Pc.noConfusion

/-- **The commands during the turn** take the speed to the side from `Transverse`, or drive
    straight ahead and back; the last one is a stop, which is what the tracing code finds. -/
theorem Held.during (h : Held s) (ht : Told s) (i : PushInput)
    (hpc : s.pc ∈ [Pc.push, .ahead, .pushStop, .back, .backStop]) : Held (s.thread i) := by
  obtain ⟨ha, hf⟩ := ht.chapter (P := (· = Push_Box)) hpc (by intro φ; cases φ <;> decide)
  have hstart : s.pc ≠ .start := by
    intro heq
    rw [heq] at hpc
    exact absurd hpc (by decide)
  have hs : s.Turning := by
    refine ⟨ha, hf, ?_, ?_⟩
    · intro heq
      rw [heq] at hpc
      exact absurd hpc (by decide)
    · intro heq
      rw [heq] at hpc
      exact absurd hpc (by decide)
  obtain ⟨hlong, hlong'⟩ := h.Longitudinal
  obtain ⟨htrans, htrans'⟩ := h.Transverse
  simp only [List.mem_cons, List.not_mem_nil, or_false] at hpc
  rcases hpc with hpc | hpc | hpc | hpc | hpc
  · -- push
    rw [thread, hpc]
    exact h.push hstart hs ⟨ha, hf, Pc.noConfusion, Pc.noConfusion⟩ rfl
      ⟨htrans', hlong', h.data.Dir_Cen⟩ htrans hlong fun hl =>
        absurd hl (not_last .pushX rfl (by decide) hf)
  · -- ahead
    rw [thread, hpc]
    exact h.push hstart hs ⟨ha, hf, Pc.noConfusion, Pc.noConfusion⟩ rfl h.data
      (by norm_num) (by norm_num) fun hl => absurd hl (not_last .low rfl (by decide) hf)
  · -- pushStop
    rw [thread, hpc]
    exact h.push hstart hs ⟨ha, hf, Pc.noConfusion, Pc.noConfusion⟩ rfl h.data
      (by norm_num) (by norm_num) fun hl => absurd hl (not_last .back rfl (by decide) hf)
  · -- back
    have hback : Car_DistanceMotion_speed (CFloat.ofInt 0) (CFloat.ofInt (-30) : ℚ)
        (CFloat.ofRat (7 / 10)) = (0, -1000 / 7) := by decide +kernel
    rw [thread, hpc]
    dsimp only
    rw [hback]
    exact h.push hstart hs ⟨ha, hf, Pc.noConfusion, Pc.noConfusion⟩ rfl h.data
      (by norm_num) (by norm_num [abs_le]) fun hl => absurd hl (not_last .backStop rfl (by decide) hf)
  · -- backStop
    rw [thread, hpc]
    exact h.push hstart hs ⟨ha, hf, Pc.noConfusion, Pc.noConfusion⟩ rfl h.data
      (by norm_num) (by norm_num) fun _ => ⟨rfl, rfl⟩

/-- **The start and the turn**: what is done to the control right.  It is the tracing code's to
    begin with and in the end, and the angle loop's from `Car_Rotate(0)` on; the speed record is
    not written by these steps, but for the stop before the turn. -/
theorem Held.steer (h : Held s) (ht : Told s) (i : PushInput)
    (hpc : s.pc ∈ [Pc.start, .right, .locationStop, .rotate0, .rotate, .finish]) :
    Held (s.thread i) := by
  have hchapter : ∀ (P : Angle_State → Prop) {p : Pc}, s.pc = p →
      (∀ φ : Chapter, ∀ pc ∈ [p], pc ∈ φ.pcs → P φ.angle_state ∧ φ ≠ .finished) →
        P s.angle_state ∧ s.finish_flag = false :=
    fun P p hp hφ => ht.chapter (List.mem_singleton.mpr hp) hφ
  simp only [List.mem_cons, List.not_mem_nil, or_false] at hpc
  rcases hpc with hpc | hpc | hpc | hpc | hpc | hpc
  · -- start
    obtain ⟨ha, hf⟩ := hchapter (· ≠ Push_Box) hpc (by intro φ; cases φ <;> decide)
    rw [thread, hpc]
    exact ⟨fun hturn => absurd hturn (not_turning ha), fun _ => h.trace (not_turning ha),
      fun _ => rfl, h.speed, fun hor => hor.elim (absurd · (not_turning ha)) Pc.noConfusion,
      fun hl => absurd hl (not_last .right rfl (by decide) hf), h.data⟩
  · -- right
    obtain ⟨ha, hf⟩ := hchapter (· ≠ Push_Box) hpc (by intro φ; cases φ <;> decide)
    have hon := h.on (by rw [hpc]; decide)
    rw [thread, hpc]
    exact ⟨fun hturn => absurd hturn (not_turning ha), fun _ => rfl, fun _ => hon, h.speed,
      fun hor => hor.elim (absurd · (not_turning ha)) Pc.noConfusion,
      fun hl => absurd hl (not_last .loop rfl (by decide) hf), h.data⟩
  · -- locationStop
    have hf := ht.finish_flag hpc (by intro φ; cases φ <;> decide)
    rw [thread, hpc]
    exact h.command (by rw [hpc]; decide) (fun hturn => hturn.2.2.1 hpc)
      (fun hturn => hturn.2.2.2 rfl) (not_last .rotate0 rfl (by decide) hf) rfl h.data
      (by norm_num) (by norm_num) (by norm_num) fun _ => rfl
  · -- rotate0: the angle loop takes over
    obtain ⟨ha, hf⟩ := hchapter (· = Push_Box) hpc (by intro φ; cases φ <;> decide)
    have hon := h.on (by rw [hpc]; decide)
    have hwithin := h.turning (Or.inr hpc)
    rw [thread, hpc]
    exact ⟨fun _ => rfl, fun hturn => absurd ⟨ha, hf, Pc.noConfusion, Pc.noConfusion⟩ hturn,
      fun _ => hon, Or.inr hwithin, fun _ => hwithin,
      fun hl => absurd hl (not_last .clearFlag rfl (by decide) hf), h.data⟩
  · -- rotate: it stays with it
    obtain ⟨ha, hf⟩ := hchapter (· = Push_Box) hpc (by intro φ; cases φ <;> decide)
    have hon := h.on (by rw [hpc]; decide)
    have hs : s.Turning := ⟨ha, hf, by rw [hpc]; decide, by rw [hpc]; decide⟩
    have hwithin := h.last (Or.inl (by rw [hpc]; decide))
    rw [thread, hpc]
    exact ⟨fun _ => rfl, fun hturn => absurd ⟨ha, hf, Pc.noConfusion, Pc.noConfusion⟩ hturn,
      fun _ => hon, h.speed, fun _ => h.turning (Or.inl hs), fun _ => hwithin, h.data⟩
  · -- finish: the tracing code gets it back
    have hon := h.on (by rw [hpc]; decide)
    have hwithin := h.last (Or.inl (by rw [hpc]; decide))
    rw [thread, hpc]
    exact ⟨fun hturn => Bool.noConfusion hturn.2.1, fun _ => rfl, fun _ => hon, h.speed,
      fun hor => hor.elim (fun hturn => Bool.noConfusion hturn.2.1) Pc.noConfusion,
      fun _ => hwithin, h.data⟩

/-- **A step of the push task** keeps the invariant.  The places that command are split by who has the
    control right there, since that is what `Car_Change_Speed` asks; all the others are quiet. -/
theorem Held.thread (h : Held s) (ht : Told s) (i : PushInput) : Held (s.thread i) := by
  by_cases hcommand : s.pc ∈ commands
  · -- the places that command, by who has the control right there
    have hsplit : s.pc ∈ [Pc.seek, .angle, .angleStop, .location] ∨
        s.pc ∈ [Pc.push, .ahead, .pushStop, .back, .backStop] ∨
        s.pc ∈ [Pc.start, .right, .locationStop, .rotate0, .rotate, .finish] := by
      revert hcommand
      generalize s.pc = pc
      cases pc <;> decide
    rcases hsplit with hpc | hpc | hpc
    · exact h.before ht i hpc
    · exact h.during ht i hpc
    · exact h.steer ht i hpc
  · have hquiet := thread_quiet i hcommand ht
    refine h.quiet (fun hstart => hcommand ?_) hquiet.motion hquiet.data hquiet.turn
    rw [hstart]
    decide

/-- A change of the car that keeps the control right and a speed that is asked for: what the car's loop
    and the button do.  The turning speed may change too, but only where the angle loop sets it. -/
theorem Held.setMotion (h : Held s) {m : CarMotion ℚ}
    (hright : m.car.Car_Speed_ConRight = s.motion.car.Car_Speed_ConRight)
    (hon : s.motion.car.Car_BootSwitch = true → m.car.Car_BootSwitch = true)
    (hVx : m.car.Car_Speed.Vx = s.motion.car.Car_Speed.Vx)
    (hVy : m.car.Car_Speed.Vy = s.motion.car.Car_Speed.Vy)
    (hOmega : m.car.Car_Speed.Omega = s.motion.car.Car_Speed.Omega ∨
      s.Turning ∧ |m.car.Car_Speed.Omega| ≤ 300) : Held { s with motion := m } := by
  have hwithin : ∀ {x y a : ℚ}, s.motion.car.Car_Speed.Within x y a → 300 ≤ a →
      m.car.Car_Speed.Within x y a := by
    intro x y a hs ha
    refine ⟨hVx ▸ hs.Vx, hVy ▸ hs.Vy, ?_⟩
    rcases hOmega with heq | ⟨-, hle⟩
    · exact heq ▸ hs.Omega
    · exact hle.trans ha
  refine ⟨fun ht => hright.trans (h.angle ht), fun ht => hright.trans (h.trace ht),
    fun hstart => hon (h.on hstart), ?_, fun hor => ?_, fun hl => ?_, h.data⟩
  · exact h.speed.imp (fun hs => hwithin hs (by norm_num)) fun hs => hwithin hs le_rfl
  · exact hwithin (h.turning hor) le_rfl
  · exact hwithin (h.last hl) le_rfl

end PushBox

/-! ## The wheels are not the task's -/

/-- What bounds the wheels says nothing of the speed record and the switch, so a command keeps it; -/
theorem CarMotion.Sound.setCar {m : CarMotion ℚ} {B : ℚ} (h : m.Sound B) (car : Car ℚ) :
    ({ m with car := car } : CarMotion ℚ).Sound B := ⟨h.motor, h.forwards, h.yaw⟩

/-- and so does a new angle, as it is not one of the limits. -/
theorem CarMotion.Sound.rotate {m : CarMotion ℚ} {B : ℚ} (h : m.Sound B) (angle : ℚ) :
    (Car_Rotate angle m).Sound B :=
  ⟨h.motor, h.forwards, h.yaw.Kp, h.yaw.Ki, h.yaw.Kd, h.yaw.Output_Max, h.yaw.Output_Min⟩

/-- **A step of the push task** commands the car or sets the angle to turn to, and leaves the wheels
    to the car's loop. -/
theorem CarMotion.Sound.thread {s : PushBox ℚ} {B : ℚ} (h : s.motion.Sound B) (i : PushInput) :
    (s.thread i).motion.Sound B := by
  rw [PushBox.thread]
  cases s.pc <;> dsimp only <;> (try split) <;>
    first
    | exact h
    | exact h.setCar _
    | exact h.rotate _

end Car2025
