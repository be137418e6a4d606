/-
  The push itself: what it takes for the car to push, and how long it drives.

  1. **Sanction (`push_sanctioned`)** — the task goes over to `Push_Box_State` on a verdict of the same
     pass of the loop, about an image that the camera had finished.

  2. **Levels (`levels`)** — what `push_box` has read at the pin `C6`.

  3. **Drive (`push_box_drive`)** — the car drives ahead until the pin was low eleven times in a row, and
     then high eleven times in a row; and no longer.
-/
import Mathlib
import Car2025.Lib.Debounce
import Car2025.PushBox.Vote

namespace Car2025

open Angle_State Debounce

section

variable {R : Type} [CFloat R] {s : PushBox R}

/-! ## Sanction -/

/-- A pass of the loop is under way. -/
def Pc.InPass (pc : Pc) : Prop := pc ∉ [.start, .right, .loop, .done]

/-- The verdict of this pass was that the picture can be pushed, on an image that is there; and since
    then the loop has not started anew. -/
def PushBox.Sanctioned (s : PushBox R) (as : List (PushBox.Action R)) : Prop :=
  ∃ pre i mid, as = pre ++ .thread i :: mid ∧ (s.run pre).pc = .verdict ∧
    (s.run pre).mt9v03x_finish_flag = true ∧ i.verdict = true ∧
    ∀ k, k <+: mid → (s.run (pre ++ .thread i :: k)).pc ≠ .loop

theorem PushBox.Sanctioned.concat {as : List (PushBox.Action R)} (h : s.Sanctioned as)
    (a : PushBox.Action R) (hpc : (s.run (as ++ [a])).pc ≠ .loop) : s.Sanctioned (as ++ [a]) := by
  obtain ⟨pre, i, mid, rfl, hverdict, hflag, hi, hmid⟩ := h
  refine ⟨pre, i, mid ++ [a], ?_, hverdict, hflag, hi, fun k hk => ?_⟩
  · rw [List.append_assoc, List.cons_append]
  · rcases List.prefix_concat_iff.mp hk with rfl | hk
    · rw [← List.cons_append, ← List.append_assoc]
      exact hpc
    · exact hmid k hk

/-- A step of the task sets `ShouldPush` at the head of the loop and at the verdict. -/
theorem PushBox.thread_ShouldPush (i : PushInput) (s : PushBox R) :
    (s.thread i).ShouldPush =
      match s.pc with
      | .loop => if s.finish_flag then s.ShouldPush else false
      | .verdict => i.verdict
      | _ => s.ShouldPush := by
  obtain ⟨pc, _, finish_flag, _, _, _, _, _, _, _, _, _, _, _, _⟩ := s
  rw [PushBox.thread]
  cases pc <;> dsimp only <;> try split
  all_goals rfl

/-- The task comes to the verdict when there is an image. -/
theorem PushBox.thread_verdict (i : PushInput) (hpc : (s.thread i).pc = .verdict) :
    (s.thread i).mt9v03x_finish_flag = true := by
  have hnext := s.thread_pc i
  rw [hpc] at hnext
  have himage : s.pc = .image := by
    revert hnext
    cases s.pc <;> decide
  rw [PushBox.thread, himage] at hpc ⊢
  dsimp only at hpc ⊢
  by_cases hflag : s.mt9v03x_finish_flag = true
  · rw [if_pos hflag]
    exact hflag
  · rw [if_neg hflag] at hpc
    exact Pc.noConfusion hpc

/-- It goes over to `Push_Box_State` only where `ShouldPush` is set. -/
theorem PushBox.thread_Push_Box (i : PushInput) (h : (s.thread i).angle_state = Push_Box) :
    s.angle_state = Push_Box ∨ s.pc = .shouldPush ∧ s.ShouldPush = true := by
  by_cases hpc : s.pc = .shouldPush
  · by_cases hpush : s.ShouldPush = true
    · exact Or.inr ⟨hpc, hpush⟩
    · rw [PushBox.thread, hpc] at h
      dsimp only at h
      rw [if_neg hpush] at h
      exact Or.inl h
  · left
    revert h hpc
    obtain ⟨pc, _, _, _, _, _, _, _, _, _, _, _, _, _, _⟩ := s
    rw [PushBox.thread]
    cases pc <;> dsimp only <;> try split
    all_goals
      intro h hpc
      first
      | exact h
      | exact Angle_State.noConfusion h
      | exact absurd rfl hpc

omit [CFloat R] in
theorem Car_Change_Speed_BootSwitch (vx vy omega : R) (car : Car R) :
    (Car_Change_Speed vx vy omega car).Car_BootSwitch = car.Car_BootSwitch := by
  rw [Car_Change_Speed]
  split <;> rfl

/-- The task does not turn the switch off. -/
theorem PushBox.thread_on (h : s.motion.car.Car_BootSwitch = true) (i : PushInput) :
    (s.thread i).motion.car.Car_BootSwitch = true := by
  rw [PushBox.thread]
  cases s.pc <;> dsimp only <;> (try split) <;>
    first
    | exact h
    | exact (Car_Change_Speed_BootSwitch _ _ _ s.motion.car).trans h
    | rfl

/-- What the steps of other threads and the interrupts leave.  An image may come at any time, so
    its flag can only be raised; all the rest of what `Sanction` and `Reads` say is the task's own. -/
structure PushBox.SameTask (s s' : PushBox R) : Prop where
  pc : s'.pc = s.pc
  ShouldPush : s'.ShouldPush = s.ShouldPush
  angle_state : s'.angle_state = s.angle_state
  gpio_tick : s'.gpio_tick = s.gpio_tick
  finish_flag : s'.finish_flag = s.finish_flag
  image : s.mt9v03x_finish_flag = true → s'.mt9v03x_finish_flag = true
  on : s'.motion.car.Car_BootSwitch = s.motion.car.Car_BootSwitch
  Vx : s'.motion.car.Car_Speed.Vx = s.motion.car.Car_Speed.Vx
  Vy : s'.motion.car.Car_Speed.Vy = s.motion.car.Car_Speed.Vy

/-- What is no step of the task leaves its place, its verdict and its `angle_state` alone. -/
theorem PushBox.act_sameTask {a : PushBox.Action R} (ha : ∀ i, a ≠ .thread i) :
    SameTask s (s.act a) := by
  cases a with
  | thread i => exact absurd rfl (ha i)
  | motion count =>
    show SameTask s (if s.motion.car.Car_BootSwitch then _ else s)
    split
    · -- the angle loop sets the turning speed only
      refine ⟨rfl, rfl, rfl, rfl, rfl, id, ?_, ?_, ?_⟩
      · show (car_motion_run count s.motion).car.Car_BootSwitch = _
        rw [car_motion_run]
        split <;> rfl
      · show (car_motion_run count s.motion).car.Car_Speed.Vx = _
        rw [car_motion_run]
        split <;> rfl
      · show (car_motion_run count s.motion).car.Car_Speed.Vy = _
        rw [car_motion_run]
        split <;> rfl
    · exact ⟨rfl, rfl, rfl, rfl, rfl, id, rfl, rfl, rfl⟩
  | mcx bytes | art bytes | attitude yaw => exact ⟨rfl, rfl, rfl, rfl, rfl, id, rfl, rfl, rfl⟩
  | image => exact ⟨rfl, rfl, rfl, rfl, rfl, fun _ => rfl, rfl, rfl, rfl⟩

/-- What a run leaves: an image is there when the task judges it, `ShouldPush` is a verdict of the
    pass, and `Push_Box_State` was entered on one.  The second part is what carries the other two: the
    head of the loop clears `ShouldPush`, so where it is set the pass that set it still goes on. -/
structure PushBox.Sanction (s : PushBox R) (as : List (PushBox.Action R)) : Prop where
  image : (s.run as).pc = .verdict → (s.run as).mt9v03x_finish_flag = true
  verdict : (s.run as).pc.InPass → (s.run as).ShouldPush = true → s.Sanctioned as
  push : (s.run as).angle_state = Push_Box → ∃ pre j post, as = pre ++ .thread j :: post ∧
    (s.run pre).pc = .shouldPush ∧ (s.run (pre ++ [.thread j])).angle_state = Push_Box ∧
    s.Sanctioned pre

/-- Later steps do not change it. -/
theorem PushBox.Sanction.later {as : List (PushBox.Action R)} (h : s.Sanction as)
    (hpush : (s.run as).angle_state = Push_Box) (a : PushBox.Action R) :
    ∃ pre j post, as ++ [a] = pre ++ .thread j :: post ∧ (s.run pre).pc = .shouldPush ∧
      (s.run (pre ++ [.thread j])).angle_state = Push_Box ∧ s.Sanctioned pre := by
  obtain ⟨pre, j, post, rfl, hpc, hentered, hs⟩ := h.push hpush
  refine ⟨pre, j, post ++ [a], ?_, hpc, hentered, hs⟩
  rw [List.append_assoc, List.cons_append]

theorem Pc.InPass.ne_loop {pc : Pc} (h : pc.InPass) : pc ≠ .loop := by
  rintro rfl
  exact h (by decide)

/-- A step within a pass began within it, or at its head. -/
theorem Pc.InPass.of_next {pc pc' : Pc} (h : pc'.InPass) (hnext : pc' ∈ pc.next) :
    pc.InPass ∨ pc = .loop := by
  have hall : ∀ pc' ∈ pc.next, pc' ∉ [Pc.start, .right, .loop, .done] →
      pc ∉ [Pc.start, .right, .loop, .done] ∨ pc = .loop := by
    cases pc <;> decide
  exact hall pc' hnext h

/-- **One action** keeps it: the verdict step makes a verdict of this pass, the head of the loop
    takes it back, and only a verdict lets the task go over to the push. -/
theorem PushBox.Sanction.act {as : List (PushBox.Action R)} (h : s.Sanction as)
    (a : PushBox.Action R) : s.Sanction (as ++ [a]) := by
  by_cases ha : ∃ i, a = .thread i
  · obtain ⟨i, rfl⟩ := ha
    have hrun : s.run (as ++ [.thread i]) = (s.run as).thread i := run_concat s as _
    have hset := (s.run as).thread_ShouldPush i
    refine ⟨fun hpc => ?_, fun hpass hpush => ?_, fun hpush => ?_⟩
    · rw [hrun] at hpc ⊢
      exact thread_verdict i hpc
    · rw [hrun] at hpass hpush
      have hloop : (s.run (as ++ [.thread i])).pc ≠ .loop := by
        rw [hrun]
        exact hpass.ne_loop
      rw [hset] at hpush
      rcases hpass.of_next ((s.run as).thread_pc i) with hin | hin
      · by_cases hverdict : (s.run as).pc = .verdict
        · rw [hverdict] at hpush
          refine ⟨as, i, [], rfl, hverdict, h.image hverdict, hpush, fun k hk => ?_⟩
          rw [List.prefix_nil.mp hk]
          exact hloop
        · refine (h.verdict hin ?_).concat _ hloop
          split at hpush
          · rename_i hpc
            exact absurd hpc hin.ne_loop
          · rename_i hpc
            exact absurd hpc hverdict
          · exact hpush
      · -- at its head the pass has no verdict yet
        rw [hin] at hpush
        by_cases hfin : (s.run as).finish_flag = true
        · rw [PushBox.thread, hin] at hpass
          dsimp only at hpass
          rw [if_pos hfin] at hpass
          exact absurd (show Pc.done ∈ _ by decide) hpass
        · exact absurd ((if_neg hfin).symm.trans hpush) Bool.false_ne_true
    · have hentered := hpush
      rw [hrun] at hpush
      rcases thread_Push_Box i hpush with hpush | ⟨hpc, hflag⟩
      · exact h.later hpush _
      · refine ⟨as, i, [], rfl, hpc, hentered, h.verdict ?_ hflag⟩
        rw [hpc]
        show Pc.shouldPush ∉ _
        decide
  · have hsame := (s.run as).act_sameTask fun i hi => ha ⟨i, hi⟩
    have hrun := run_concat s as a
    rw [← hrun] at hsame
    refine ⟨fun hpc => ?_, fun hpass hpush => ?_, fun hpush => ?_⟩
    · exact hsame.image (h.image (hsame.pc.symm.trans hpc))
    · refine (h.verdict (hsame.pc ▸ hpass) (hsame.ShouldPush.symm.trans hpush)).concat a ?_
      exact hpass.ne_loop
    · exact h.later (hsame.angle_state.symm.trans hpush) a

theorem PushBox.enter_sanction (s : PushBox R) (as : List (PushBox.Action R)) :
    s.enter.Sanction as := by
  induction as using List.reverseRecOn with
  | nil =>
    refine ⟨fun h => ?_, fun h => ?_, fun h => ?_⟩
    · exact Pc.noConfusion (show Pc.start = .verdict from h)
    · exact absurd (by decide) (show Pc.InPass .start from h)
    · exact Angle_State.noConfusion (show zero = Push_Box from h)
  | append_singleton as a ih => exact ih.act a

/-- **Sanction** — in every run of the task, whatever the interrupts bring: if the task is in
    `Push_Box_State`, it went there from `Location_Correct_State` in one step, in a pass of its loop in
    which it judged an image that the camera had finished, and the verdict was to push. -/
theorem push_sanctioned (s : PushBox R) (as : List (PushBox.Action R))
    (hpush : (s.enter.run as).angle_state = Push_Box) :
    ∃ pre j post, as = pre ++ .thread j :: post ∧ (s.enter.run pre).pc = .shouldPush ∧
      (s.enter.run pre).angle_state = Location_Correct ∧
      (s.enter.run (pre ++ [.thread j])).angle_state = Push_Box ∧ s.enter.Sanctioned pre := by
  obtain ⟨pre, j, post, heq, hpc, hentered, hs⟩ := (s.enter_sanction as).push hpush
  refine ⟨pre, j, post, heq, hpc, ?_, hentered, hs⟩
  obtain ⟨φ, c, d, h⟩ := s.enter_told pre
  have hin := h.pc
  rw [hpc] at hin
  obtain rfl : φ = .circling := by
    revert hin
    cases φ <;> decide
  exact h.angle_state

theorem push_sanctioned_wrench :
    ∃ pre j post, PushBox.Action.pushWrench = pre ++ .thread j :: post ∧
      (PushBox.parked.enter.run pre).pc = .shouldPush ∧
      (PushBox.parked.enter.run pre).angle_state = Location_Correct ∧
      (PushBox.parked.enter.run (pre ++ [.thread j])).angle_state = Push_Box ∧
      PushBox.parked.enter.Sanctioned pre :=
  push_sanctioned PushBox.parked PushBox.Action.pushWrench (by decide +kernel)

/-! ## Levels -/

/-- The level of the pin `C6`, if the step is a pass of one of the two loops of `push_box`. -/
def PushBox.level (s : PushBox R) : PushBox.Action R → Option Bool
  | .thread i => if s.pc ∈ [Pc.low, .high] ∧ s.gpio_tick ≤ 10 then some i.gpio else none
  | _ => none

/-- The state, and the levels that were read on the way to it. -/
def PushBox.read (x : PushBox R × List Bool) (a : PushBox.Action R) : PushBox R × List Bool :=
  (x.1.act a, x.2 ++ (x.1.level a).toList)

/-- The levels that are read in a run. -/
def PushBox.levels (s : PushBox R) (as : List (PushBox.Action R)) : List Bool :=
  (as.foldl PushBox.read (s, [])).2

theorem PushBox.read_run (s : PushBox R) (ls : List Bool) (as : List (PushBox.Action R)) :
    (as.foldl PushBox.read (s, ls)).1 = s.run as := by
  induction as generalizing s ls with
  | nil => rfl
  | cons a as ih => exact ih (s.act a) _

theorem PushBox.levels_concat (s : PushBox R) (as : List (PushBox.Action R))
    (a : PushBox.Action R) :
    s.levels (as ++ [a]) = s.levels as ++ ((s.run as).level a).toList := by
  rw [levels, List.foldl_append, List.foldl_cons, List.foldl_nil, read, read_run]
  rfl

/-! ## Drive -/

/-- The pin was low eleven times in a row, and then high eleven times in a row. -/
def Crossed (ls : List Bool) : Prop :=
  ∃ lows highs, ls = lows ++ highs ∧ Debounce.Ends not 11 lows ∧ Debounce.Ends id 11 highs

/-- After the two loops. -/
def Pc.driven : List Pc := [.pushStop, .back, .backStop, .rotate, .reset, .finish]

/-- The car is told to drive ahead. -/
def PushBox.Ahead (s : PushBox R) : Prop :=
  s.motion.car.Car_Speed.Vx = CFloat.ofInt 0 ∧ s.motion.car.Car_Speed.Vy = CFloat.ofInt 300

/-- What the levels say about the task.  In each of the two loops `gpio_tick` is the streak of
    right levels at the end of what this loop has read, and no eleven of them have come before;
    behind the loops the levels are two such parts, one after the other.  The car drives ahead as
    long as the loops read. -/
structure PushBox.Reads (s : PushBox R) (ls : List Bool) : Prop where
  before : s.pc ∉ Chapter.pushed.pcs → s.finish_flag = false → ls = []
  low : s.pc = .low → Debounce.Waits not 11 ls ∧ s.gpio_tick = streak not ls
  high : s.pc = .high → ∃ lows highs, ls = lows ++ highs ∧ Debounce.Ends not 11 lows ∧
    Debounce.Waits id 11 highs ∧ s.gpio_tick = streak id highs
  after : s.pc ∈ Pc.driven ∨ s.finish_flag = true → Crossed ls
  drive : s.pc ∈ [Pc.low, .high] → s.Ahead

theorem PushBox.thread_finish_flag (i : PushInput) (s : PushBox R) :
    (s.thread i).finish_flag =
      match s.pc with
      | .finish => true
      | _ => s.finish_flag := by
  obtain ⟨pc, _, _, _, _, _, _, _, _, _, _, _, _, _, _⟩ := s
  rw [PushBox.thread]
  cases pc <;> dsimp only <;> try split
  all_goals rfl

/-! ### Where the task can be -/

section

variable {ls : List Bool}

/-- Before the loops nothing has been read, as the task has not been at them. -/
theorem PushBox.Reads.of_before (hpc : s.pc ∉ Chapter.pushed.pcs) (hfin : s.finish_flag = false) :
    s.Reads [] := by
  have hno : ∀ pc ∈ Chapter.pushed.pcs, s.pc ≠ pc := fun pc hin heq => hpc (heq ▸ hin)
  refine ⟨fun _ _ => rfl, fun h => absurd h (hno _ (by decide)),
    fun h => absurd h (hno _ (by decide)), fun hor => ?_, fun hin => ?_⟩
  · rcases hor with hin | hfin'
    · exact absurd (List.mem_cons_of_mem Pc.low (List.mem_cons_of_mem Pc.high hin)) hpc
    · exact absurd (hfin.symm.trans hfin') Bool.false_ne_true
  · rcases List.mem_pair.mp hin with h | h
    · exact absurd h (hno _ (by decide))
    · exact absurd h (hno _ (by decide))

theorem PushBox.Reads.of_low (hpc : s.pc = .low) (hfin : s.finish_flag = false)
    (hwaits : Debounce.Waits not 11 ls) (htick : s.gpio_tick = streak not ls) (hdrive : s.Ahead) :
    s.Reads ls := by
  refine ⟨fun hno => absurd ?_ hno, fun _ => ⟨hwaits, htick⟩, fun h => ?_, fun hor => ?_,
    fun _ => hdrive⟩
  · rw [hpc]
    decide
  · exact Pc.noConfusion (hpc.symm.trans h)
  · rw [hpc, hfin] at hor
    exact absurd hor (by decide)

theorem PushBox.Reads.of_high {lows highs : List Bool} (hpc : s.pc = .high)
    (hfin : s.finish_flag = false) (hlows : Debounce.Ends not 11 lows)
    (hwaits : Debounce.Waits id 11 highs)
    (htick : s.gpio_tick = streak id highs) (hdrive : s.Ahead) : s.Reads (lows ++ highs) := by
  refine ⟨fun hno => absurd ?_ hno, fun h => ?_, fun _ => ⟨lows, highs, rfl, hlows, hwaits, htick⟩,
    fun hor => ?_, fun _ => hdrive⟩
  · rw [hpc]
    decide
  · exact Pc.noConfusion (hpc.symm.trans h)
  · rw [hpc, hfin] at hor
    exact absurd hor (by decide)

theorem PushBox.Reads.of_after (hpc : s.pc ∉ [Pc.low, .high])
    (hor : s.pc ∈ Pc.driven ∨ s.finish_flag = true) (hcrossed : Crossed ls) : s.Reads ls := by
  refine ⟨fun hno hfin => ?_, fun h => ?_, fun h => ?_, fun _ => hcrossed, fun h => absurd h hpc⟩
  · rcases hor with hin | hfin'
    · exact absurd (List.mem_cons_of_mem Pc.low (List.mem_cons_of_mem Pc.high hin)) hno
    · exact absurd (hfin.symm.trans hfin') Bool.false_ne_true
  · rw [h] at hpc
    exact absurd (by decide) hpc
  · rw [h] at hpc
    exact absurd (by decide) hpc

/-! ### Steps -/

omit [CFloat R] in
/-- What a pass of the loops reads. -/
theorem PushBox.level_eq (hpc : s.pc ∈ [Pc.low, .high]) (i : PushInput) :
    s.level (.thread i) = if s.gpio_tick ≤ 10 then some i.gpio else none := by
  rw [level]
  simp only [hpc, true_and]

/-- **The first loop** reads on, or has seen enough: `gpio_tick` counts the low levels in a row, so
    the tenth lets it read once more and the eleventh ends it. -/
theorem PushBox.Reads.low_step (h : s.Reads ls) (hfin : s.finish_flag = false) (hpc : s.pc = .low)
    (i : PushInput) : (s.thread i).Reads (ls ++ (s.level (.thread i)).toList) := by
  obtain ⟨hwaits, htick⟩ := h.low hpc
  have hin : s.pc ∈ [Pc.low, .high] := by
    rw [hpc]
    decide
  have hdrive := h.drive hin
  rw [level_eq hin, thread, hpc]
  dsimp only
  by_cases hlt : s.gpio_tick ≤ 10
  · rw [if_pos hlt, if_pos hlt]
    refine Reads.of_low rfl hfin (hwaits.concat (by omega) i.gpio) ?_ hdrive
    show (if i.gpio = true then 0 else s.gpio_tick + 1) = streak not (ls ++ [i.gpio])
    rw [streak_concat, htick]
    cases i.gpio <;> rfl
  · rw [if_neg hlt, if_neg hlt, Option.toList_none, List.append_nil]
    have hends : Debounce.Ends not 11 ls := ⟨hwaits, by omega⟩
    have hhigh : (ls ++ []) = ls := List.append_nil ls
    rw [← hhigh]
    exact Reads.of_high rfl hfin hends waits_nil streak_nil.symm hdrive

/-- **The second loop** likewise, counting the high levels from zero; what the first one has read
    stays in front. -/
theorem PushBox.Reads.high_step (h : s.Reads ls) (hfin : s.finish_flag = false)
    (hpc : s.pc = .high) (i : PushInput) :
    (s.thread i).Reads (ls ++ (s.level (.thread i)).toList) := by
  obtain ⟨lows, highs, rfl, hlows, hwaits, htick⟩ := h.high hpc
  have hin : s.pc ∈ [Pc.low, .high] := by
    rw [hpc]
    decide
  have hdrive := h.drive hin
  rw [level_eq hin, thread, hpc]
  dsimp only
  by_cases hlt : s.gpio_tick ≤ 10
  · rw [if_pos hlt, if_pos hlt, List.append_assoc]
    refine Reads.of_high rfl hfin hlows (hwaits.concat (by omega) i.gpio) ?_ hdrive
    show (if i.gpio = true then s.gpio_tick + 1 else 0) = streak id (highs ++ [i.gpio])
    rw [streak_concat, htick]
    cases i.gpio <;> rfl
  · rw [if_neg hlt, if_neg hlt, Option.toList_none, List.append_nil]
    exact Reads.of_after (show Pc.pushStop ∉ _ by decide)
      (Or.inl (show Pc.pushStop ∈ _ by decide)) ⟨lows, highs, rfl, hlows, hwaits, by omega⟩

/-- **A step of the task**, by where it is.  Only the two loops read a level; the push enters the
    first with nothing read, and no step from behind the loops leads back to them. -/
theorem PushBox.Reads.thread (h : s.Reads ls) (ht : Told s)
    (hon : s.pc ≠ .start → s.motion.car.Car_BootSwitch = true) (i : PushInput) :
    (s.thread i).Reads (ls ++ (s.level (.thread i)).toList) := by
  have hnext := s.thread_pc i
  have hflag := s.thread_finish_flag i
  have hnone : s.pc ∉ [Pc.low, .high] → ls ++ (s.level (.thread i)).toList = ls := by
    intro hpc
    rw [level, if_neg fun hand => hpc hand.1, Option.toList_none, List.append_nil]
  by_cases hfin : s.finish_flag = true
  · -- `finish` has been passed
    obtain ⟨φ, c, d, hstory⟩ := ht
    obtain rfl := hstory.finish.mp hfin
    have hpc : s.pc ∈ Chapter.finished.pcs := hstory.pc
    have hin : ∀ pc ∈ Chapter.finished.pcs, pc ∉ [Pc.low, .high] ∧ pc ≠ .finish ∧
        ∀ pc' ∈ pc.next, pc' ∈ [Pc.image] ++ Chapter.finished.pcs := by decide
    obtain ⟨hlow, hne, hstay⟩ := hin _ hpc
    rw [hnone hlow]
    refine Reads.of_after ?_ (Or.inr ?_) (h.after (Or.inr hfin))
    · exact (show ∀ pc ∈ [Pc.image] ++ Chapter.finished.pcs, pc ∉ [Pc.low, .high] by decide) _
        (hstay _ hnext)
    · rw [hflag]
      split
      · rfl
      · exact hfin
  · have hfin : s.finish_flag = false := Bool.eq_false_iff.mpr hfin
    by_cases hlow : s.pc = .low
    · exact h.low_step hfin hlow i
    by_cases hhigh : s.pc = .high
    · exact h.high_step hfin hhigh i
    by_cases hahead : s.pc = .ahead
    · have hno : s.pc ∉ [Pc.low, .high] := by
        rw [hahead]
        decide
      have hbefore : s.pc ∉ Chapter.pushed.pcs := by
        rw [hahead]
        decide
      rw [hnone hno, h.before hbefore hfin, PushBox.thread, hahead]
      refine Reads.of_low rfl hfin waits_nil streak_nil.symm ?_
      show (Car_Change_Speed _ _ _ s.motion.car).Car_Speed.Vx = _ ∧
        (Car_Change_Speed _ _ _ s.motion.car).Car_Speed.Vy = _
      rw [Car_Change_Speed, if_pos (hon (by rw [hahead]; decide))]
      exact ⟨rfl, rfl⟩
    by_cases hdriven : s.pc ∈ Pc.driven
    · have hin : ∀ pc ∈ Pc.driven, pc ∉ [Pc.low, .high] ∧
          ∀ pc' ∈ pc.next, pc' ∉ [Pc.low, .high] ∧ (pc' ∈ Pc.driven ∨ pc = .finish) := by decide
      obtain ⟨hno, hstay⟩ := hin _ hdriven
      obtain ⟨hno', hor⟩ := hstay _ hnext
      rw [hnone hno]
      refine Reads.of_after hno' (hor.imp_right fun hpc => ?_) (h.after (Or.inl hdriven))
      rw [hflag, hpc]
    · have hin : ∀ pc, pc ∉ Pc.driven → pc ≠ .low → pc ≠ .high → pc ≠ .ahead →
          pc ∉ [Pc.low, .high] ∧ pc ∉ Chapter.pushed.pcs ∧ pc ≠ .finish ∧
            ∀ pc' ∈ pc.next, pc' ∉ Chapter.pushed.pcs := by
        intro pc
        cases pc <;> decide
      obtain ⟨hno, hbefore, hne, hstay⟩ := hin _ hdriven hlow hhigh hahead
      rw [hnone hno, h.before hbefore hfin]
      refine Reads.of_before (hstay _ hnext) ?_
      rw [hflag]
      split
      · rename_i hpc
        exact absurd hpc hne
      · exact hfin

/-- **What is no step of the task** reads nothing and leaves the car on its way: the control period
    writes the rotation and the motors, never the two speeds that the push has set. -/
theorem PushBox.Reads.sameTask {s' : PushBox R} (h : s.Reads ls) (hs : SameTask s s') :
    s'.Reads ls := by
  refine ⟨fun hpc hfin => ?_, fun hpc => ?_, fun hpc => ?_, fun hor => ?_, fun hpc => ?_⟩
  · exact h.before (hs.pc ▸ hpc) (hs.finish_flag.symm.trans hfin)
  · rw [hs.gpio_tick]
    exact h.low (hs.pc.symm.trans hpc)
  · rw [hs.gpio_tick]
    exact h.high (hs.pc.symm.trans hpc)
  · rw [hs.pc, hs.finish_flag] at hor
    exact h.after hor
  · have hdrive := h.drive (hs.pc ▸ hpc)
    exact ⟨hs.Vx.trans hdrive.1, hs.Vy.trans hdrive.2⟩

end

/-- From its first step on the switch is on. -/
theorem PushBox.enter_on (s : PushBox R) (as : List (PushBox.Action R)) :
    (s.enter.run as).pc ≠ .start → (s.enter.run as).motion.car.Car_BootSwitch = true := by
  induction as using List.reverseRecOn with
  | nil => exact fun hpc => absurd rfl hpc
  | append_singleton as a ih =>
    rw [run_concat]
    by_cases ha : ∃ i, a = .thread i
    · obtain ⟨i, rfl⟩ := ha
      intro _
      show ((s.enter.run as).thread i).motion.car.Car_BootSwitch = true
      by_cases hstart : (s.enter.run as).pc = .start
      · rw [PushBox.thread, hstart]
        rfl
      · exact thread_on (ih hstart) i
    · have hsame := (s.enter.run as).act_sameTask fun i hi => ha ⟨i, hi⟩
      rw [hsame.pc, hsame.on]
      exact ih

/-- **In every run** the levels are what the task has made of them, by induction on the run.
    `Told` says from where each place can be reached, and that the switch is on makes the command
    to drive ahead one that is carried out. -/
theorem PushBox.enter_reads (s : PushBox R) (as : List (PushBox.Action R)) :
    (s.enter.run as).Reads (s.enter.levels as) := by
  induction as using List.reverseRecOn with
  | nil => exact Reads.of_before (show Pc.start ∉ _ by decide) rfl
  | append_singleton as a ih =>
    rw [run_concat, levels_concat]
    by_cases ha : ∃ i, a = .thread i
    · obtain ⟨i, rfl⟩ := ha
      exact ih.thread (s.enter_told as) (s.enter_on as) i
    · have hnot : ∀ i, a ≠ .thread i := fun i hi => ha ⟨i, hi⟩
      have hnone : (s.enter.run as).level a = none := by
        cases a with
        | thread i => exact absurd rfl (hnot i)
        | _ => rfl
      rw [hnone, Option.toList_none, List.append_nil]
      exact ih.sameTask (act_sameTask hnot)

/-- While the loops run, the car has not crossed before the last level. -/
theorem PushBox.Reads.not_crossed {ls pre : List Bool} (h : s.Reads ls)
    (hpc : s.pc ∈ [Pc.low, .high]) (hpre : pre <+: ls) (hne : pre ≠ ls) : ¬ Crossed pre := by
  rintro ⟨lows, highs, rfl, hlows, hhighs⟩
  have hlows_pre : lows <+: ls := (List.prefix_append lows highs).trans hpre
  rcases List.mem_pair.mp hpc with hpc | hpc
  · obtain ⟨hwaits, -⟩ := h.low hpc
    refine hwaits.not_ends hlows_pre (fun heq => hne ?_) hlows
    exact hpre.eq_of_length_le (heq ▸ (List.prefix_append lows highs).length_le)
  · obtain ⟨lows', highs', rfl, hlows', hwaits, -⟩ := h.high hpc
    -- the first loop ended at the same level
    obtain rfl := hlows.unique hlows' hlows_pre (List.prefix_append lows' highs')
    have hhighs_pre := (List.prefix_append_right_inj lows).mp hpre
    exact hwaits.not_ends hhighs_pre (fun heq => hne (congrArg _ heq)) hhighs

/-- **The drive** — in every run of the task, whatever the interrupts bring: while `push_box` waits at
    the pin the car is told to drive ahead, and the levels before the last one do not end with the
    crossing, low eleven times in a row and then high eleven times in a row; when it brakes, and ever
    after, the levels that it has read do. -/
theorem push_box_drive (s : PushBox R) (as : List (PushBox.Action R)) :
    ((s.enter.run as).pc ∈ [Pc.low, .high] → (s.enter.run as).Ahead ∧
      ∀ pre, pre <+: s.enter.levels as → pre ≠ s.enter.levels as → ¬ Crossed pre) ∧
    ((s.enter.run as).pc ∈ Pc.driven ∨ (s.enter.run as).finish_flag = true →
      Crossed (s.enter.levels as)) := by
  have h := s.enter_reads as
  exact ⟨fun hpc => ⟨h.drive hpc, fun pre hpre hne => h.not_crossed hpc hpre hne⟩, h.after⟩

end

end Car2025
