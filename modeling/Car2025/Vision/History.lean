/-
  What the counts and the stored yaw of a circle say about the frames that are past.

  1. **Memory (`Stage.Remembers`)** — the count of lost frames is a streak of frames that were lost and
     stayed in state 1; the count of the watch is a streak of watched frames without a straight
     opposite border; the stored yaw is the one of the frame that entered the state.

  2. **Step and run (`Stage.Moves.remembers`, `Progress.after_remembers`)** — each move of a circle
     carries the memory on, so every circle of a run has it, whatever came before.

  3. **Ends of a state** — what the memory says at the frames that leave a state.
-/
import Mathlib
import Car2025.Lib.Past
import Car2025.Vision.Progress

namespace Car2025

open RoadSymbol_type Circule Past

/-! ## Memory -/

/-- The states in which the opposite border is watched. -/
def Circule.Watched (state : Circule) : Prop := state = Circule_State1 ∨ state = Circule_State2

section

variable {R : Type} [CFloat R] (f : ℕ → Frame R)

/-- The state of the circle after `n` frames. -/
def stateAfter (n : ℕ) : Circule := (Progress.after f n).state

/-- A watched frame without a straight border opposite to `side`. -/
def Astray (side : Side) (k : ℕ) : Prop :=
  (stateAfter f k).Watched ∧ (f k).straight side.other = false

/-- A frame with nothing next to the car on `side`, that left the circle in state 1. -/
def Waited (side : Side) (k : ℕ) : Prop :=
  stateAfter f (k + 1) = Circule_State1 ∧ (f k).lost side = true

/-- Frame `m` went from state `before` to state `now`, which has lasted until frame `n`. -/
def EnteredAt (before now : Circule) (m n : ℕ) : Prop :=
  Since (fun k => stateAfter f k = now) (fun k => stateAfter f k = before) m n

/-- The yaw stored in a state is the one of the frame that entered it. -/
def StoredYaw (before now : Circule) (n : ℕ) (angle : R) : Prop :=
  ∃ m, EnteredAt f before now m n ∧ angle = (f m).inp.yaw_stored

def Stage.Remembers (side : Side) (n : ℕ) : Stage R → Prop
  | .state1 tick out_n => Streak (Waited f side) n tick ∧ Streak (Astray f side) n out_n
  | .state2 out_n => Streak (Astray f side) n out_n
  | .state3 angle => StoredYaw f Circule_State2 Circule_State3 n angle
  | .cor angle => StoredYaw f Circule_State3 Circule_Cor n angle
  | .out angle => StoredYaw f Circule_Cor Circule_out n angle

end

/-! ## Step -/

section

variable {R : Type} [CFloat R] {f : ℕ → Frame R} {side : Side} {n : ℕ}

/-- The watch goes on counting a streak. -/
theorem watch_streak {out_n out_n' : Fin 3} (h : Streak (Astray f side) n out_n)
    (hstate : (f n).straight side.other = false → (stateAfter f n).Watched)
    (hw : watch ((f n).straight side.other) out_n = some out_n') :
    Streak (Astray f side) (n + 1) out_n' := by
  rcases watch_eq_some hw with ⟨-, hout⟩ | ⟨hs, hout⟩
  · rw [hout]
    exact Streak.zero _ _
  · rw [hout]
    exact h.succ ⟨hstate hs, hs⟩

theorem StoredYaw.enter {before now : Circule} (hb : stateAfter f n = before)
    (hn : stateAfter f (n + 1) = now) :
    StoredYaw f before now (n + 1) (f n).inp.yaw_stored :=
  ⟨n, Since.here hb hn, rfl⟩

theorem StoredYaw.stay {before now : Circule} {angle : R} (h : StoredYaw f before now n angle)
    (hn : stateAfter f (n + 1) = now) : StoredYaw f before now (n + 1) angle := by
  obtain ⟨m, hm, hangle⟩ := h
  exact ⟨m, hm.next hn, hangle⟩

/-- **Step**: a move carries the memory on.  On the frame of the verdict the circle comes from no
    state, and the opposite border is straight. -/
theorem Stage.Moves.remembers {stage stage' : Stage R} (hm : Stage.Moves side (f n) stage stage')
    (h : stage.Remembers f side n)
    (hfrom : stateAfter f n = stage.state ∨
      stage.state = Circule_State1 ∧ (f n).straight side.other = true)
    (hto : stateAfter f (n + 1) = stage'.state) : stage'.Remembers f side (n + 1) := by
  -- past state 1 the circle comes from the state of its stage
  have hcome : stage.state ≠ Circule_State1 → stateAfter f n = stage.state :=
    fun hne => hfrom.resolve_right (fun h => hne h.1)
  have hwatched : stage.state = Circule_State1 → (f n).straight side.other = false →
      (stateAfter f n).Watched := by
    intro h1 hs
    rcases hfrom with hf | hf
    · exact Or.inl (hf.trans h1)
    · rw [hs] at hf
      cases hf.2
  cases hm with
  | clear hw hlost htick =>
    refine ⟨?_, watch_streak h.2 (hwatched rfl) hw⟩
    rw [htick]
    exact Streak.zero _ _
  | count hw hlost htick =>
    refine ⟨?_, watch_streak h.2 (hwatched rfl) hw⟩
    rw [htick]
    exact h.1.succ ⟨hto, hlost⟩
  | leave hw hlost htick => exact watch_streak h.2 (hwatched rfl) hw
  | start => exact StoredYaw.enter (hcome Circule.noConfusion) hto
  | turn3 hturn => exact StoredYaw.enter (hcome Circule.noConfusion) hto
  | turnCor hturn => exact StoredYaw.enter (hcome Circule.noConfusion) hto
  | stay3 => exact StoredYaw.stay h hto
  | stayCor => exact StoredYaw.stay h hto
  | stayOut => exact StoredYaw.stay h hto

/-! ## Run -/

/-- **Run**: every circle remembers, by induction on the frames.  What its counts and its yaw stand
    for is a statement about earlier frames, and a move of a frame carries it on. -/
theorem Progress.after_remembers (n : ℕ) : ∀ (side : Side) (stage : Stage R),
    Progress.after f n = .circule side stage → stage.Remembers f side n := by
  induction n with
  | zero =>
    intro side stage h
    cases h
  | succ n ih =>
    intro side stage h
    have hto : stateAfter f (n + 1) = stage.state := by rw [stateAfter, h]; rfl
    have hstep : (Progress.after f n).step (f n) = .circule side stage := h
    rcases Progress.step_eq_circule hstep with ⟨stage₀, hp, hm⟩ | ⟨-, hb, hm⟩
    · have hfrom : stateAfter f n = stage₀.state := by rw [stateAfter, hp]; rfl
      exact hm.remembers (ih side stage₀ hp) (Or.inl hfrom) hto
    · have hnew : (Stage.state1 0 0 : Stage R).Remembers f side n :=
        ⟨Streak.zero _ _, Streak.zero _ _⟩
      exact hm.remembers hnew (Or.inr ⟨rfl, hb.straight⟩) hto

/-! ## Ends of a state -/

/-- **Watched out**: a circle that ends in state 1 or 2 has gone astray for three frames: nothing
    but the watch ends it there, and the watch has counted them. -/
theorem astray_of_over {stage : Stage R} (hp : Progress.after f n = .circule side stage)
    (hw : stage.state.Watched) (hover : stateAfter f (n + 1) = Circule_Begin) :
    Streak (Astray f side) (n + 1) 3 := by
  have hrem := Progress.after_remembers n side stage hp
  have hstate : stateAfter f n = stage.state := by rw [stateAfter, hp]; rfl
  have hnone : stage.step side (f n) = none := by
    cases hs : stage.step side (f n) with
    | none => rfl
    | some stage' =>
      rw [stateAfter, Progress.after, hp, Progress.step, Progress.onCircule, hs] at hover
      exact absurd hover stage'.state_ne_begin
  rw [← hstate] at hw
  rcases Stage.step_eq_none hnone with ⟨tick, out_n, rfl, hwatch⟩ | ⟨out_n, rfl, hwatch⟩ |
    ⟨angle, rfl, -⟩
  · obtain ⟨hs, hout⟩ := watch_eq_none hwatch
    have h := hrem.2.succ ⟨hw, hs⟩
    rw [hout] at h
    exact h
  · obtain ⟨hs, hout⟩ := watch_eq_none hwatch
    have h : Streak (Astray f side) (n + 1) (out_n.val + 1) := Streak.succ hrem ⟨hw, hs⟩
    rw [hout] at h
    exact h
  · rw [hstate] at hw
    rcases hw with h | h <;> cases h

/-- A circle that is not over has moved, to a stage with the state that is seen after the frame. -/
theorem moves_of_ne_begin {stage : Stage R} (hp : Progress.after f n = .circule side stage)
    (hne : stateAfter f (n + 1) ≠ Circule_Begin) :
    ∃ stage', stateAfter f (n + 1) = stage'.state ∧ Stage.Moves side (f n) stage stage' := by
  cases hs : stage.step side (f n) with
  | none =>
    rw [stateAfter, Progress.after, hp, Progress.step, Progress.onCircule, hs] at hne
    exact absurd rfl hne
  | some stage' =>
    refine ⟨stage', ?_, Stage.step_eq_some hs⟩
    rw [stateAfter, Progress.after, hp, Progress.step, Progress.onCircule, hs]
    rfl

/-- **Forward from state 1**: after five lost frames in a row, of which the count remembers four
    and the fifth is this one. -/
theorem waited_of_forward {stage : Stage R} (hp : Progress.after f n = .circule side stage)
    (h1 : stage.state = Circule_State1) (h2 : stateAfter f (n + 1) = Circule_State2) :
    Streak (Waited f side) n 4 ∧ (f n).lost side = true := by
  have hrem := Progress.after_remembers n side stage hp
  obtain ⟨stage', hstate, hm⟩ := moves_of_ne_begin hp (by rw [h2]; exact Circule.noConfusion)
  rw [h2] at hstate
  cases hm with
  | leave hw hlost htick =>
    have h := hrem.1
    rw [htick] at h
    exact ⟨h, hlost⟩
  | start => cases h1
  | clear => cases hstate
  | count => cases hstate
  | turn3 => cases hstate
  | turnCor => cases hstate
  | stay3 => cases hstate
  | stayCor => cases hstate
  | stayOut => cases hstate

/-- **First turn**: measured from the yaw stored on leaving state 2, that is, by the frame that
    entered state 3. -/
theorem turned_of_cor {stage : Stage R} (hp : Progress.after f n = .circule side stage)
    (h3 : stage.state = Circule_State3) (h : stateAfter f (n + 1) = Circule_Cor) :
    ∃ m, EnteredAt f Circule_State2 Circule_State3 m n ∧
      turned 65 (f n).inp.yaw (f m).inp.yaw_stored = true := by
  have hrem := Progress.after_remembers n side stage hp
  obtain ⟨stage', hstate, hm⟩ := moves_of_ne_begin hp (by rw [h]; exact Circule.noConfusion)
  rw [h] at hstate
  cases hm with
  | turn3 hturn =>
    obtain ⟨m, hm, rfl⟩ := hrem
    exact ⟨m, hm, hturn⟩
  | stayCor => cases h3
  | clear => cases hstate
  | count => cases hstate
  | leave => cases hstate
  | start => cases hstate
  | turnCor => cases hstate
  | stay3 => cases hstate
  | stayOut => cases hstate

/-- **Second turn**: measured from the yaw stored on entering the corner, as each turn stores the
    yaw for the next one. -/
theorem turned_of_out {stage : Stage R} (hp : Progress.after f n = .circule side stage)
    (hc : stage.state = Circule_Cor) (h : stateAfter f (n + 1) = Circule_out) :
    ∃ m, EnteredAt f Circule_State3 Circule_Cor m n ∧
      turned 170 (f n).inp.yaw (f m).inp.yaw_stored = true := by
  have hrem := Progress.after_remembers n side stage hp
  obtain ⟨stage', hstate, hm⟩ := moves_of_ne_begin hp (by rw [h]; exact Circule.noConfusion)
  rw [h] at hstate
  cases hm with
  | turnCor hturn =>
    obtain ⟨m, hm, rfl⟩ := hrem
    exact ⟨m, hm, hturn⟩
  | stayOut => cases hc
  | clear => cases hstate
  | count => cases hstate
  | leave => cases hstate
  | start => cases hstate
  | turn3 => cases hstate
  | stay3 => cases hstate
  | stayCor => cases hstate

/-- **Last turn**: measured from the yaw stored on entering the way out; nothing else ends a circle
    from there. -/
theorem turned_of_exit {stage : Stage R} (hp : Progress.after f n = .circule side stage)
    (ho : stage.state = Circule_out) (h : stateAfter f (n + 1) = Circule_Begin) :
    ∃ m, EnteredAt f Circule_Cor Circule_out m n ∧
      turned_back 50 (f n).inp.yaw (f m).inp.yaw_stored = true := by
  have hrem := Progress.after_remembers n side stage hp
  cases hs : stage.step side (f n) with
  | some stage' =>
    rw [stateAfter, Progress.after, hp, Progress.step, Progress.onCircule, hs] at h
    exact absurd h stage'.state_ne_begin
  | none =>
    rcases Stage.step_eq_none hs with ⟨tick, out_n, rfl, -⟩ | ⟨out_n, rfl, -⟩ | ⟨angle, rfl, hturn⟩
    · cases ho
    · cases ho
    · obtain ⟨m, hm, rfl⟩ := hrem
      exact ⟨m, hm, hturn⟩

/-! ## The order of the states -/

/-- Where a frame can lead from a state. -/
def Circule.next : Circule → List Circule
  | Circule_Begin => [Circule_Begin, Circule_State1]
  | Circule_State1 => [Circule_State1, Circule_State2, Circule_Begin]
  | Circule_State2 => [Circule_State3, Circule_Begin]
  | Circule_State3 => [Circule_State3, Circule_Cor]
  | Circule_Cor => [Circule_Cor, Circule_out]
  | Circule_out => [Circule_out, Circule_Begin]
  | Circule_in => []
  | Circule_end => []

theorem Stage.Moves.order {f : Frame R} {stage stage' : Stage R}
    (hm : Stage.Moves side f stage stage') : stage'.state ∈ stage.state.next := by
  cases hm <;> simp [Stage.state, Circule.next]

/-- A circle begins in state 1: the fifth lost frame cannot be its first. -/
theorem Stage.Moves.first {f : Frame R} {stage' : Stage R}
    (hm : Stage.Moves side f (.state1 0 0) stage') : stage'.state = Circule_State1 := by
  cases hm with
  | clear => rfl
  | count => rfl
  | leave hw hlost htick => exact absurd htick (by decide)

/-- A circle ends from the states 1 and 2, by the watch, and from the way out, by the last turn. -/
theorem Stage.order_of_over {f : Frame R} {stage : Stage R} (h : stage.step side f = none) :
    Circule_Begin ∈ stage.state.next := by
  rcases Stage.step_eq_none h with ⟨tick, out_n, rfl, -⟩ | ⟨out_n, rfl, -⟩ | ⟨angle, rfl, -⟩
  · exact List.mem_of_elem_eq_true rfl
  · exact List.mem_of_elem_eq_true rfl
  · exact List.mem_of_elem_eq_true rfl

/-- **Order**: one frame stays in a state, goes on to the next one, or ends the circle where it may
    end.  Outside a circle the state is `Circule_Begin`, from which only the verdict leads away. -/
theorem stateAfter_order (n : ℕ) : stateAfter f (n + 1) ∈ (stateAfter f n).next := by
  have hstep : Progress.after f (n + 1) = (Progress.after f n).step (f n) := rfl
  rw [stateAfter, stateAfter, hstep]
  cases hp : Progress.after f n with
  | circule side stage =>
    rw [Progress.step, Progress.onCircule]
    cases hs : stage.step side (f n) with
    | none => exact Stage.order_of_over hs
    | some stage' => exact (Stage.step_eq_some hs).order
  | normal =>
    cases hq : Progress.step (f n) .normal with
    | normal => exact List.mem_of_elem_eq_true rfl
    | cross c => exact List.mem_of_elem_eq_true rfl
    | circule side stage' =>
      rcases Progress.step_eq_circule hq with ⟨stage, h, -⟩ | ⟨-, -, hm⟩
      · cases h
      · have h1 : (Progress.circule side stage').state = Circule_State1 := hm.first
        rw [h1]
        exact List.mem_of_elem_eq_true rfl
  | cross c =>
    cases hq : Progress.step (f n) (.cross c) with
    | normal => exact List.mem_of_elem_eq_true rfl
    | cross c => exact List.mem_of_elem_eq_true rfl
    | circule side stage' =>
      rcases Progress.step_eq_circule hq with ⟨stage, h, -⟩ | ⟨h, -⟩
      · cases h
      · cases h

/-- **Beginning**: a circle begins on a normal road, with the verdict of a circle; a crossing under
    way is not judged. -/
theorem begins_of_enter (h0 : stateAfter f n = Circule_Begin)
    (h1 : stateAfter f (n + 1) ≠ Circule_Begin) :
    Progress.after f n = .normal ∧
      ∃ side stage, Progress.after f (n + 1) = .circule side stage ∧ Begins (f n) side := by
  cases hq : Progress.after f (n + 1) with
  | normal =>
    rw [stateAfter, hq] at h1
    exact absurd rfl h1
  | cross c =>
    rw [stateAfter, hq] at h1
    exact absurd rfl h1
  | circule side stage' =>
    rcases Progress.step_eq_circule hq with ⟨stage, hp, -⟩ | ⟨hp, hb, -⟩
    · rw [stateAfter, hp] at h0
      exact absurd h0 stage.state_ne_begin
    · exact ⟨hp, side, stage', rfl, hb⟩

end

end Car2025
