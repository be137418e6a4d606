/-
  A program seen from far off: the moves of an abstract machine, and the steps that it does not see.

  1. **Paths (`Path`)** — while actions are taken the machine makes a move that the action may cause, or
     stays.

  2. **Refinement (`Path.of_steps`)** — where each step of a program is a move of the machine or none, its
     runs are paths of the machine.

  3. **Order (`Path.rank_le`)** — a rank that no move lowers is never lowered.
-/
import Mathlib
import Car2025.Lib.Runs

namespace Refine

open Runs

variable {A : Type} {M : Type*} {Move : A → M → M → Prop} {m m' : M} {as : List A}

/-- The machine goes from one place to another while these actions are taken. -/
inductive Path (Move : A → M → M → Prop) (m : M) : List A → M → Prop
  | start : Path Move m [] m
  | stay {as : List A} {m' : M} (a : A) (h : Path Move m as m') : Path Move m (as ++ [a]) m'
  | move {as : List A} {a : A} {m' m'' : M} (h : Path Move m as m') (hmove : Move a m' m'') :
      Path Move m (as ++ [a]) m''

/-- A step of the program is a move of the machine, or it is not seen. -/
def Seen (Move : A → M → M → Prop) (a : A) (m m' : M) : Prop := m' = m ∨ Move a m m'

/-- **Refinement**, by induction on the run from its end: if each step of the run is seen as a
    move, the run is a path of them. -/
theorem Path.of_steps {stage : List A → M}
    (h : EachStep (fun pre a => Seen Move a (stage pre) (stage (pre ++ [a]))) as) :
    Path Move (stage []) as (stage as) := by
  induction as using List.reverseRecOn with
  | nil => exact .start
  | append_singleton as a ih =>
    obtain ⟨hall, hlast⟩ := eachStep_concat.mp h
    rcases hlast with heq | hmove
    · rw [heq]
      exact (ih hall).stay a
    · exact (ih hall).move hmove

/-- **Order** along a path: a rank that no move lowers is not lowered by any of them together. -/
theorem Path.rank_le {rank : M → ℕ} (hrank : ∀ a m m', Move a m m' → rank m ≤ rank m')
    (h : Path Move m as m') : rank m ≤ rank m' := by
  induction h with
  | start => exact le_rfl
  | stay a h ih => exact ih
  | move h hmove ih => exact ih.trans (hrank _ _ _ hmove)

end Refine
