/-
  Waiting for a level to settle: a loop reads samples and counts those in a row that satisfy a test, and
  ends when there are enough of them.

  1. **Count (`streak`)** — the samples at the end that satisfy the test; one more sample continues them
     or starts anew.

  2. **Loop (`Waits`, `Ends`)** — the samples that a loop has read, while it runs and when it ends.  It
     ends only once (`Ends.unique`).
-/
import Mathlib

namespace Debounce

variable {α : Type} {p : α → Bool} {n : ℕ} {xs ys zs : List α}

/-! ## Count -/

/-- The number of samples at the end that satisfy the test. -/
def streak (p : α → Bool) (xs : List α) : ℕ := (xs.rtakeWhile p).length

@[simp] theorem streak_nil : streak p [] = 0 := by
  rw [streak, List.rtakeWhile_nil, List.length_nil]

theorem streak_concat (p : α → Bool) (xs : List α) (x : α) :
    streak p (xs ++ [x]) = if p x then streak p xs + 1 else 0 := by
  rw [streak, List.rtakeWhile_concat]
  split
  · rw [List.length_append, List.length_singleton, streak]
  · rfl

/-! ## Loop -/

/-- The loop has not ended before the last sample. -/
def Waits (p : α → Bool) (n : ℕ) (xs : List α) : Prop :=
  ∀ pre, pre <+: xs → pre ≠ xs → streak p pre < n

/-- The loop ends with the last sample: there were not enough in a row before it, and now there
    are. -/
structure Ends (p : α → Bool) (n : ℕ) (xs : List α) : Prop where
  waits : Waits p n xs
  enough : n ≤ streak p xs

theorem waits_nil : Waits p n [] := fun _ hpre hne => absurd (List.prefix_nil.mp hpre) hne

/-- The loop reads one more sample. -/
theorem Waits.concat (h : Waits p n xs) (hlt : streak p xs < n) (x : α) : Waits p n (xs ++ [x]) := by
  intro pre hpre hne
  rcases List.prefix_concat_iff.mp hpre with heq | hpre
  · exact absurd heq hne
  · by_cases hxs : pre = xs
    · rw [hxs]
      exact hlt
    · exact h pre hpre hxs

/-- A loop that waits has not ended before. -/
theorem Waits.not_ends (h : Waits p n xs) (hpre : ys <+: xs) (hne : ys ≠ xs) : ¬ Ends p n ys :=
  fun hends => absurd hends.enough (not_le.mpr (h ys hpre hne))

/-- **A loop ends once**: of the samples that are there to read, it reads a fixed part. -/
theorem Ends.unique (h : Ends p n xs) (h' : Ends p n ys) (hxs : xs <+: zs) (hys : ys <+: zs) :
    xs = ys := by
  -- of two ends the longer one has the shorter before it, where it would have ended already
  rcases List.prefix_or_prefix_of_prefix hxs hys with hpre | hpre
  · by_contra hne
    exact h'.waits.not_ends hpre hne h
  · by_contra hne
    exact h.waits.not_ends hpre (Ne.symm hne) h'

end Debounce
