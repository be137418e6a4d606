/-
  Rows that a loop fills, one after the other.

  `Fill.up` and `Fill.down` say what a loop has left after `n` rows from row `i` on; a pass of the loop
  fills row `i` and leaves the rest to the passes to come (`up_succ`, `down_succ`).
-/
import Mathlib

namespace Fill

variable {α : Type}

/-- The `n` rows from row `i` up hold `f`. -/
def up (f b : ℤ → α) (i : ℤ) (n : ℕ) : ℤ → α := fun r => if i ≤ r ∧ r < i + n then f r else b r

/-- The `n` rows from row `i` down hold `f`. -/
def down (f b : ℤ → α) (i : ℤ) (n : ℕ) : ℤ → α := fun r => if i - n < r ∧ r ≤ i then f r else b r

@[simp] theorem up_zero (f b : ℤ → α) (i : ℤ) : up f b i 0 = b := by
  funext r
  exact if_neg (by push_cast; omega)

@[simp] theorem down_zero (f b : ℤ → α) (i : ℤ) : down f b i 0 = b := by
  funext r
  exact if_neg (by push_cast; omega)

/-- **One row** of a loop that goes up. -/
theorem up_succ (f b : ℤ → α) (i : ℤ) (n : ℕ) :
    up f (Function.update b i (f i)) (i + 1) n = up f b i (n + 1) := by
  funext r
  rw [up, up]
  push_cast
  by_cases hr : r = i
  · rw [if_neg (by omega), if_pos (by omega), hr, Function.update_self]
  · rw [Function.update_of_ne hr]
    exact if_congr (by omega) rfl rfl

/-- **One row** of a loop that goes down. -/
theorem down_succ (f b : ℤ → α) (i : ℤ) (n : ℕ) :
    down f (Function.update b i (f i)) (i - 1) n = down f b i (n + 1) := by
  funext r
  rw [down, down]
  push_cast
  by_cases hr : r = i
  · rw [if_neg (by omega), if_pos (by omega), hr, Function.update_self]
  · rw [Function.update_of_ne hr]
    exact if_congr (by omega) rfl rfl

end Fill
