/-
  Rate limiting: a value that follows a target by steps of bounded size.

  1. **Step (`slew`)** — one step of size `rate` toward the target, or onto it when it is nearer.

  2. **One step** stays between the old value and the target, and takes exactly `rate` off the
     distance as long as there is that much of it (`abs_sub_slew`).

  3. **Ramp (`abs_sub_iterate`)** — so `n` steps take `n * rate` off, and the target is reached after
     `⌈distance / rate⌉` of them and kept.
-/
import Mathlib

namespace Slew

variable {α : Type} [Field α] [LinearOrder α] {rate target x lo hi : α}

/-- One step toward the target. -/
def slew (rate target x : α) : α :=
  if rate ≤ target - x then x + rate
  else if rate ≤ -(target - x) then x - rate
  else target

/-! ## One step -/

theorem slew_of_le (h : rate ≤ target - x) : slew rate target x = x + rate := if_pos h

variable [IsStrictOrderedRing α]

theorem slew_of_le_neg (hr : 0 < rate) (h : rate ≤ -(target - x)) :
    slew rate target x = x - rate := by
  rw [slew, if_neg (by linarith), if_pos h]

theorem slew_of_abs_lt (h : |target - x| < rate) : slew rate target x = target := by
  obtain ⟨h1, h2⟩ := abs_lt.mp h
  rw [slew, if_neg (by linarith), if_neg (by linarith)]

/-- The three cases of a step. -/
theorem slew_cases (rate target x : α) :
    rate ≤ target - x ∨ rate ≤ -(target - x) ∨ |target - x| < rate := by
  rcases le_or_gt rate (target - x) with h | h
  · exact Or.inl h
  rcases le_or_gt rate (-(target - x)) with h' | h'
  · exact Or.inr (Or.inl h')
  · exact Or.inr (Or.inr (abs_lt.mpr ⟨by linarith, h⟩))

/-- A step is at most `rate` long. -/
theorem abs_slew_sub_le (hr : 0 < rate) (target x : α) : |slew rate target x - x| ≤ rate := by
  rcases slew_cases rate target x with h | h | h
  · rw [slew_of_le h, add_sub_cancel_left, abs_of_pos hr]
  · rw [slew_of_le_neg hr h, sub_sub_cancel_left, abs_neg, abs_of_pos hr]
  · rw [slew_of_abs_lt h]
    exact h.le

/-- A step does not leave an interval that holds the value and the target. -/
theorem le_slew (hr : 0 < rate) (hx : lo ≤ x) (ht : lo ≤ target) : lo ≤ slew rate target x := by
  rcases slew_cases rate target x with h | h | h
  · rw [slew_of_le h]
    linarith
  · rw [slew_of_le_neg hr h]
    linarith
  · rw [slew_of_abs_lt h]
    exact ht

theorem slew_le (hr : 0 < rate) (hx : x ≤ hi) (ht : target ≤ hi) : slew rate target x ≤ hi := by
  rcases slew_cases rate target x with h | h | h
  · rw [slew_of_le h]
    linarith
  · rw [slew_of_le_neg hr h]
    linarith
  · rw [slew_of_abs_lt h]
    exact ht

/-- **A step takes `rate` off the distance**, down to zero; it never passes the target. -/
theorem abs_sub_slew (hr : 0 < rate) (target x : α) :
    |target - slew rate target x| = max (|target - x| - rate) 0 := by
  rcases slew_cases rate target x with h | h | h
  · have hd : 0 ≤ target - x := by linarith
    rw [slew_of_le h, abs_of_nonneg hd, abs_of_nonneg (by linarith), max_eq_left (by linarith)]
    ring
  · have hd : target - x ≤ 0 := by linarith
    rw [slew_of_le_neg hr h, abs_of_nonpos hd, abs_of_nonpos (by linarith),
      max_eq_left (by linarith)]
    ring
  · rw [slew_of_abs_lt h, sub_self, abs_zero, max_eq_right (by linarith)]

/-! ## Ramps -/

/-- **`n` steps take `n * rate` off the distance**, by induction on `n`. -/
theorem abs_sub_iterate (hr : 0 < rate) (target x : α) (n : ℕ) :
    |target - (slew rate target)^[n] x| = max (|target - x| - n * rate) 0 := by
  induction n with
  | zero =>
    rw [Nat.cast_zero, zero_mul, sub_zero, max_eq_left (abs_nonneg _)]
    rfl
  | succ n ih =>
    rw [Function.iterate_succ_apply', abs_sub_slew hr, ih, Nat.cast_succ]
    rcases le_total (|target - x| - n * rate) 0 with h | h
    · rw [max_eq_right h, max_eq_right (by linarith), max_eq_right (by linarith)]
    · rw [max_eq_left h]
      ring_nf

/-- The target is reached after `⌈distance / rate⌉` steps, and kept. -/
theorem iterate_eq [FloorSemiring α] (hr : 0 < rate) {n : ℕ} (hn : ⌈|target - x| / rate⌉₊ ≤ n) :
    (slew rate target)^[n] x = target := by
  have hdist : |target - x| ≤ n * rate := (div_le_iff₀ hr).mp (Nat.ceil_le.mp hn)
  have hzero := abs_sub_iterate hr target x n
  rw [max_eq_right (by linarith), abs_eq_zero, sub_eq_zero] at hzero
  exact hzero.symm

end Slew
