/-
  The first-order low-pass filter: a value that moves by a fixed part of the way toward every sample.

  1. **Step (`step`)** — the new value is a mean of the old one and the sample, with the weights `1 - a`
     and `a`.

  2. **Bounds (`filter_mem`)** — so the value never leaves an interval that holds it and the samples.

  3. **Response (`filter_sub_filter`)** — what the filter started from is forgotten by the factor
     `1 - a` a sample, and samples that stay close to a value draw the filter close to it
     (`abs_filter_sub_le`).
-/
import Mathlib

namespace LowPass

variable {α : Type} [Field α]

/-- The value after a sample. -/
def step (a y x : α) : α := (1 - a) * y + a * x

/-- The value after a sequence of samples. -/
def filter (a y : α) (xs : List α) : α := xs.foldl (step a) y

theorem filter_concat (a y : α) (xs : List α) (x : α) :
    filter a y (xs ++ [x]) = step a (filter a y xs) x := by
  rw [filter, List.foldl_append, List.foldl_cons, List.foldl_nil, filter]

theorem filter_append (a y : α) (xs ys : List α) :
    filter a y (xs ++ ys) = filter a (filter a y xs) ys := List.foldl_append

/-- **The start is forgotten**: two filters that see the same samples come together, by the same
    factor with each of them. -/
theorem filter_sub_filter (a y y' : α) (xs : List α) :
    filter a y xs - filter a y' xs = (1 - a) ^ xs.length * (y - y') := by
  induction xs using List.reverseRecOn with
  | nil =>
    rw [List.length_nil, pow_zero, one_mul]
    rfl
  | append_singleton xs x ih =>
    -- the sample cancels out, and the rest of the difference shrinks by the factor
    calc filter a y (xs ++ [x]) - filter a y' (xs ++ [x])
        = (1 - a) * (filter a y xs - filter a y' xs) := by
          rw [filter_concat, filter_concat, step, step]
          ring
      _ = (1 - a) ^ (xs ++ [x]).length * (y - y') := by
          rw [ih, List.length_append, List.length_singleton, pow_succ]
          ring

variable [LinearOrder α] [IsStrictOrderedRing α] {a y x lo hi : α}

/-! ## Bounds -/

theorem le_step (h0 : 0 ≤ a) (h1 : a ≤ 1) (hy : lo ≤ y) (hx : lo ≤ x) : lo ≤ step a y x := by
  calc lo = (1 - a) * lo + a * lo := by ring
    _ ≤ (1 - a) * y + a * x :=
      add_le_add (mul_le_mul_of_nonneg_left hy (sub_nonneg.mpr h1)) (mul_le_mul_of_nonneg_left hx h0)

theorem step_le (h0 : 0 ≤ a) (h1 : a ≤ 1) (hy : y ≤ hi) (hx : x ≤ hi) : step a y x ≤ hi := by
  calc (1 - a) * y + a * x ≤ (1 - a) * hi + a * hi :=
      add_le_add (mul_le_mul_of_nonneg_left hy (sub_nonneg.mpr h1)) (mul_le_mul_of_nonneg_left hx h0)
    _ = hi := by ring

/-- **The filter stays between its samples**, as each value is a mean of the one before and the
    sample. -/
theorem filter_mem (h0 : 0 ≤ a) (h1 : a ≤ 1) (hy : y ∈ Set.Icc lo hi) {xs : List α}
    (hxs : ∀ x ∈ xs, x ∈ Set.Icc lo hi) : filter a y xs ∈ Set.Icc lo hi := by
  induction xs using List.reverseRecOn with
  | nil => exact hy
  | append_singleton xs x ih =>
    have hold := ih fun x hx => hxs x (List.mem_append_left _ hx)
    have hx := hxs x (List.mem_append_right _ List.mem_cons_self)
    rw [filter_concat]
    exact ⟨le_step h0 h1 hold.1 hx.1, step_le h0 h1 hold.2 hx.2⟩

/-! ## Response -/

/-- **Samples close to `c`** draw the filter close to `c`: what is left of the start has shrunk
    geometrically, and the samples add no more than their own distance. -/
theorem abs_filter_sub_le (h0 : 0 ≤ a) (h1 : a ≤ 1) {c d : α} (hd : 0 ≤ d) {xs : List α}
    (hxs : ∀ x ∈ xs, |x - c| ≤ d) :
    |filter a y xs - c| ≤ (1 - a) ^ xs.length * |y - c| + d := by
  -- compare with the filter that starts at `c`, which stays within `d` of it
  have hforgot := filter_sub_filter a y c xs
  have hnear : filter a c xs ∈ Set.Icc (c - d) (c + d) := by
    refine filter_mem h0 h1 ⟨sub_le_self c hd, le_add_of_nonneg_right hd⟩ fun x hx => ?_
    have hx := abs_le.mp (hxs x hx)
    exact ⟨neg_le_sub_iff_le_add'.mp hx.1 |> sub_le_iff_le_add'.mpr, sub_le_iff_le_add'.mp hx.2⟩
  have hnear : |filter a c xs - c| ≤ d :=
    abs_le.mpr ⟨neg_le_sub_iff_le_add.mpr (sub_le_iff_le_add.mp hnear.1),
      sub_le_iff_le_add'.mpr hnear.2⟩
  calc |filter a y xs - c|
      = |(filter a y xs - filter a c xs) + (filter a c xs - c)| := by rw [sub_add_sub_cancel]
    _ ≤ |filter a y xs - filter a c xs| + |filter a c xs - c| := abs_add_le _ _
    _ ≤ (1 - a) ^ xs.length * |y - c| + d := by
      rw [hforgot, abs_mul, abs_of_nonneg (pow_nonneg (sub_nonneg.mpr h1) _)]
      exact add_le_add le_rfl hnear

end LowPass
