/-
  Saturation: values that are limited, and sums that are limited after every addition.

  1. **Limit (`limit lo hi`)** — the first bound that is crossed is returned, as a cascade of
     comparisons does it; with `lo ≤ hi` it is the nearest value between the bounds.

  2. **Symmetric limits** commute with the change of sign; when a term that keeps its sign under it
     goes unnoticed is `limit_opposite_iff` (and `limit_opposite_inverted` where the bounds are
     exchanged).

  3. **Saturated sums (`total M`)** change their sign with their summands.
-/
import Mathlib

namespace Saturate

variable {α : Type} [LinearOrder α]

/-! ## Limits -/

/-- The value `x`, held between two bounds. -/
def limit (lo hi x : α) : α := if hi < x then hi else if x < lo then lo else x

section

variable {lo hi x : α}

theorem limit_of_lt (h : hi < x) : limit lo hi x = hi := if_pos h

theorem limit_of_gt (h : x ≤ hi) (hx : x < lo) : limit lo hi x = lo := by
  rw [limit, if_neg h.not_gt, if_pos hx]

theorem limit_of_mem (h : x ≤ hi) (hx : lo ≤ x) : limit lo hi x = x := by
  rw [limit, if_neg h.not_gt, if_neg hx.not_gt]

/-- **With ordered bounds** the limit is the nearest value between them, whichever bound is
    compared first. -/
theorem limit_eq (h : lo ≤ hi) (x : α) : limit lo hi x = max lo (min hi x) := by
  rcases lt_or_ge hi x with hx | hx
  · rw [limit_of_lt hx, min_eq_left hx.le, max_eq_right h]
  · rw [min_eq_right hx]
    rcases lt_or_ge x lo with hlo | hlo
    · rw [limit_of_gt hx hlo, max_eq_left hlo.le]
    · rw [limit_of_mem hx hlo, max_eq_right hlo]

/-- Two values have the same limit only outside the bounds, on one side. -/
theorem limit_eq_limit_iff {y : α} (h : lo < hi) (hxy : x < y) :
    limit lo hi x = limit lo hi y ↔ hi ≤ x ∨ y ≤ lo := by
  rw [limit_eq h.le, limit_eq h.le]
  constructor
  · intro heq
    by_contra hne
    rw [not_or, not_le, not_le] at hne
    obtain ⟨hx, hy⟩ := hne
    have hlt : max lo x < min hi y := max_lt (lt_min h hy) (lt_min hx hxy)
    rw [min_eq_right hx.le, max_eq_right (le_min h.le hy.le)] at heq
    exact hlt.ne heq
  · rintro (hx | hy)
    · rw [min_eq_left hx, min_eq_left (hx.trans hxy.le)]
    · rw [min_eq_right (hy.trans h.le), min_eq_right ((hxy.le.trans hy).trans h.le),
        max_eq_left hy, max_eq_left (hxy.le.trans hy)]

end

/-! ## Symmetric limits -/

section

variable [Field α] [IsStrictOrderedRing α] {M x p d : α}

/-- The order in which the bounds are tested does not matter. -/
theorem limit_two_tests (h : 0 ≤ M) (x : α) :
    (if (if M < x then M else x) < -M then -M else if M < x then M else x) = limit (-M) M x := by
  rcases lt_or_ge M x with hx | hx
  · rw [if_pos hx, if_neg (by linarith), limit_of_lt hx]
  · rw [if_neg hx.not_gt, limit, if_neg hx.not_gt]

theorem abs_limit_le (h : 0 ≤ M) (x : α) : |limit (-M) M x| ≤ M := by
  rw [limit_eq (by linarith), abs_le]
  exact ⟨le_max_left _ _, max_le (by linarith) (min_le_left _ _)⟩

theorem limit_eq_self_iff (h : 0 ≤ M) : limit (-M) M x = x ↔ |x| ≤ M := by
  constructor
  · intro heq
    rw [← heq]
    exact abs_limit_le h x
  · intro hx
    obtain ⟨h1, h2⟩ := abs_le.mp hx
    exact limit_of_mem h2 h1

theorem limit_neg (h : 0 ≤ M) (x : α) : limit (-M) M (-x) = -limit (-M) M x := by
  rcases lt_or_ge M x with hx | hx
  · rw [limit_of_lt hx]
    rcases eq_or_lt_of_le h with rfl | hM
    · rw [limit_of_gt (by linarith) (by linarith)]
    · rw [limit_of_gt (by linarith) (by linarith)]
  · rcases lt_or_ge x (-M) with hx' | hx'
    · rw [limit_of_gt hx hx', limit_of_lt (by linarith), neg_neg]
    · rw [limit_of_mem hx hx', limit_of_mem (by linarith) (by linarith)]

/-- **A term that does not change its sign**: with `0 ≤ M` the limited values are opposite exactly
    where there is no such term or both values lie beyond one bound. -/
theorem limit_opposite_iff (h : 0 ≤ M) :
    limit (-M) M (-p - d) = -limit (-M) M (p - d) ↔ d = 0 ∨ M = 0 ∨ M + |d| ≤ |p| := by
  rw [show -p - d = -(p + d) by ring, limit_neg h, neg_inj]
  rcases eq_or_lt_of_le h with rfl | hM
  · rw [limit_eq (neg_zero.le), limit_eq (neg_zero.le), neg_zero, max_eq_left (min_le_left 0 _),
      max_eq_left (min_le_left 0 _)]
    simp
  · have hbeyond : ∀ e : α, 0 < e →
        (limit (-M) M (p - e) = limit (-M) M (p + e) ↔ M + e ≤ |p|) := by
      intro e he
      rw [limit_eq_limit_iff (by linarith) (by linarith), le_abs]
      constructor
      · rintro (hp | hp)
        · exact Or.inl (by linarith)
        · exact Or.inr (by linarith)
      · rintro (hp | hp)
        · exact Or.inl (by linarith)
        · exact Or.inr (by linarith)
    rcases lt_trichotomy d 0 with hd | rfl | hd
    · have hd' := hbeyond (-d) (by linarith)
      rw [sub_neg_eq_add, ← sub_eq_add_neg] at hd'
      rw [hd', abs_of_neg hd]
      simp [hd.ne, hM.ne']
    · simp
    · rw [eq_comm, hbeyond d hd, abs_of_pos hd]
      simp [hd.ne', hM.ne']

/-- With exchanged bounds nothing lies between them, and it depends on where `M + d` lies. -/
theorem limit_opposite_inverted (h : M < 0) :
    limit (-M) M (-p - d) = -limit (-M) M (p - d) ↔
      if M + d < 0 then -(M + d) ≤ |p| else M + d < |p| := by
  -- With the bounds exchanged every value lies beyond one of them, so the result is a bound.
  have hside : ∀ x : α, limit (-M) M x = if M < x then M else -M := by
    intro x
    by_cases hx : M < x
    · rw [if_pos hx, limit_of_lt hx]
    · rw [if_neg hx, limit_of_gt (not_lt.mp hx) (by linarith [not_lt.mp hx])]
  have hself : M ≠ -M := by
    intro heq
    linarith
  rw [hside, hside]
  by_cases hq : M + d < 0
  · rw [if_pos hq, le_abs]
    by_cases h1 : M < -p - d
    · by_cases h2 : M < p - d
      · rw [if_pos h1, if_pos h2]
        exact ⟨fun heq => absurd heq hself, fun hp => by rcases hp with hp | hp <;> linarith⟩
      · rw [if_pos h1, if_neg h2, neg_neg]
        exact ⟨fun _ => Or.inr (by linarith), fun _ => rfl⟩
    · rw [if_neg h1, if_pos (by linarith)]
      exact ⟨fun _ => Or.inl (by linarith), fun _ => rfl⟩
  · rw [if_neg hq, lt_abs]
    by_cases h1 : M < -p - d
    · rw [if_pos h1, if_neg (by linarith), neg_neg]
      exact ⟨fun _ => Or.inr (by linarith), fun _ => rfl⟩
    · by_cases h2 : M < p - d
      · rw [if_neg h1, if_pos h2]
        exact ⟨fun _ => Or.inl (by linarith), fun _ => rfl⟩
      · rw [if_neg h1, if_neg h2, neg_neg]
        exact ⟨fun heq => absurd heq.symm hself, fun hp => by rcases hp with hp | hp <;> linarith⟩

end

/-! ## Saturated sums -/

section

variable [Field α] {M : α}

/-- The sum, held within `M` after every addition. -/
def total (M : α) (xs : List α) : α := xs.foldl (fun sum x => limit (-M) M (sum + x)) 0

theorem total_concat (M : α) (xs : List α) (x : α) :
    total M (xs ++ [x]) = limit (-M) M (total M xs + x) := by
  rw [total, List.foldl_append, List.foldl_cons, List.foldl_nil, total]

variable [IsStrictOrderedRing α]

/-- **Opposite summands** have the opposite sum, as the limits lie on both sides of zero alike. -/
theorem total_map_neg (h : 0 ≤ M) (xs : List α) : total M (xs.map Neg.neg) = -total M xs := by
  induction xs using List.reverseRecOn with
  | nil => exact neg_zero.symm
  | append_singleton xs x ih =>
    rw [List.map_append, List.map_singleton, total_concat, total_concat, ih, ← neg_add,
      limit_neg h]

end

end Saturate
