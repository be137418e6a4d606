/-
  What loops count: the members of a range that satisfy a test.

  1. **One more member** — a pass of a loop, before the passes to come.

  2. **Two loops** — the inner loop's counts add up to that of the pairs.

  3. **Reflection** — a test that compares a member with its mirror image counts the same on a set and
     on its reflection.
-/
import Mathlib

namespace Count

open Finset

variable {α β : Type} [DecidableEq α]

/-- The range of a loop that goes up, at its first pass. -/
theorem Ico_eq_insert (i : ℤ) (n : ℕ) :
    Ico i (i + (n + 1 : ℕ)) = insert i (Ico (i + 1) (i + 1 + n)) := by
  ext k
  simp only [mem_Ico, mem_insert]
  omega

/-- The range of a loop that goes down. -/
theorem Ioc_eq_insert (i : ℤ) (n : ℕ) :
    Ioc (i - (n + 1 : ℕ)) i = insert i (Ioc (i - 1 - n) (i - 1)) := by
  ext k
  simp only [mem_Ioc, mem_insert]
  omega

theorem card_filter_insert {p : α → Bool} {i : α} {s : Finset α} (hi : i ∉ s) :
    (#{k ∈ insert i s | p k = true} : ℤ) =
      (if p i = true then 1 else 0) + #{k ∈ s | p k = true} := by
  rw [filter_insert]
  by_cases hp : p i = true
  · rw [if_pos hp, if_pos hp, card_insert_of_notMem fun hmem => hi (mem_of_mem_filter i hmem)]
    push_cast
    exact add_comm _ _
  · rw [if_neg hp, if_neg hp, zero_add]

omit [DecidableEq α] in
theorem card_filter_product (p : α → β → Bool) (s : Finset α) (t : Finset β) :
    #{q ∈ s ×ˢ t | p q.1 q.2 = true} = ∑ i ∈ s, #{j ∈ t | p i j = true} := by
  rw [card_filter, sum_product]
  apply sum_congr rfl
  intro i _
  rw [card_filter]

/-- **Reflection** of a count. -/
theorem card_filter_mirror [DecidableEq β] {f : α → α} (hf : Function.Involutive f) (v : α → β)
    (s : Finset α) : #{q ∈ s.image f | v q = v (f q)} = #{q ∈ s | v q = v (f q)} := by
  rw [filter_image, card_image_of_injective _ hf.injective]
  congr 1
  apply filter_congr
  intro q _
  rw [hf q]
  exact eq_comm

end Count
