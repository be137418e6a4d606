/-
  What a counter or a latch of a program says about the steps that are past.

  1. **Streaks (`Streak p n r`)** — the last `r` steps before step `n` all satisfied `p`.  A counter
     that goes up while `p` holds and is cleared otherwise counts a streak.

  2. **Since (`Since p q m n`)** — `q` held at `m`, and `p` at every step from then up to `n`.  A value
     that is stored on entering a state belongs to the step since which the state lasts.
-/
import Mathlib

namespace Past

variable {p p' q q' : ℕ → Prop} {m n r : ℕ}

/-! ## Streaks -/

/-- The last `r` steps before `n` exist and satisfy `p`; that is what a count that is cleared by
    the others stands for. -/
structure Streak (p : ℕ → Prop) (n r : ℕ) : Prop where
  le : r ≤ n
  all : ∀ k, n - r ≤ k → k < n → p k

theorem Streak.zero (p : ℕ → Prop) (n : ℕ) : Streak p n 0 :=
  ⟨Nat.zero_le n, fun k h1 h2 => absurd h2 (by omega)⟩

/-- One more step of the streak. -/
theorem Streak.succ (h : Streak p n r) (hn : p n) : Streak p (n + 1) (r + 1) := by
  refine ⟨Nat.succ_le_succ h.le, fun k h1 h2 => ?_⟩
  rcases Nat.lt_or_ge k n with hk | hk
  · exact h.all k (by omega) hk
  · obtain rfl : k = n := by omega
    exact hn

theorem Streak.imp (h : Streak p n r) (hp : ∀ k, k < n → p k → p' k) : Streak p' n r :=
  ⟨h.le, fun k h1 h2 => hp k h2 (h.all k h1 h2)⟩

/-! ## Since -/

/-- `q` at step `m`, and `p` ever since, up to step `n`; that is what a value kept since `m` stands
    for. -/
structure Since (p q : ℕ → Prop) (m n : ℕ) : Prop where
  lt : m < n
  start : q m
  all : ∀ k, m < k → k ≤ n → p k

/-- The step after `q` is the first one of `p`. -/
theorem Since.here (hq : q n) (hp : p (n + 1)) : Since p q n (n + 1) := by
  refine ⟨Nat.lt_succ_self n, hq, fun k h1 h2 => ?_⟩
  obtain rfl : k = n + 1 := by omega
  exact hp

theorem Since.next (h : Since p q m n) (hp : p (n + 1)) : Since p q m (n + 1) := by
  refine ⟨Nat.lt_succ_of_lt h.lt, h.start, fun k h1 h2 => ?_⟩
  rcases Nat.lt_or_ge n k with hk | hk
  · obtain rfl : k = n + 1 := by omega
    exact hp
  · exact h.all k h1 hk

theorem Since.imp (h : Since p q m n) (hp : ∀ k, k ≤ n → p k → p' k)
    (hq : ∀ k, k < n → q k → q' k) : Since p' q' m n :=
  ⟨h.lt, hq m h.lt h.start, fun k h1 h2 => hp k h2 (h.all k h1 h2)⟩

end Past
