/-
  The variance between two classes of a distribution over levels.

  1. **Sums (`mass`, `moment`, `mean`)** — of the weights of an interval of levels.

  2. **Variance between the classes (`between`)** — of the levels up to a level and those above it; it is
     positive exactly where both have weight (`between_pos_iff`).

  3. **From running sums (`about`)** — the same from the sums of the lower class and a reference for the
     total mean: the two agree where the reference is exact (`about_eq_between`), and in general
     `about` is one square (`about_eq`).
-/
import Mathlib

namespace TwoClass

variable {p : ℕ → ℚ} {a b c N : ℕ} {m : ℚ}

/-! ## Sums -/

/-- The weight of the levels from `a` up to `b - 1`. -/
def mass (p : ℕ → ℚ) (a b : ℕ) : ℚ := ∑ i ∈ Finset.Ico a b, p i

/-- Their first moment. -/
def moment (p : ℕ → ℚ) (a b : ℕ) : ℚ := ∑ i ∈ Finset.Ico a b, i * p i

def mean (p : ℕ → ℚ) (a b : ℕ) : ℚ := moment p a b / mass p a b

@[simp] theorem mass_self (p : ℕ → ℚ) (a : ℕ) : mass p a a = 0 := by
  rw [mass, Finset.Ico_self, Finset.sum_empty]

@[simp] theorem moment_self (p : ℕ → ℚ) (a : ℕ) : moment p a a = 0 := by
  rw [moment, Finset.Ico_self, Finset.sum_empty]

theorem mass_succ (h : a ≤ b) : mass p a (b + 1) = mass p a b + p b :=
  Finset.sum_Ico_succ_top h p

theorem moment_succ (h : a ≤ b) : moment p a (b + 1) = moment p a b + b * p b :=
  Finset.sum_Ico_succ_top h _

theorem mass_split (hab : a ≤ b) (hbc : b ≤ c) : mass p a c = mass p a b + mass p b c :=
  (Finset.sum_Ico_consecutive p hab hbc).symm

theorem moment_split (hab : a ≤ b) (hbc : b ≤ c) :
    moment p a c = moment p a b + moment p b c :=
  (Finset.sum_Ico_consecutive _ hab hbc).symm

theorem mass_nonneg (hp : ∀ i, 0 ≤ p i) (a b : ℕ) : 0 ≤ mass p a b :=
  Finset.sum_nonneg fun i _ => hp i

/-- An interval has weight exactly when one of its levels has. -/
theorem mass_pos_iff (hp : ∀ i, 0 ≤ p i) : 0 < mass p a b ↔ ∃ i, a ≤ i ∧ i < b ∧ p i ≠ 0 := by
  rw [mass, Finset.sum_pos_iff_of_nonneg fun i _ => hp i]
  constructor
  · rintro ⟨i, hi, hpos⟩
    rw [Finset.mem_Ico] at hi
    exact ⟨i, hi.1, hi.2, hpos.ne'⟩
  · rintro ⟨i, hai, hib, hne⟩
    exact ⟨i, Finset.mem_Ico.mpr ⟨hai, hib⟩, lt_of_le_of_ne (hp i) hne.symm⟩

/-- The mean of an interval of levels lies in it. -/
theorem mean_lt (hp : ∀ i, 0 ≤ p i) (h : 0 < mass p a b) : mean p a b < b := by
  obtain ⟨i, hai, hib, hne⟩ := (mass_pos_iff hp).mp h
  rw [mean, div_lt_iff₀ h, moment, mass, Finset.mul_sum]
  apply Finset.sum_lt_sum
  · intro k hk
    have hkb : (k : ℚ) ≤ b := Nat.cast_le.mpr (Finset.mem_Ico.mp hk).2.le
    exact mul_le_mul_of_nonneg_right hkb (hp k)
  · have hib' : (i : ℚ) < b := Nat.cast_lt.mpr hib
    exact ⟨i, Finset.mem_Ico.mpr ⟨hai, hib⟩,
      mul_lt_mul_of_pos_right hib' (lt_of_le_of_ne (hp i) hne.symm)⟩

theorem le_mean (hp : ∀ i, 0 ≤ p i) (h : 0 < mass p a b) : (a : ℚ) ≤ mean p a b := by
  rw [mean, le_div_iff₀ h, moment, mass, Finset.mul_sum]
  apply Finset.sum_le_sum
  intro k hk
  have hak : (a : ℚ) ≤ k := Nat.cast_le.mpr (Finset.mem_Ico.mp hk).1
  exact mul_le_mul_of_nonneg_right hak (hp k)

/-! ## The variance between the classes -/

/-- The classes are the levels up to `c` and those above it, below `N`; a class without weight gives
    0. -/
def between (p : ℕ → ℚ) (N c : ℕ) : ℚ :=
  mass p 0 (c + 1) * mass p (c + 1) N * (mean p 0 (c + 1) - mean p (c + 1) N) ^ 2

theorem between_nonneg (hp : ∀ i, 0 ≤ p i) (N c : ℕ) : 0 ≤ between p N c :=
  mul_nonneg (mul_nonneg (mass_nonneg hp _ _) (mass_nonneg hp _ _)) (sq_nonneg _)

/-- **The variance is positive** exactly where both classes have weight: the lower mean is then
    below the upper one. -/
theorem between_pos_iff (hp : ∀ i, 0 ≤ p i) :
    0 < between p N c ↔ 0 < mass p 0 (c + 1) ∧ 0 < mass p (c + 1) N := by
  constructor
  · intro h
    refine ⟨lt_of_le_of_ne (mass_nonneg hp _ _) fun h0 => ?_,
      lt_of_le_of_ne (mass_nonneg hp _ _) fun h0 => ?_⟩
    · rw [between, ← h0, zero_mul, zero_mul] at h
      exact lt_irrefl 0 h
    · rw [between, ← h0, mul_zero, zero_mul] at h
      exact lt_irrefl 0 h
  · rintro ⟨hlow, hhigh⟩
    have hlt : mean p 0 (c + 1) < mean p (c + 1) N :=
      (mean_lt hp hlow).trans_le (le_mean hp hhigh)
    have hne : mean p 0 (c + 1) - mean p (c + 1) N ≠ 0 := sub_ne_zero.mpr hlt.ne
    exact mul_pos (mul_pos hlow hhigh) (sq_pos_iff.mpr hne)

/-! ## From running sums -/

/-- The weighted squares of the distances of both class means from `m`, the upper class being what the
    lower one leaves of weight 1 and moment `m`. -/
def about (p : ℕ → ℚ) (m : ℚ) (c : ℕ) : ℚ :=
  mass p 0 (c + 1) * (mean p 0 (c + 1) - m) ^ 2 +
    (1 - mass p 0 (c + 1)) * ((m - moment p 0 (c + 1)) / (1 - mass p 0 (c + 1)) - m) ^ 2

theorem about_eq (hlow : mass p 0 (c + 1) ≠ 0) (hhigh : 1 - mass p 0 (c + 1) ≠ 0) :
    about p m c = (moment p 0 (c + 1) - m * mass p 0 (c + 1)) ^ 2 /
      (mass p 0 (c + 1) * (1 - mass p 0 (c + 1))) := by
  rw [about, mean]
  field_simp
  ring

theorem about_nonneg (hlow : 0 ≤ mass p 0 (c + 1)) (hhigh : mass p 0 (c + 1) ≤ 1) :
    0 ≤ about p m c :=
  add_nonneg (mul_nonneg hlow (sq_nonneg _)) (mul_nonneg (sub_nonneg.mpr hhigh) (sq_nonneg _))

/-- **With the exact mean** this is the variance between the classes; with another one it is not,
    which is what rounding the mean changes. -/
theorem about_eq_between (hc : c + 1 ≤ N) (htotal : mass p 0 N = 1)
    (hlow : mass p 0 (c + 1) ≠ 0) (hhigh : 1 - mass p 0 (c + 1) ≠ 0) :
    about p (moment p 0 N) c = between p N c := by
  have hmass : mass p (c + 1) N = 1 - mass p 0 (c + 1) := by
    rw [← htotal, mass_split (Nat.zero_le _) hc, add_sub_cancel_left]
  have hmoment : moment p (c + 1) N = moment p 0 N - moment p 0 (c + 1) := by
    rw [moment_split (Nat.zero_le _) hc, add_sub_cancel_left]
  rw [about_eq hlow hhigh, between, mean, mean, hmass, hmoment]
  field_simp
  ring

end TwoClass
