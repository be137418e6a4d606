/-
  Single precision, as far as a program can rely on it.

  `CFloat` assumes no law, so what is proved from it alone holds whatever the rounding does.  A statement
  that compares a program's floats with exact numbers needs some law, and this file names those that
  the standard promises for `float`.

  1. **Rounding (`Rounds`)** — a result moves by at most half a unit of its 24 bits; a whole number of 24
     bits is one of the values, so it does not move at all.

  2. **Laws (`Single`)** — a finite float has a value, and an operation on two of them gives the exact
     result rounded.  The laws are stated where they hold: products and quotients away from overflow
     and underflow, sums away from overflow (a sum that underflows is exact).

  Numbers that are not rounded satisfy the laws as well (`Single ℚ`), so what follows from them is true
  of the exact reading too.
-/
import Mathlib
import Car2025.Lib.CFloat

namespace CFloat

/-- What the exact result `q` may be rounded to. -/
structure Rounds (q r : ℚ) : Prop where
  near : |r - q| ≤ |q| / 2 ^ 24
  whole : ∀ n : ℤ, q = n → |n| ≤ 2 ^ 24 → r = n

theorem Rounds.exact (q : ℚ) : Rounds q q where
  near := by
    rw [sub_self, abs_zero]
    positivity
  whole := fun _ h _ => h

/-- Neither an overflow nor an underflow. -/
def InRange (q : ℚ) : Prop := q = 0 ∨ 1 / 2 ^ 100 ≤ |q| ∧ |q| ≤ 2 ^ 100

/-- The laws of single precision.  `Is x q` says that `x` is a finite float and that its value is `q`. -/
class Single (R : Type) [CFloat R] where
  Is : R → ℚ → Prop
  ofInt : ∀ n : ℤ, |n| ≤ 2 ^ 32 → ∃ r, Rounds n r ∧ Is (CFloat.ofInt n) r
  add : ∀ {x y : R} {p q : ℚ}, Is x p → Is y q → |p + q| ≤ 2 ^ 100 →
    ∃ r, Rounds (p + q) r ∧ Is (x + y) r
  mul : ∀ {x y : R} {p q : ℚ}, Is x p → Is y q → InRange (p * q) →
    ∃ r, Rounds (p * q) r ∧ Is (x * y) r
  div : ∀ {x y : R} {p q : ℚ}, Is x p → Is y q → q ≠ 0 → InRange (p / q) →
    ∃ r, Rounds (p / q) r ∧ Is (x / y) r
  toInt : ∀ {x : R} {q : ℚ}, Is x q → |q| ≤ 2 ^ 30 → CFloat.toInt x = CFloat.toInt q

instance : Single ℚ where
  Is := Eq
  ofInt n _ := ⟨n, .exact _, rfl⟩
  add := by
    rintro _ _ p q rfl rfl _
    exact ⟨_, .exact _, rfl⟩
  mul := by
    rintro _ _ p q rfl rfl _
    exact ⟨_, .exact _, rfl⟩
  div := by
    rintro _ _ p q rfl rfl _ _
    exact ⟨_, .exact _, rfl⟩
  toInt := by
    rintro _ q rfl _
    rfl

/-- A whole number of 24 bits is converted as it is. -/
theorem Single.ofInt_is {R : Type} [CFloat R] [Single R] {n : ℤ} (h : |n| ≤ 2 ^ 24) :
    Is (CFloat.ofInt n : R) n := by
  obtain ⟨r, hr, his⟩ := Single.ofInt (R := R) n (h.trans (by norm_num))
  rw [← hr.whole n rfl h]
  exact his

/-! ## Truncation of rounded numbers -/

variable {q r : ℚ}

/-- Two numbers with no integer between them are truncated to the same one; so rounding shows in an
    integer only near one. -/
theorem toInt_congr (h : ∀ z : ℤ, (z : ℚ) ≤ q ↔ (z : ℚ) ≤ r)
    (h' : ∀ z : ℤ, q ≤ (z : ℚ) ↔ r ≤ (z : ℚ)) : toInt q = toInt r := by
  rcases le_total 0 q with hq | hq
  · have hr : 0 ≤ r := by exact_mod_cast (h 0).mp (by exact_mod_cast hq)
    rw [toInt_of_nonneg hq, toInt_of_nonneg hr]
    exact le_antisymm (Int.le_floor.mpr ((h _).mp (Int.floor_le q)))
      (Int.le_floor.mpr ((h _).mpr (Int.floor_le r)))
  · -- below 0 the truncation is the ceiling
    have hr : r ≤ 0 := by exact_mod_cast (h' 0).mp (by exact_mod_cast hq)
    have hceil : ∀ x : ℚ, x ≤ 0 → toInt x = ⌈x⌉ := by
      intro x hx
      rw [← neg_neg x, toInt_neg, toInt_of_nonneg (neg_nonneg.mpr hx), Int.ceil_neg]
    rw [hceil q hq, hceil r hr]
    exact le_antisymm (Int.ceil_le.mpr ((h' _).mpr (Int.le_ceil r)))
      (Int.ceil_le.mpr ((h' _).mp (Int.le_ceil q)))

/-- **A quotient** that moves by less than its distance from the next integer is truncated as before;
    one that is whole may lose or gain 1, as it can fall just short of itself. -/
theorem toInt_near {N n : ℤ} (hn : 0 < n) (hq : q = N / n) (h : |r - q| * n < 1) :
    toInt r = toInt q ∨ ∃ v : ℤ, (v : ℚ) = q ∧ |toInt r - v| ≤ 1 := by
  have hn' : (0 : ℚ) < n := Int.cast_pos.mpr hn
  by_cases hwhole : ∃ v : ℤ, (v : ℚ) = q
  · obtain ⟨v, hv⟩ := hwhole
    refine Or.inr ⟨v, hv, ?_⟩
    have hone : (1 : ℚ) ≤ n := by exact_mod_cast hn
    have hsmall : |r - q| < 1 :=
      (le_mul_of_one_le_right (abs_nonneg _) hone).trans_lt h
    have hdist : |((toInt r - v : ℤ) : ℚ)| < 2 := by
      have htri := abs_sub_le (toInt r : ℚ) r q
      have htrunc := abs_toInt_sub_lt r
      rw [Int.cast_sub, hv]
      linarith
    have hint : |toInt r - v| < 2 := by exact_mod_cast hdist
    omega
  · left
    -- every integer is at least `1 / n` away from `q`
    have hfar : ∀ z : ℤ, |r - q| < |(z : ℚ) - q| := by
      intro z
      have hne : z * n - N ≠ 0 := by
        intro hzero
        refine hwhole ⟨z, ?_⟩
        rw [hq, eq_div_iff hn'.ne']
        exact_mod_cast sub_eq_zero.mp hzero
      have hone : (1 : ℚ) ≤ |((z * n - N : ℤ) : ℚ)| := by exact_mod_cast Int.one_le_abs hne
      have hscaled : |(z : ℚ) - q| * n = |((z * n - N : ℤ) : ℚ)| := by
        rw [hq, ← abs_of_pos hn', ← abs_mul, abs_of_pos hn', sub_mul, div_mul_cancel₀ _ hn'.ne']
        push_cast
        rfl
      refine lt_of_mul_lt_mul_right ?_ hn'.le
      rw [hscaled]
      exact h.trans_le hone
    have hbelow : ∀ z : ℤ, (z : ℚ) < q → (z : ℚ) < r := by
      intro z hz
      have hz' := hfar z
      have hr := neg_abs_le (r - q)
      rw [abs_of_neg (sub_neg.mpr hz)] at hz'
      linarith
    have habove : ∀ z : ℤ, q < z → r < z := by
      intro z hz
      have hz' := hfar z
      have hr := le_abs_self (r - q)
      rw [abs_of_pos (sub_pos.mpr hz)] at hz'
      linarith
    have hne : ∀ z : ℤ, (z : ℚ) ≠ q := fun z hz => hwhole ⟨z, hz⟩
    refine (toInt_congr (fun z => ⟨fun hle => ?_, fun hle => ?_⟩)
      fun z => ⟨fun hle => ?_, fun hle => ?_⟩).symm
    · exact (hbelow z (lt_of_le_of_ne hle (hne z))).le
    · exact not_lt.mp fun hlt => absurd hle (not_le.mpr (habove z hlt))
    · exact (habove z (lt_of_le_of_ne hle (hne z).symm)).le
    · exact not_lt.mp fun hlt => absurd hle (not_le.mpr (hbelow z hlt))

end CFloat
