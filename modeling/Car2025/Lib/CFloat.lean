/-
  C's floating-point numbers, as far as a program verified here can depend on them.

  A program that computes with `float` uses conversions, the four operations, comparisons and
  `sqrt`.  `CFloat R` names exactly these and assumes NO law about them: a theorem stated for
  every `[CFloat R]` therefore holds whatever the rounding does.  Where a statement reads the
  arithmetic as exact, it is taken at `R = ℚ`, whose instance computes without rounding.

  `float` and `double` are not told apart.  Division by zero is not described either (C leaves
  the result to the hardware): the models guard every division they make.
-/
import Mathlib

/-- The floating-point operations of C, with no law assumed. -/
class CFloat (R : Type) extends Add R, Sub R, Mul R, Div R, Neg R where
  /-- A literal, or the conversion of an integer. -/
  ofRat : ℚ → R
  /-- The comparison `a < b`. -/
  lt : R → R → Bool
  /-- The conversion to an integer type (truncation toward zero). -/
  toInt : R → ℤ
  /-- The square root of the C library. -/
  sqrt : R → R

namespace CFloat

variable {R : Type} [CFloat R]

/-- The conversion `(float)n`. -/
def ofInt (n : ℤ) : R := ofRat (n : ℚ)

/-- `fabs`. -/
def abs (x : R) : R := if lt x (ofInt 0) then -x else x

/-- Exact arithmetic: the rationals, computed without rounding.  Only `sqrt` is approximate, and
    it is exact on the squares of rationals. -/
instance : CFloat ℚ where
  ofRat q := q
  lt a b := decide (a < b)
  toInt q := q.num.tdiv q.den
  sqrt q := Rat.sqrt q

@[simp] theorem ofInt_rat (n : ℤ) : (ofInt n : ℚ) = n := rfl

@[simp] theorem ofRat_rat (q : ℚ) : (ofRat q : ℚ) = q := rfl

@[simp] theorem lt_rat (a b : ℚ) : lt a b = true ↔ a < b := by
  show decide (a < b) = true ↔ _
  exact decide_eq_true_iff

/-- Numbers whose comparison is a linear order.  Nothing is said about the operations: they may round,
    or overflow, as they like.  What this leaves out of `float` is `NaN`, and the sign of zero. -/
class Ordered (R : Type) [CFloat R] [LinearOrder R] : Prop where
  lt_iff : ∀ a b : R, lt a b = true ↔ a < b

instance : Ordered ℚ := ⟨lt_rat⟩

/-- Over the rationals `fabs` is the absolute value. -/
@[simp] theorem abs_rat (a : ℚ) : (abs a : ℚ) = |a| := by
  unfold abs
  by_cases h : a < 0
  · rw [if_pos (by simpa using h), abs_of_neg h]
  · rw [if_neg (by simpa using h), abs_of_nonneg (not_lt.mp h)]

/-- The conversion to an integer does not grow. -/
theorem natAbs_toInt_le {q : ℚ} {n : ℕ} (h : |q| ≤ n) : (toInt q).natAbs ≤ n := by
  have hd : (0 : ℚ) < q.den := Nat.cast_pos.mpr q.pos
  have hmul : |(q.num : ℚ)| ≤ n * q.den := by
    have habs : |q| * q.den = |(q.num : ℚ)| := by
      rw [← abs_of_pos hd, ← abs_mul, Rat.mul_den_eq_num]
    rw [← habs]
    exact mul_le_mul_of_nonneg_right h hd.le
  show (q.num.tdiv q.den).natAbs ≤ n
  rw [Int.natAbs_tdiv, Int.natAbs_natCast]
  apply Nat.div_le_of_le_mul
  rw [mul_comm]
  have hcast : ((q.num.natAbs : ℕ) : ℚ) = |(q.num : ℚ)| := by
    rw [Nat.cast_natAbs, Int.cast_abs]
  exact_mod_cast hcast.trans_le hmul

/-- The conversion keeps the integers. -/
@[simp] theorem toInt_intCast (n : ℤ) : toInt (n : ℚ) = n := by
  show (n : ℚ).num.tdiv (n : ℚ).den = n
  rw [Rat.num_intCast, Rat.den_intCast, Nat.cast_one, Int.tdiv_one]

theorem toInt_of_nonneg {q : ℚ} (h : 0 ≤ q) : toInt q = ⌊q⌋ := by
  show q.num.tdiv q.den = ⌊q⌋
  rw [Int.tdiv_eq_ediv_of_nonneg (Rat.num_nonneg.mpr h)]
  exact (Rat.floor_def q).symm

theorem toInt_neg (q : ℚ) : toInt (-q) = -toInt q := by
  show (-q).num.tdiv (-q).den = -(q.num.tdiv q.den)
  rw [Rat.num_neg_eq_neg_num, Rat.den_neg_eq_den, Int.neg_tdiv]

/-- Truncation is monotone: it rounds down above 0 and up below. -/
theorem toInt_mono {q r : ℚ} (h : q ≤ r) : toInt q ≤ toInt r := by
  have hneg : ∀ x : ℚ, x ≤ 0 → toInt x = -⌊-x⌋ := by
    intro x hx
    rw [← toInt_of_nonneg (neg_nonneg.mpr hx), toInt_neg, neg_neg]
  rcases le_total 0 q with hq | hq
  · rw [toInt_of_nonneg hq, toInt_of_nonneg (hq.trans h)]
    exact Int.floor_le_floor h
  · rw [hneg q hq]
    rcases le_total 0 r with hr | hr
    · rw [toInt_of_nonneg hr]
      have h1 : 0 ≤ ⌊-q⌋ := Int.floor_nonneg.mpr (neg_nonneg.mpr hq)
      have h2 : 0 ≤ ⌊r⌋ := Int.floor_nonneg.mpr hr
      omega
    · rw [hneg r hr]
      exact neg_le_neg (Int.floor_le_floor (neg_le_neg h))

/-- Truncation moves a number by less than 1. -/
theorem abs_toInt_sub_lt (q : ℚ) : |(toInt q : ℚ) - q| < 1 := by
  have hpos : ∀ x : ℚ, 0 ≤ x → |(toInt x : ℚ) - x| < 1 := by
    intro x hx
    have h1 := Int.floor_le x
    have h2 := Int.lt_floor_add_one x
    rw [toInt_of_nonneg hx, abs_lt]
    constructor <;> linarith
  rcases le_total 0 q with hq | hq
  · exact hpos q hq
  · have h := hpos (-q) (neg_nonneg.mpr hq)
    rwa [toInt_neg, Int.cast_neg, show -(toInt q : ℚ) - -q = -((toInt q : ℚ) - q) by ring,
      abs_neg] at h

end CFloat
