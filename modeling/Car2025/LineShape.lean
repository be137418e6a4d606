/-
  What `Line_IsStraight` and `Line_IsMonotonous` decide.

  The two functions classify every segment that is not lost.  Each is compared here with the property
  its comment states, over the two rows it is given.

  1. **`Line_IsStraight`** — the chord starts at the smaller row, the rows compared with it start at
     row 0: the verdict is about the segment exactly when the segment starts there too.  The code
     computes in single precision; three roundings move the chord by less than a hundredth of a
     column (`chord_single`), and a chord that is not whole is at least 1/69 away from the next
     column, so only whole columns need care.

  2. **`Line_IsMonotonous`** — the look-ahead counts on before it looks, so the difference right after
     the current one is never a turn by itself: a swing that goes back at once is not seen.
-/
import Mathlib
import Car2025.Lib.Single
import Car2025.UserMath

namespace Car2025

/-! ## Straight lines -/

section

variable {R : Type} [CFloat R]

/-- The column of a line of slope `K_` from row `min` on, `i` rows nearer, as it is stored. -/
def chordAt (b : Broder) (min : ℤ) (K_ : R) (i : ℤ) : ℤ :=
  int16 (CFloat.toInt (CFloat.ofInt (b min) + K_ * CFloat.ofInt i))

/-- **The loop** compares the rows from `i` on with the chord of the same index.  The row and the
    place on the chord are one variable, which is why both start at 0 wherever the segment does. -/
theorem Line_IsStraight_loop_iff {o : Outside} {b : Broder} {min : ℤ} (K_ : R) (h0 : 0 ≤ min)
    (h1 : min ≤ 69) : ∀ (n : ℕ) (i : ℤ), 0 ≤ i → i + n ≤ 70 →
      ∃ v, Line_IsStraight_loop o b min K_ n i = .ok v ∧
        (v = true ↔ ∀ r, i ≤ r → r < i + n → |b r - chordAt b min K_ r| ≤ 5) := by
  intro n
  induction n with
  | zero =>
    intro i _ _
    refine ⟨true, rfl, fun _ r h h' => ?_, fun _ => rfl⟩
    push_cast at h'
    omega
  | succ n ih =>
    intro i hi hn
    rw [Line_IsStraight_loop, rd_of_allows (o.allows_of_rows h0 h1), ok_bind,
      rd_of_allows (o.allows_of_rows hi (by push_cast at hn; omega)), ok_bind]
    show ∃ v, (if Math_StraightJudgeValue < |b i - chordAt b min K_ i| then pure false
      else Line_IsStraight_loop o b min K_ n (i + 1)) = .ok v ∧ _
    by_cases hoff : Math_StraightJudgeValue < |b i - chordAt b min K_ i|
    · rw [if_pos hoff]
      refine ⟨false, rfl, fun h => Bool.noConfusion h, fun h => ?_⟩
      have hle := h i (le_refl i) (by push_cast; omega)
      exact absurd hoff (not_lt.mpr hle)
    · rw [if_neg hoff]
      obtain ⟨v, hv, hiff⟩ := ih (i + 1) (by omega) (by push_cast at hn; omega)
      refine ⟨v, hv, hiff.trans ⟨fun h r hr hr' => ?_, fun h r hr hr' => ?_⟩⟩
      · rcases eq_or_lt_of_le hr with rfl | hlt
        · exact not_lt.mp hoff
        · exact h r (by omega) (by push_cast at hr'; omega)
      · exact h r (by omega) (by push_cast; omega)

end

/-- The exact slope between two rows. -/
def exactSlope (b : Broder) (x1 x2 : ℤ) : ℚ := ((b x1 - b x2 : ℤ) : ℚ) / ((x1 - x2 : ℤ) : ℚ)

/-- The slope as `Line_CalK` computes it. -/
def computedSlope (R : Type) [CFloat R] (b : Broder) (x1 x2 : ℤ) : R :=
  CFloat.ofInt (b x1 - b x2) / CFloat.ofInt (x1 - x2)

/-- **Straight**: every row of the segment but the nearest lies within 5 columns of the chord. -/
def Straight (b : Broder) (x1 x2 : ℤ) : Prop :=
  ∀ r, min x1 x2 ≤ r → r < max x1 x2 →
    |b r - chordAt b (min x1 x2) (exactSlope b x1 x2) (r - min x1 x2)| ≤ 5

/-- As many rows, from the far edge of the image on, lie within 5 columns of the same chord. -/
def StraightFromEdge (b : Broder) (x1 x2 : ℤ) : Prop :=
  ∀ r, 0 ≤ r → r < max x1 x2 - min x1 x2 →
    |b r - chordAt b (min x1 x2) (exactSlope b x1 x2) r| ≤ 5

/-- Two different rows of the image. -/
structure TwoRows (x1 x2 : ℤ) : Prop where
  ne : x1 ≠ x2
  row1 : InRows x1
  row2 : InRows x2

/-- The array holds `int16`. -/
def Broder.IsInt16 (b : Broder) : Prop := ∀ r, InRows r → -32768 ≤ b r ∧ b r < 32768

/-- Rounding has no say in the verdict: the slope is whole, or where the chord passes through a whole
    column none of the rows that are compared stands 5 or 6 columns off it.  There the computed
    chord can fall just short of the column and lose 1 when it is stored; everywhere else it is
    stored as the exact chord is. -/
def ClearOfChord (b : Broder) (x1 x2 : ℤ) : Prop :=
  (∃ k : ℤ, exactSlope b x1 x2 = k) ∨
    ∀ r, 0 < r → r < max x1 x2 - min x1 x2 →
      ∀ v : ℤ, (v : ℚ) = b (min x1 x2) + exactSlope b x1 x2 * r → |b r - v| ≠ 5 ∧ |b r - v| ≠ 6

section

variable {o : Outside} {x1 x2 : ℤ} {b : Broder}

/-- The slope, from the smaller row to the larger. -/
theorem exactSlope_eq (b : Broder) (x1 x2 : ℤ) : exactSlope b x1 x2 =
    ((b (max x1 x2) - b (min x1 x2) : ℤ) : ℚ) / ((max x1 x2 - min x1 x2 : ℤ) : ℚ) := by
  rcases le_total x1 x2 with h | h
  · rw [max_eq_right h, min_eq_left h, exactSlope, ← neg_sub (b x2), ← neg_sub x2, Int.cast_neg,
      Int.cast_neg, neg_div_neg_eq]
  · rw [max_eq_left h, min_eq_right h, exactSlope]

/-- The rows that a slope is taken between. -/
theorem TwoRows.span (h : TwoRows x1 x2) :
    0 ≤ min x1 x2 ∧ max x1 x2 ≤ 69 ∧ 0 < max x1 x2 - min x1 x2 := by
  have h1 := inRows_iff.mp h.row1
  have h2 := inRows_iff.mp h.row2
  have hne := h.ne
  omega

/-- How large the numbers get that the chord is computed from.  The slope is zero or not near it,
    and nothing is near the largest single, so each operation is rounded once and none overflows. -/
structure ChordBounds (b : Broder) (x1 x2 i : ℤ) : Prop where
  slope : exactSlope b x1 x2 = 0 ∨ 1 / 69 ≤ |exactSlope b x1 x2|
  slope_le : |exactSlope b x1 x2| ≤ 65535
  rise : |exactSlope b x1 x2 * i| ≤ 65535
  column : |(b (min x1 x2) : ℚ)| ≤ 32768
  chord : -32768 ≤ b (min x1 x2) + exactSlope b x1 x2 * i ∧
    b (min x1 x2) + exactSlope b x1 x2 * i ≤ 32767

/-- Between the two rows the chord runs between the two columns. -/
theorem chordBounds (h : TwoRows x1 x2) (hb : b.IsInt16) {i : ℤ} (h0 : 0 ≤ i)
    (hi : i < max x1 x2 - min x1 x2) : ChordBounds b x1 x2 i := by
  obtain ⟨hlow, hhigh, hpos⟩ := h.span
  have hmin := hb (min x1 x2) (inRows_iff.mpr ⟨hlow, by omega⟩)
  have hmax := hb (max x1 x2) (inRows_iff.mpr ⟨by omega, hhigh⟩)
  generalize hl : b (min x1 x2) = low at hmin
  generalize hr : b (max x1 x2) = high at hmax
  generalize hn : max x1 x2 - min x1 x2 = n at hi hpos
  have hslope : exactSlope b x1 x2 = ((high - low : ℤ) : ℚ) / (n : ℚ) := by
    rw [exactSlope_eq, hl, hr, hn]
  have hn0 : (0 : ℚ) < n := by exact_mod_cast hpos
  have hn69 : (n : ℚ) ≤ 69 := by exact_mod_cast (show n ≤ 69 by omega)
  have hn1 : (1 : ℚ) ≤ n := by exact_mod_cast (show 1 ≤ n by omega)
  have hdiff : |((high - low : ℤ) : ℚ)| ≤ 65535 := by
    exact_mod_cast abs_le.mpr (show -65535 ≤ high - low ∧ high - low ≤ 65535 by omega)
  -- the share of the way that is behind row `i`
  obtain ⟨t, ht⟩ : ∃ t : ℚ, t = (i : ℚ) / n := ⟨_, rfl⟩
  have ht0 : 0 ≤ t := by
    rw [ht]
    exact div_nonneg (by exact_mod_cast h0) hn0.le
  have ht1 : t ≤ 1 := by
    rw [ht, div_le_one hn0]
    exact_mod_cast hi.le
  have hrise : exactSlope b x1 x2 * i = ((high - low : ℤ) : ℚ) * t := by
    rw [hslope, ht]
    ring
  have hlow16 : (-32768 : ℚ) ≤ low ∧ (low : ℚ) ≤ 32767 := by
    exact_mod_cast (show -32768 ≤ low ∧ low ≤ 32767 by omega)
  have hhigh16 : (-32768 : ℚ) ≤ high ∧ (high : ℚ) ≤ 32767 := by
    exact_mod_cast (show -32768 ≤ high ∧ high ≤ 32767 by omega)
  refine ⟨?_, ?_, ?_, ?_, ?_⟩
  · rw [hslope]
    by_cases hzero : high - low = 0
    · rw [hzero]
      simp
    · right
      have hone : (1 : ℚ) ≤ |((high - low : ℤ) : ℚ)| := by exact_mod_cast Int.one_le_abs hzero
      rw [abs_div, abs_of_pos hn0, le_div_iff₀ hn0]
      linarith
  · rw [hslope, abs_div, abs_of_pos hn0, div_le_iff₀ hn0]
    linarith
  · rw [hrise, abs_mul, abs_of_nonneg ht0]
    exact (mul_le_of_le_one_right (abs_nonneg _) ht1).trans hdiff
  · rw [hl]
    exact abs_le.mpr ⟨hlow16.1, hlow16.2.trans (by norm_num)⟩
  · rw [hrise, hl]
    push_cast
    constructor <;> nlinarith

variable {R : Type} [CFloat R] [CFloat.Single R]

open CFloat

/-- **The computed slope** is the exact one, rounded once: both differences are whole and small, so
    they are exact, and only the quotient is rounded. -/
theorem slope_single (h : TwoRows x1 x2) (hb : b.IsInt16) :
    ∃ k, Single.Is (computedSlope R b x1 x2) k ∧ Rounds (exactSlope b x1 x2) k := by
  obtain ⟨-, -, hpos⟩ := h.span
  obtain ⟨hslope, hslope_le, -⟩ := chordBounds h hb le_rfl hpos
  have h1 := hb x1 h.row1
  have h2 := hb x2 h.row2
  have h1' := inRows_iff.mp h.row1
  have h2' := inRows_iff.mp h.row2
  have hdiff : Single.Is (CFloat.ofInt (b x1 - b x2) : R) ((b x1 - b x2 : ℤ) : ℚ) :=
    Single.ofInt_is (by rw [abs_le]; omega)
  have hrows : Single.Is (CFloat.ofInt (x1 - x2) : R) ((x1 - x2 : ℤ) : ℚ) :=
    Single.ofInt_is (by rw [abs_le]; omega)
  have hrows0 : ((x1 - x2 : ℤ) : ℚ) ≠ 0 := by
    have hne := h.ne
    exact_mod_cast (show x1 - x2 ≠ 0 by omega)
  have hrange : InRange (((b x1 - b x2 : ℤ) : ℚ) / ((x1 - x2 : ℤ) : ℚ)) :=
    hslope.imp_right fun hge => ⟨le_trans (by norm_num) hge, hslope_le.trans (by norm_num)⟩
  obtain ⟨k, hk, his⟩ := Single.div hdiff hrows hrows0 hrange
  exact ⟨k, his, hk⟩

/-- A slope that is not 0 is about 1/69 at least, so it does not underflow when it is multiplied. -/
theorem slope_range {D k : ℚ} (hk : Rounds D k) (hD : D = 0 ∨ 1 / 69 ≤ |D|) {i : ℤ}
    (h0 : 0 ≤ i) (hki : |k * i| ≤ 65536) : InRange (k * i) := by
  by_cases hzero : k * (i : ℚ) = 0
  · exact Or.inl hzero
  have hi1 : (1 : ℚ) ≤ i := by
    have hne : i ≠ 0 := fun h => hzero (by rw [h, Int.cast_zero, mul_zero])
    exact_mod_cast (show 1 ≤ i by omega)
  have hD69 : 1 / 69 ≤ |D| := by
    refine hD.resolve_left fun hD0 => hzero ?_
    have hk0 := hk.whole 0 (by rw [hD0, Int.cast_zero]) (by norm_num)
    rw [hk0, Int.cast_zero, zero_mul]
  have hk70 : 1 / 70 ≤ |k| := by
    have htri := abs_sub_abs_le_abs_sub D k
    rw [abs_sub_comm] at htri
    have hnear := hk.near
    have hD24 : |D| / 2 ^ 24 ≤ |D| / 1000 :=
      div_le_div_of_nonneg_left (abs_nonneg _) (by norm_num) (by norm_num)
    linarith
  refine Or.inr ⟨?_, hki.trans (by norm_num)⟩
  rw [abs_mul, abs_of_nonneg (zero_le_one.trans hi1)]
  exact le_trans (by norm_num) (hk70.trans (le_mul_of_one_le_right (abs_nonneg k) hi1))

/-- **The computed rise** over `i` rows: two roundings, each half a unit of a number up to 65536.  At the
    first row and on a whole slope both results are whole and none of them rounds. -/
theorem rise_single (h : TwoRows x1 x2) (hb : b.IsInt16) {i : ℤ} (h0 : 0 ≤ i)
    (hi : i < max x1 x2 - min x1 x2) :
    ∃ x, Single.Is (computedSlope R b x1 x2 * CFloat.ofInt i) x ∧
      |x - exactSlope b x1 x2 * i| ≤ 1 / 128 ∧
      ((i = 0 ∨ ∃ k : ℤ, exactSlope b x1 x2 = k) →
        ∃ m : ℤ, exactSlope b x1 x2 * i = m ∧ x = m ∧ |m| ≤ 65535) := by
  obtain ⟨k, hkis, hk⟩ := slope_single (R := R) h hb
  obtain ⟨hslope, hslope_le, hrise, -⟩ := chordBounds h hb h0 hi
  obtain ⟨hlow, hhigh, -⟩ := h.span
  generalize exactSlope b x1 x2 = D at hk hslope hslope_le hrise
  have hi0 : (0 : ℚ) ≤ i := by exact_mod_cast h0
  -- the rounding of the slope, carried over `i` rows
  have hkD : |(k - D) * i| ≤ 65535 / 2 ^ 24 := by
    rw [abs_mul, abs_of_nonneg hi0]
    have hmul := mul_le_mul_of_nonneg_right hk.near hi0
    rw [abs_mul, abs_of_nonneg hi0] at hrise
    linarith
  have hki : |k * i| ≤ 65536 := by
    have hsplit : k * i = D * i + (k - D) * i := by ring
    rw [hsplit]
    exact (abs_add_le _ _).trans (by linarith)
  have hrow : Single.Is (CFloat.ofInt i : R) (i : ℚ) :=
    Single.ofInt_is (by rw [abs_of_nonneg h0]; omega)
  obtain ⟨x, hx, hxis⟩ := Single.mul hkis hrow (slope_range hk hslope h0 hki)
  refine ⟨x, hxis, ?_, fun hexact => ?_⟩
  · -- the rounding of the product comes on top of that of the slope
    have hxk : |x - k * i| ≤ 65536 / 2 ^ 24 := hx.near.trans (by gcongr)
    have hsplit : x - D * i = (x - k * i) + (k - D) * i := by ring
    rw [hsplit]
    exact (abs_add_le _ _).trans (by linarith)
  · -- whole numbers of this size are not rounded
    obtain ⟨m, hm, hkm⟩ : ∃ m : ℤ, D * i = m ∧ k * i = m := by
      rcases hexact with rfl | ⟨m, hm⟩
      · exact ⟨0, by simp, by simp⟩
      · have hm24 : |m| ≤ 2 ^ 24 := by
          rw [hm] at hslope_le
          have hle : |m| ≤ 65535 := by exact_mod_cast hslope_le
          omega
        refine ⟨m * i, by rw [hm]; push_cast; rfl, ?_⟩
        rw [hk.whole m hm hm24]
        push_cast
        rfl
    have hm24 : |m| ≤ 65535 := by
      rw [hm] at hrise
      exact_mod_cast hrise
    exact ⟨m, hm, hx.whole m hkm (hm24.trans (by norm_num)), hm24⟩

/-- **The computed chord** stays within a hundredth of a column of the exact one, and is exact at the
    first row and where the slope is whole: the sum adds half a unit of a column to the error of the
    rise. -/
theorem chord_single (h : TwoRows x1 x2) (hb : b.IsInt16) {i : ℤ} (h0 : 0 ≤ i)
    (hi : i < max x1 x2 - min x1 x2) :
    ∃ q, Single.Is
        ((CFloat.ofInt (b (min x1 x2)) : R) + computedSlope R b x1 x2 * CFloat.ofInt i) q ∧
      |q - (b (min x1 x2) + exactSlope b x1 x2 * i)| ≤ 1 / 100 ∧
      ((i = 0 ∨ ∃ k : ℤ, exactSlope b x1 x2 = k) →
        q = b (min x1 x2) + exactSlope b x1 x2 * i) := by
  obtain ⟨x, hxis, hxD, hxexact⟩ := rise_single (R := R) h hb h0 hi
  obtain ⟨-, -, -, hcolumn, hchord⟩ := chordBounds h hb h0 hi
  have hcolumn' : |b (min x1 x2)| ≤ 32768 := by exact_mod_cast hcolumn
  have hfirst : Single.Is (CFloat.ofInt (b (min x1 x2)) : R) (b (min x1 x2) : ℚ) :=
    Single.ofInt_is (hcolumn'.trans (by norm_num))
  generalize exactSlope b x1 x2 = D at hxD hxexact hchord
  have hsum : |(b (min x1 x2) : ℚ) + x| ≤ 32769 := by
    have hx := abs_le.mp hxD
    rw [abs_le]
    constructor <;> linarith
  obtain ⟨q, hq, hqis⟩ := Single.add hfirst hxis (hsum.trans (by norm_num))
  refine ⟨q, hqis, ?_, fun hexact => ?_⟩
  · have hqx : |q - (b (min x1 x2) + x)| ≤ 32769 / 2 ^ 24 := hq.near.trans (by gcongr)
    have hsplit : q - (b (min x1 x2) + D * i) = (q - (b (min x1 x2) + x)) + (x - D * i) := by ring
    rw [hsplit]
    exact (abs_add_le _ _).trans (by linarith)
  · obtain ⟨m, hm, hxm, hm16⟩ := hxexact hexact
    have hwhole := hq.whole (b (min x1 x2) + m) (by rw [hxm, Int.cast_add])
      ((abs_add_le _ _).trans (by omega))
    rw [hwhole, hm, Int.cast_add]

/-- **The stored chord** is the exact one, or is 1 off where the exact one passes through a whole column
    behind the first row and the slope is not whole. -/
theorem chordAt_single (h : TwoRows x1 x2) (hb : b.IsInt16) {i : ℤ} (h0 : 0 ≤ i)
    (hi : i < max x1 x2 - min x1 x2) :
    chordAt b (min x1 x2) (computedSlope R b x1 x2) i =
        chordAt b (min x1 x2) (exactSlope b x1 x2) i ∨
      0 < i ∧ (¬ ∃ k : ℤ, exactSlope b x1 x2 = k) ∧
      ∃ v : ℤ, (v : ℚ) = b (min x1 x2) + exactSlope b x1 x2 * i ∧
        chordAt b (min x1 x2) (exactSlope b x1 x2) i = v ∧
        |chordAt b (min x1 x2) (computedSlope R b x1 x2) i - v| ≤
          1 := by
  -- the computed chord is the number `q`, within a hundredth of the exact chord
  obtain ⟨q, his, hnear, hexact⟩ := chord_single (R := R) h hb h0 hi
  obtain ⟨-, -, hpos⟩ := h.span
  obtain ⟨hlow, hhigh⟩ := (chordBounds h hb h0 hi).chord
  have hnear' := abs_le.mp hnear
  have hq : |q| ≤ 2 ^ 30 := by
    rw [abs_le]
    constructor <;> linarith
  have hstored : chordAt b (min x1 x2)
      (computedSlope R b x1 x2) i = int16 (CFloat.toInt q) := by
    rw [chordAt, Single.toInt his hq]
  have hstored' : chordAt b (min x1 x2) (exactSlope b x1 x2) i =
      int16 (CFloat.toInt (b (min x1 x2) + exactSlope b x1 x2 * (i : ℚ))) := rfl
  rw [hstored, hstored']
  -- at the first row and on a whole slope nothing is rounded at all
  by_cases hwhole : i = 0 ∨ ∃ k : ℤ, exactSlope b x1 x2 = k
  · left
    rw [hexact hwhole]
  -- the exact chord is a fraction whose divisor is 69 at most, so `q` cannot pass a whole column
  -- that it does not touch
  have hquot : (b (min x1 x2) : ℚ) + exactSlope b x1 x2 * i =
      ((b (min x1 x2) * (max x1 x2 - min x1 x2) +
        (b (max x1 x2) - b (min x1 x2)) * i : ℤ) : ℚ) / ((max x1 x2 - min x1 x2 : ℤ) : ℚ) := by
    have hn0 : ((max x1 x2 - min x1 x2 : ℤ) : ℚ) ≠ 0 := by exact_mod_cast hpos.ne'
    rw [exactSlope_eq, eq_div_iff hn0, add_mul, mul_right_comm, div_mul_cancel₀ _ hn0]
    push_cast
    ring
  have hn69 : ((max x1 x2 - min x1 x2 : ℤ) : ℚ) ≤ 69 := by
    have hspan := h.span
    exact_mod_cast (show max x1 x2 - min x1 x2 ≤ 69 by omega)
  have hsmall : |q - (b (min x1 x2) + exactSlope b x1 x2 * i)| *
      ((max x1 x2 - min x1 x2 : ℤ) : ℚ) < 1 := by
    have hmul := mul_le_mul hnear hn69 (by exact_mod_cast hpos.le) (by norm_num)
    linarith
  rcases toInt_near hpos hquot hsmall with heq | ⟨v, hv, hone⟩
  · left
    rw [heq]
  · right
    rw [not_or] at hwhole
    have hv16 : -32768 ≤ v ∧ v < 32768 := by
      rw [← hv] at hlow hhigh
      have hlow' : -32768 ≤ v := by exact_mod_cast hlow
      have hhigh' : v ≤ 32767 := by exact_mod_cast hhigh
      omega
    have hq16 : -32768 ≤ CFloat.toInt q ∧ CFloat.toInt q < 32768 := by
      have hle := toInt_mono (show q ≤ 32767 + 1 / 2 by linarith)
      have hge := toInt_mono (show -(32768 + 1 / 2) ≤ q by linarith)
      rw [toInt_neg] at hge
      have hval : CFloat.toInt (32767 + 1 / 2 : ℚ) = 32767 := by decide +kernel
      have hval' : CFloat.toInt (32768 + 1 / 2 : ℚ) = 32768 := by decide +kernel
      omega
    refine ⟨by omega, hwhole.2, v, hv, ?_, ?_⟩
    · rw [← hv, toInt_intCast, int16_of_small hv16.1 hv16.2]
    · rw [int16_of_small hq16.1 hq16.2]
      exact hone

end

/-! ### The verdict -/

section

variable {o : Outside} {x1 x2 : ℤ} {b : Broder} {R : Type} [CFloat R]

/-- What `Line_IsStraight` decides, whatever its arithmetic. -/
theorem Line_IsStraight_verdict (h : TwoRows x1 x2) (b : Broder) :
    ∃ v, Line_IsStraight R o b x1 x2 = .ok v ∧
      (v = true ↔ ∀ r, 0 ≤ r → r < max x1 x2 - min x1 x2 → |b r - chordAt b (min x1 x2)
        (computedSlope R b x1 x2) r| ≤ 5) := by
  have h1 := inRows_iff.mp h.row1
  have h2 := inRows_iff.mp h.row2
  have hK : Line_CalK o (⟨x1, b x1⟩ : point_t) ⟨x2, b x2⟩ =
      .ok (computedSlope R b x1 x2) :=
    fdiv_of_ne (by show x1 - x2 ≠ 0; have := h.ne; omega)
  obtain ⟨v, hv, hiff⟩ := Line_IsStraight_loop_iff (o := o) (b := b)
    (computedSlope R b x1 x2)
    (show 0 ≤ min x1 x2 by omega) (by omega) (max x1 x2 - min x1 x2).toNat 0 (le_refl 0)
    (by omega)
  refine ⟨v, ?_, hiff.trans ⟨fun hr r h0 hlt => ?_, fun hr r h0 hlt => ?_⟩⟩
  · rw [Line_IsStraight, rd_of_allows (o.allows_of_rows h1.1 h1.2), ok_bind,
      rd_of_allows (o.allows_of_rows h2.1 h2.2), ok_bind]
    dsimp only
    rw [hK, ok_bind, Tool_CmpMax_eq, Tool_CmpMin_eq]
    exact hv
  · exact hr r h0 (by omega)
  · exact hr r h0 (by omega)

/-- **Where rounding has no say** it decides about the exact chord.  The stored column is that of
    the exact chord, or one less where the chord passes through a whole column; and there a
    distance of 5 or 6 is ruled out. -/
theorem Line_IsStraight_eq [CFloat.Single R] (h : TwoRows x1 x2) (hb : b.IsInt16)
    (hclear : ClearOfChord b x1 x2) :
    ∃ v, Line_IsStraight R o b x1 x2 = .ok v ∧ (v = true ↔ StraightFromEdge b x1 x2) := by
  obtain ⟨v, hv, hiff⟩ := Line_IsStraight_verdict (R := R) (o := o) h b
  refine ⟨v, hv, hiff.trans (forall_congr' fun r => forall_congr' fun h0 => forall_congr' fun hlt => ?_)⟩
  rcases chordAt_single (R := R) h hb h0 hlt with heq | ⟨hpos, hslope, c, hc, hchord, hone⟩
  · rw [heq]
  · obtain ⟨h5, h6⟩ := hclear.resolve_left hslope r hpos hlt c hc
    rw [hchord]
    -- a distance that moves by 1 passes the limit from 5 or from 6 only
    generalize chordAt b (min x1 x2) (computedSlope R b x1 x2) r = t
      at hone ⊢
    have hmoved := abs_le.mp (abs_abs_sub_abs_le (b r - t) (b r - c))
    rw [sub_sub_sub_cancel_left, abs_sub_comm] at hmoved
    omega

/-- A segment from row 0 on is compared with its own chord. -/
theorem straightFromEdge_of_min (h : min x1 x2 = 0) (b : Broder) :
    StraightFromEdge b x1 x2 ↔ Straight b x1 x2 := by
  simp only [StraightFromEdge, Straight]
  simp only [h, sub_zero]

/-- Column 50 in every row but the farthest. -/
def spikeBroder : Broder := fun r => if r = 0 then 150 else 50

theorem spike_flat {r : ℤ} (h : 0 < r) : spikeBroder r = 50 := if_neg (by omega)

theorem spike_isInt16 : spikeBroder.IsInt16 := by
  intro r _
  rw [spikeBroder]
  split <;> decide

/-- Between two rows of column 50 the slope is 0, -/
theorem exactSlope_flat (h1 : b x1 = 50) (h2 : b x2 = 50) : exactSlope b x1 x2 = 0 := by
  rw [exactSlope, h1, h2, sub_self, Int.cast_zero, zero_div]

/-- and the chord stays at column 50. -/
theorem chordAt_flat (h1 : b x1 = 50) (h2 : b x2 = 50) (i : ℤ) :
    chordAt b (min x1 x2) (exactSlope b x1 x2) i = 50 := by
  have hmin : b (min x1 x2) = 50 := by
    rcases min_choice x1 x2 with h | h
    · rw [h, h1]
    · rw [h, h2]
  rw [chordAt, exactSlope_flat h1 h2, hmin, zero_mul, add_zero]
  decide

theorem clearOfChord_flat (h1 : b x1 = 50) (h2 : b x2 = 50) : ClearOfChord b x1 x2 :=
  Or.inl ⟨0, by rw [exactSlope_flat h1 h2, Int.cast_zero]⟩

/-- The line of column 50 that ends before the spike is straight. -/
theorem spike_straight (hmin : 0 < min x1 x2) : Straight spikeBroder x1 x2 := by
  intro r hr _
  rw [chordAt_flat (spike_flat (by omega)) (spike_flat (by omega)), spike_flat (by omega)]
  decide

/-- Compared from the far edge on, it is not. -/
theorem spike_not_fromEdge (h : x1 ≠ x2) (hmin : 0 < min x1 x2) :
    ¬ StraightFromEdge spikeBroder x1 x2 := by
  intro hedge
  have h0 := hedge 0 (le_refl 0) (by omega)
  rw [chordAt_flat (spike_flat (by omega)) (spike_flat (by omega))] at h0
  exact absurd h0 (by decide)

variable (R)

/-- The verdict of `Line_IsStraight` on a border is the one its comment states. -/
def StraightVerdict (o : Outside) (b : Broder) (x1 x2 : ℤ) : Prop :=
  ∃ v, Line_IsStraight R o b x1 x2 = .ok v ∧ (v = true ↔ Straight b x1 x2)

/-- The verdict is the same on any two borders that agree on the segment. -/
def LooksAtSegment (o : Outside) (x1 x2 : ℤ) : Prop :=
  ∀ b b' : Broder, (∀ r, min x1 x2 ≤ r → r ≤ max x1 x2 → b r = b' r) →
    Line_IsStraight R o b x1 x2 = Line_IsStraight R o b' x1 x2

variable {R}

/-- From row 0 on, the rows compared are the rows of the segment, whatever the arithmetic. -/
theorem looksAtSegment_of_min (h : TwoRows x1 x2) (hmin : min x1 x2 = 0) :
    LooksAtSegment R o x1 x2 := by
  intro b b' hsame
  obtain ⟨v, hv, hiff⟩ := Line_IsStraight_verdict (R := R) (o := o) h b
  obtain ⟨v', hv', hiff'⟩ := Line_IsStraight_verdict (R := R) (o := o) h b'
  have hedge : v = true ↔ v' = true := by
    refine hiff.trans (Iff.trans ?_ hiff'.symm)
    refine forall_congr' fun r => forall_congr' fun h0 => forall_congr' fun hlt => ?_
    simp only [chordAt, computedSlope]
    rw [hsame x1 (min_le_left _ _) (le_max_left _ _), hsame x2 (min_le_right _ _) (le_max_right _ _),
      hsame r (by omega) (by omega), hsame _ (le_refl _) (by omega)]
  rw [hv, hv', Bool.eq_iff_iff.mpr hedge]

/-- Behind row 0 the verdict depends on row 0: with the spike there and without it. -/
theorem not_looksAtSegment [CFloat.Single R] (h : TwoRows x1 x2) (hmin : 0 < min x1 x2) :
    ¬ LooksAtSegment R o x1 x2 := by
  intro hall
  obtain ⟨v, hv, hiff⟩ := Line_IsStraight_eq (R := R) (o := o) h spike_isInt16
    (clearOfChord_flat (spike_flat (by omega)) (spike_flat (by omega)))
  obtain ⟨v', hv', hiff'⟩ := Line_IsStraight_eq (R := R) (o := o) (b := fun _ => 50) h
    (fun _ _ => ⟨by norm_num, by norm_num⟩) (clearOfChord_flat rfl rfl)
  have hflat : StraightFromEdge (fun _ => 50) x1 x2 := by
    intro r _ _
    rw [chordAt_flat rfl rfl, sub_self, abs_zero]
    decide
  have heq := hall spikeBroder (fun _ => 50) fun r hr _ => spike_flat (by omega)
  rw [hv, hv'] at heq
  cases heq
  exact spike_not_fromEdge h.ne hmin (hiff.mp (hiff'.mpr hflat))

/-- **Straightness**, in single precision: for two rows the verdict is right on every border on which
    rounding has no say exactly when the segment starts at row 0, and then it looks at the segment
    only; on one such border it is right when the rows from the far edge on and the rows of the
    segment both keep to the chord, or both leave it. -/
theorem Line_IsStraight_segment [CFloat.Single R] (o : Outside) (h : TwoRows x1 x2) :
    ((∀ b : Broder, b.IsInt16 → ClearOfChord b x1 x2 → StraightVerdict R o b x1 x2) ↔
      min x1 x2 = 0) ∧
    (LooksAtSegment R o x1 x2 ↔ min x1 x2 = 0) ∧
    ∀ b : Broder, b.IsInt16 → ClearOfChord b x1 x2 →
      (StraightVerdict R o b x1 x2 ↔ (StraightFromEdge b x1 x2 ↔ Straight b x1 x2)) := by
  have hone : ∀ b : Broder, b.IsInt16 → ClearOfChord b x1 x2 →
      (StraightVerdict R o b x1 x2 ↔ (StraightFromEdge b x1 x2 ↔ Straight b x1 x2)) := by
    intro b hb hclear
    obtain ⟨v, hv, hiff⟩ := Line_IsStraight_eq (R := R) (o := o) h hb hclear
    refine ⟨?_, fun hsame => ⟨v, hv, hiff.trans hsame⟩⟩
    rintro ⟨v', hv', hiff'⟩
    cases hv.symm.trans hv'
    exact hiff.symm.trans hiff'
  have hpos : min x1 x2 ≠ 0 → 0 < min x1 x2 := fun hne => lt_of_le_of_ne h.span.1 (Ne.symm hne)
  refine ⟨⟨fun hall => ?_, fun hmin b hb hclear => ?_⟩, ⟨fun hall => ?_, looksAtSegment_of_min h⟩,
    hone⟩
  · by_contra hne
    have hmin := hpos hne
    have hclear : ClearOfChord spikeBroder x1 x2 :=
      clearOfChord_flat (spike_flat (by omega)) (spike_flat (by omega))
    have hverdict := hall spikeBroder spike_isInt16 hclear
    exact spike_not_fromEdge h.ne hmin
      (((hone _ spike_isInt16 hclear).mp hverdict).mpr (spike_straight hmin))
  · exact (hone b hb hclear).mpr (straightFromEdge_of_min hmin b)
  · by_contra hne
    exact not_looksAtSegment h (hpos hne) hall

theorem Line_IsStraight_segment_witness : TwoRows 69 0 ∧
    ((∀ b : Broder, b.IsInt16 → ClearOfChord b 69 0 → StraightVerdict ℚ .traps b 69 0) ↔
      min (69 : ℤ) 0 = 0) :=
  have h : TwoRows 69 0 := ⟨by decide, by decide, by decide⟩
  ⟨h, (Line_IsStraight_segment (R := ℚ) .traps h).1⟩

/-- The line from row 69 to row 1 at column 50 is straight, and called not straight. -/
theorem Line_IsStraight_segment_spike : TwoRows 69 1 ∧ Straight spikeBroder 69 1 ∧
    Line_IsStraight ℚ .traps spikeBroder 69 1 = .ok false := by
  refine ⟨⟨by decide, by decide, by decide⟩, spike_straight (by decide), ?_⟩
  decide +kernel

end

/-! ## Turning lines -/

/-- The nearest nonzero difference after `i` has the sign opposite to that of difference `i`. -/
def TurnsAt (df : ℤ → ℤ) (i : ℤ) : Prop :=
  ∃ j, i < j ∧ (∀ l, i < l → l < j → df l = 0) ∧ df i * df j < 0

/-- The difference right after `i` is a swing by itself: the nearest nonzero difference after it, if
    there is one, has the other sign again. -/
def SwingsBack (df : ℤ → ℤ) (i : ℤ) : Prop :=
  df (i + 1) ≠ 0 ∧
    ∀ j, i + 1 < j → (∀ l, i + 1 < l → l < j → df l = 0) → df (i + 1) * df j ≤ 0

/-- A turn that does not swing back at once. -/
def LastsAt (df : ℤ → ℤ) (i : ℤ) : Prop := TurnsAt df i ∧ ¬ SwingsBack df i

section

variable {df : ℤ → ℤ} {s i max : ℤ}

/-- **The look-ahead** after a difference of sign `s`: the difference at `k` does not have that sign,
    and the nearest nonzero one after it has the opposite sign. -/
theorem Line_IsMonotonous_turns_iff (hs : s ≠ 0) : ∀ (n : ℕ) (k : ℤ), i + k + n = max →
    (∀ j, max < j → df j = 0) →
      (Line_IsMonotonous_turns df s i max n k = true ↔ s * df (i + k) ≤ 0 ∧
        ∃ j, i + k < j ∧ (∀ l, i + k < l → l < j → df l = 0) ∧ s * df j < 0) := by
  intro n
  induction n with
  | zero =>
    intro k hk hzero
    refine ⟨fun h => Bool.noConfusion h, ?_⟩
    rintro ⟨-, j, hj, -, hneg⟩
    rw [hzero j (by push_cast at hk; omega), mul_zero] at hneg
    exact absurd hneg (lt_irrefl 0)
  | succ n ih =>
    intro k hk hzero
    push_cast at hk
    rw [Line_IsMonotonous_turns]
    by_cases hk0 : s * df (i + k) ≤ 0
    · rw [if_pos hk0]
      by_cases hneg : s * df (i + (k + 1)) < 0
      · rw [if_pos hneg]
        refine ⟨fun _ => ⟨hk0, i + (k + 1), by omega, fun l h h' => ?_, hneg⟩, fun _ => rfl⟩
        omega
      · rw [if_neg hneg]
        have hnext : ∀ j, i + k < j → (∀ l, i + k < l → l < j → df l = 0) → s * df j < 0 →
            df (i + (k + 1)) = 0 ∧ i + (k + 1) < j := by
          intro j hj hl hj'
          rcases eq_or_lt_of_le (show i + (k + 1) ≤ j by omega) with rfl | hlt
          · exact absurd hj' hneg
          · exact ⟨hl _ (by omega) hlt, hlt⟩
        by_cases hstop : 0 < s * df (i + (k + 1)) ∨ i + (k + 1) = max
        · -- the loop breaks on a difference of the same sign, and at `max`
          rw [if_pos hstop]
          refine ⟨fun h => Bool.noConfusion h, ?_⟩
          rintro ⟨-, j, hj, hl, hj'⟩
          obtain ⟨hz, hlt⟩ := hnext j hj hl hj'
          rcases hstop with hpos | hend
          · rw [hz, mul_zero] at hpos
            exact absurd hpos (lt_irrefl 0)
          · rw [hzero j (by omega), mul_zero] at hj'
            exact absurd hj' (lt_irrefl 0)
        · rw [if_neg hstop, ih (k + 1) (by omega) hzero]
          rw [not_or] at hstop
          have hz : df (i + (k + 1)) = 0 :=
            (mul_eq_zero.mp (le_antisymm (not_lt.mp hstop.1) (not_lt.mp hneg))).resolve_left hs
          constructor
          · rintro ⟨-, j, hj, hl, hj'⟩
            refine ⟨hk0, j, by omega, fun l h h' => ?_, hj'⟩
            rcases eq_or_lt_of_le (show i + (k + 1) ≤ l by omega) with rfl | hlt
            · exact hz
            · exact hl l hlt h'
          · rintro ⟨-, j, hj, hl, hj'⟩
            refine ⟨by rw [hz, mul_zero], j, (hnext j hj hl hj').2, fun l h h' => ?_, hj'⟩
            exact hl l (by omega) h'
    · rw [if_neg hk0]
      exact ⟨fun h => Bool.noConfusion h, fun h => absurd h.1 hk0⟩

/-- Signs: what has the sign of something opposite to `a` is opposite to `a`. -/
theorem opposite_of_same {a b c : ℤ} (h : a * b < 0) (h' : 0 < b * c) : a * c < 0 := by
  by_contra hge
  have hsq : (a * b) * (b * c) = (a * c) * (b * b) := by ring
  have hneg : (a * b) * (b * c) < 0 := mul_neg_of_neg_of_pos h h'
  rw [hsq] at hneg
  exact absurd hneg (not_lt.mpr (mul_nonneg (not_lt.mp hge) (mul_self_nonneg b)))

/-- Two differences opposite to `a` have the same sign. -/
theorem same_of_opposite {a b c : ℤ} (h : a * b < 0) (h' : a * c < 0) : 0 < b * c := by
  by_contra hle
  have hsq : (a * b) * (a * c) = (b * c) * (a * a) := by ring
  have hpos : 0 < (a * b) * (a * c) := mul_pos_of_neg_of_neg h h'
  rw [hsq] at hpos
  exact absurd hpos (not_lt.mpr (mul_nonpos_of_nonpos_of_nonneg (not_lt.mp hle) (mul_self_nonneg a)))

/-- A turn that lasts, as the look-ahead sees it. -/
theorem lastsAt_iff : LastsAt df i ↔ df i * df (i + 1) ≤ 0 ∧
    ∃ j, i + 1 < j ∧ (∀ l, i + 1 < l → l < j → df l = 0) ∧ df i * df j < 0 := by
  constructor
  · rintro ⟨⟨j, hj, hl, hneg⟩, hback⟩
    rcases eq_or_lt_of_le (show i + 1 ≤ j by omega) with rfl | hlt
    · -- the turn is at once: something after it confirms it
      have hne : df (i + 1) ≠ 0 := by
        intro h
        rw [h, mul_zero] at hneg
        exact absurd hneg (lt_irrefl 0)
      by_contra hno
      refine hback ⟨hne, fun j hj' hl' => ?_⟩
      by_contra hpos
      exact hno ⟨hneg.le, j, hj', hl', opposite_of_same hneg (not_le.mp hpos)⟩
    · have hz : df (i + 1) = 0 := hl (i + 1) (by omega) hlt
      exact ⟨by rw [hz, mul_zero], j, hlt, fun l h h' => hl l (by omega) h', hneg⟩
  · rintro ⟨h1, j, hj, hl, hneg⟩
    rcases eq_or_lt_of_le h1 with h0 | hlt
    · -- the difference right after is zero, as the one at `i` is not
      have hz : df (i + 1) = 0 := by
        apply (mul_eq_zero.mp h0).resolve_left
        intro h
        rw [h, zero_mul] at hneg
        exact absurd hneg (lt_irrefl 0)
      refine ⟨⟨j, by omega, fun l h h' => ?_, hneg⟩, fun hback => hback.1 hz⟩
      rcases eq_or_lt_of_le (show i + 1 ≤ l by omega) with rfl | hlt
      · exact hz
      · exact hl l hlt h'
    · refine ⟨⟨i + 1, by omega, fun l h h' => absurd h (by omega), hlt⟩, fun hback => ?_⟩
      exact absurd (same_of_opposite hlt hneg) (not_lt.mpr (hback.2 j hj hl))

/-- The look-ahead from a difference of sign `s`. -/
theorem turns_iff_lastsAt (hs : 0 < s * df i) (hi : i + 1 ≤ max) (hzero : ∀ j, max < j → df j = 0) :
    Line_IsMonotonous_turns df s i max (max - (i + 1)).toNat 1 = true ↔ LastsAt df i := by
  have hlt : ∀ v, v * s < 0 ↔ v * df i < 0 := fun v =>
    ⟨fun h => opposite_of_same h hs, fun h => opposite_of_same h (by rwa [mul_comm])⟩
  have hle : ∀ v, v * s ≤ 0 ↔ v * df i ≤ 0 := by
    intro v
    have hneg := hlt (-v)
    rw [neg_mul, neg_mul, neg_lt_zero, neg_lt_zero] at hneg
    exact not_lt.symm.trans ((not_congr hneg).trans not_lt)
  have hs0 : s ≠ 0 := by
    rintro rfl
    rw [zero_mul] at hs
    exact absurd hs (lt_irrefl 0)
  rw [Line_IsMonotonous_turns_iff hs0 _ 1 (by omega) hzero, lastsAt_iff]
  simp only [mul_comm s, mul_comm (df i), hlt, hle]

/-- **The loop** stops at the first index below `howmany_point - 3` with a turn that lasts: the
    look-ahead for both signs, read as a statement about the differences. -/
theorem Line_IsMonotonous_loop_iff {howmany_point : ℤ} (hmax : howmany_point - 1 ≤ max)
    (hzero : ∀ j, max < j → df j = 0) : ∀ (n : ℕ) (i : ℤ),
      Line_IsMonotonous_loop df howmany_point max n i = false ↔
        ∃ j, i ≤ j ∧ j < i + n ∧ j < howmany_point - 3 ∧ LastsAt df j := by
  intro n
  induction n with
  | zero =>
    intro i
    refine ⟨fun h => Bool.noConfusion h, ?_⟩
    rintro ⟨j, h1, h2, -, -⟩
    push_cast at h2
    omega
  | succ n ih =>
    intro i
    -- a pass that does not return leaves the question to the rest
    have hrest : (i < howmany_point - 3 → ¬ LastsAt df i) →
        (Line_IsMonotonous_loop df howmany_point max n (i + 1) = false ↔
          ∃ j, i ≤ j ∧ j < i + (n + 1 : ℕ) ∧ j < howmany_point - 3 ∧ LastsAt df j) := by
      intro hno
      rw [ih (i + 1)]
      constructor
      · rintro ⟨j, h1, h2, h3, h4⟩
        exact ⟨j, by omega, by push_cast; omega, h3, h4⟩
      · rintro ⟨j, h1, h2, h3, h4⟩
        rcases eq_or_lt_of_le h1 with rfl | hlt
        · exact absurd h4 (hno h3)
        · exact ⟨j, hlt, by push_cast at h2; omega, h3, h4⟩
    have hstop : i < howmany_point - 3 → LastsAt df i →
        (false = false ↔ ∃ j, i ≤ j ∧ j < i + (n + 1 : ℕ) ∧ j < howmany_point - 3 ∧ LastsAt df j) :=
      fun h3 h4 => ⟨fun _ => ⟨i, le_refl i, by push_cast; omega, h3, h4⟩, fun _ => rfl⟩
    rw [Line_IsMonotonous_loop]
    by_cases h3 : i < howmany_point - 3
    · rw [if_pos h3]
      by_cases hpos : 0 < df i
      · rw [if_pos hpos]
        have hiff := turns_iff_lastsAt (s := 1) (by rwa [one_mul]) (by omega) hzero
        cases hturn : Line_IsMonotonous_turns df 1 i max (max - (i + 1)).toNat 1 with
        | true => exact hstop h3 (hiff.mp hturn)
        | false =>
          rw [if_neg Bool.false_ne_true]
          exact hrest fun _ h4 => Bool.false_ne_true (hturn.symm.trans (hiff.mpr h4))
      · rw [if_neg hpos]
        by_cases hneg : df i < 0
        · rw [if_pos hneg]
          have hiff := turns_iff_lastsAt (s := -1) (i := i) (by omega) (by omega) hzero
          cases hturn : Line_IsMonotonous_turns df (-1) i max (max - (i + 1)).toNat 1 with
          | true => exact hstop h3 (hiff.mp hturn)
          | false =>
            rw [if_neg Bool.false_ne_true]
            exact hrest fun _ h4 => Bool.false_ne_true (hturn.symm.trans (hiff.mpr h4))
        · rw [if_neg hneg]
          apply hrest
          intro _ h4
          obtain ⟨j, -, -, hj⟩ := h4.1
          rw [show df i = 0 by omega, zero_mul] at hj
          exact absurd hj (lt_irrefl 0)
    · rw [if_neg h3]
      exact hrest fun h => absurd h h3

end

/-! ## The filtered differences -/

/-- The difference `i` of a border below row `max`. -/
def difference (b : Broder) (max : ℤ) (i : ℕ) : ℤ := int16 (b (max - i) - b (max - i - 1))

/-- The average of the differences `0 … i`, truncated. -/
def averDifference (b : Broder) (max : ℤ) (i : ℕ) : ℤ :=
  (∑ k ∈ Finset.range (i + 1), difference b max k).tdiv (i + 1)

/-- The differences with the jumps filtered out: one that exceeds the average by 20 is replaced by
    the one before it. -/
def filtered (b : Broder) (max : ℤ) : ℕ → ℤ
  | 0 => difference b max 0
  | i + 1 =>
    if |averDifference b max (i + 1)| + 20 ≤ |difference b max (i + 1)| then filtered b max i
    else difference b max (i + 1)

/-- The first `m` filtered differences, followed by zeros. -/
def differences (b : Broder) (max m : ℤ) (j : ℤ) : ℤ :=
  if 0 ≤ j ∧ j < m then filtered b max j.toNat else 0

/-- The average of the differences `0 … i`, where the sum starts from `a`. -/
def averFrom (b : Broder) (max a : ℤ) (i : ℕ) : ℤ :=
  (a + ∑ k ∈ Finset.range (i + 1), difference b max k).tdiv (i + 1)

/-- The filtered differences where `aver_df` starts from `a` and `df[-1]` holds `e`. -/
def filteredFrom (b : Broder) (max a e : ℤ) : ℕ → ℤ
  | 0 => if |averFrom b max a 0| + 20 ≤ |difference b max 0| then e else difference b max 0
  | i + 1 =>
    if |averFrom b max a (i + 1)| + 20 ≤ |difference b max (i + 1)| then filteredFrom b max a e i
    else difference b max (i + 1)

/-- The array that held `df`, after `m` passes of the filter. -/
def dfAfter (b : Broder) (max a : ℤ) (df : ℤ → ℤ) (m j : ℤ) : ℤ :=
  if 0 ≤ j ∧ j < m then filteredFrom b max a (df (-1)) j.toNat else df j

theorem dfAfter_zero (b : Broder) (max a : ℤ) (df : ℤ → ℤ) : dfAfter b max a df (0 : ℕ) = df :=
  funext fun j => if_neg (by push_cast; omega)

/-- One pass of the filter. -/
theorem dfAfter_succ (b : Broder) (max a : ℤ) (df : ℤ → ℤ) (i : ℕ) :
    (if |averFrom b max a i| + 20 ≤ |difference b max i| then
      Function.update (Function.update (dfAfter b max a df i) i (difference b max i)) i
        (Function.update (dfAfter b max a df i) i (difference b max i) (i - 1))
      else Function.update (dfAfter b max a df i) i (difference b max i)) =
        dfAfter b max a df (i + 1 : ℕ) := by
  -- the cell before the first one is the only one that the filter has not written itself
  have hcell : (if |averFrom b max a i| + 20 ≤ |difference b max i| then
      dfAfter b max a df i (i - 1) else difference b max i) =
        filteredFrom b max a (df (-1)) i := by
    cases i with
    | zero =>
      rw [filteredFrom]
      refine if_congr Iff.rfl ?_ rfl
      rw [dfAfter_zero]
      rfl
    | succ i =>
      rw [filteredFrom]
      refine if_congr Iff.rfl ?_ rfl
      simp only [dfAfter]
      rw [if_pos (by push_cast; omega)]
      congr 1
      push_cast
      omega
  -- the pass writes cell `i` once or twice, and no other
  funext j
  have hnew : dfAfter b max a df (i + 1 : ℕ) j =
      if j = i then filteredFrom b max a (df (-1)) i else dfAfter b max a df i j := by
    simp only [dfAfter]
    by_cases hj : j = i
    · rw [if_pos hj, if_pos (by push_cast; omega), hj, Int.toNat_natCast]
    · rw [if_neg hj]
      exact if_congr (by push_cast; omega) rfl rfl
  rw [hnew, ← hcell]
  by_cases hj : j = i
  · rw [if_pos hj, hj]
    split_ifs
    · rw [Function.update_self, Function.update_of_ne (by omega)]
    · rw [Function.update_self]
  · rw [if_neg hj]
    split_ifs
    · rw [Function.update_of_ne hj, Function.update_of_ne hj]
    · rw [Function.update_of_ne hj]

/-- **The first loop** computes them, whatever the stack held: its sum and the cell before the
    first are the start values of the filter. -/
theorem Line_IsMonotonous_df_from {o : Outside} {b : Broder} {max : ℤ} (hmax : max ≤ 69) (a : ℤ)
    (df : ℤ → ℤ) : ∀ n i : ℕ, (i : ℤ) + n ≤ max →
      Line_IsMonotonous_df o b max n i (dfAfter b max a df i)
        (a + ∑ k ∈ Finset.range i, difference b max k) = .ok (dfAfter b max a df (i + n : ℕ)) := by
  intro n
  induction n with
  | zero => exact fun i _ => rfl
  | succ n ih =>
    intro i hn
    push_cast at hn
    rw [Line_IsMonotonous_df, rd_of_allows (o.allows_of_rows (by omega) (by omega)), ok_bind,
      rd_of_allows (o.allows_of_rows (by omega) (by omega)), ok_bind]
    dsimp only
    rw [cdiv_of_ne (by omega : (i : ℤ) + 1 ≠ 0), ok_bind]
    have hsum : a + ∑ k ∈ Finset.range i, difference b max k +
        int16 (b (max - i) - b (max - i - 1)) =
        a + ∑ k ∈ Finset.range (i + 1), difference b max k := by
      rw [Finset.sum_range_succ, add_assoc]
      rfl
    rw [hsum]
    show Line_IsMonotonous_df o b max n (i + 1)
      (if |averFrom b max a i| + 20 ≤ |difference b max i| then
        Function.update (Function.update (dfAfter b max a df i) i (difference b max i)) i
          (Function.update (dfAfter b max a df i) i (difference b max i) (i - 1))
        else Function.update (dfAfter b max a df i) i (difference b max i)) _ = _
    rw [dfAfter_succ, show (i : ℤ) + 1 = (i + 1 : ℕ) by push_cast; rfl,
      ih (i + 1) (by push_cast; omega), Nat.add_right_comm]
    rfl

/-- **The first loop** as `Line_IsMonotonous` runs it, between the two rows that it is given. -/
theorem Line_IsMonotonous_df_eq (o : Outside) (junk : Uninit) {b : Broder} {max m : ℤ}
    (hmax : max ≤ 69) (h0 : 0 ≤ m) (hm : m ≤ max) :
    Line_IsMonotonous_df o b max m.toNat 0 junk.df junk.aver_df =
      .ok (dfAfter b max junk.aver_df junk.df m) := by
  have heq := Line_IsMonotonous_df_from (o := o) (b := b) hmax junk.aver_df junk.df m.toNat 0
    (by push_cast; omega)
  rw [dfAfter_zero, Finset.sum_range_zero, add_zero, Nat.zero_add, Int.toNat_of_nonneg h0] at heq
  exact heq

/-- Where the sum starts from zero, the first difference is its own average and is never
    filtered. -/
theorem filteredFrom_zero (b : Broder) (max e : ℤ) : filteredFrom b max 0 e = filtered b max := by
  have haver : averFrom b max 0 = averDifference b max := by
    funext i
    simp only [averFrom, averDifference]
    rw [zero_add]
  funext i
  induction i with
  | zero =>
    apply if_neg
    simp only [averFrom]
    rw [zero_add, Finset.sum_range_one, Nat.cast_zero, zero_add, Int.tdiv_one]
    omega
  | succ i ih => rw [filteredFrom, filtered, haver, ih]

theorem dfAfter_zeros (b : Broder) (max m : ℤ) :
    dfAfter b max Uninit.zero.aver_df Uninit.zero.df m = differences b max m := by
  funext j
  simp only [dfAfter, differences]
  rw [← filteredFrom_zero b max 0]
  rfl

/-- A turn before index `m`. -/
def TurnsBefore (df : ℤ → ℤ) (m : ℤ) : Prop := ∃ i, 0 ≤ i ∧ i < m ∧ TurnsAt df i

/-- Every turn before index `m` swings back at once. -/
def OnlySwings (df : ℤ → ℤ) (m : ℤ) : Prop := ∀ i, 0 ≤ i → i < m → TurnsAt df i → SwingsBack df i

/-- The filtered differences of the line between two rows. -/
def lineDifferences (b : Broder) (x1 x2 : ℤ) : ℤ → ℤ :=
  differences b (max x1 x2) (max x1 x2 - min x1 x2)

/-- The number of points of the line. -/
def howManyPoints (x1 x2 : ℤ) : ℤ := max x1 x2 - min x1 x2 + 1

/-- **Monotony**: with locals that hold zeros, the verdict is the one the comment states, unless the
    line has turns and all of them swing back at once. -/
theorem Line_IsMonotonous_swings (o : Outside) {x1 x2 : ℤ} (h : TwoRows x1 x2) (b : Broder) :
    ∃ v, Line_IsMonotonous o .zero b x1 x2 = .ok v ∧
      ((v = false ↔ TurnsBefore (lineDifferences b x1 x2) (howManyPoints x1 x2 - 3)) ↔
        ¬ (TurnsBefore (lineDifferences b x1 x2) (howManyPoints x1 x2 - 3) ∧
          OnlySwings (lineDifferences b x1 x2) (howManyPoints x1 x2 - 3))) := by
  have h1 := inRows_iff.mp h.row1
  have h2 := inRows_iff.mp h.row2
  -- from zeros the first loop leaves the filtered differences, with zeros around them
  have hdf : Line_IsMonotonous_df o b (max x1 x2) (howManyPoints x1 x2 - 1).toNat 0
      Uninit.zero.df Uninit.zero.aver_df = .ok (lineDifferences b x1 x2) := by
    simp only [howManyPoints]
    rw [add_sub_cancel_right, Line_IsMonotonous_df_eq o .zero (by omega) (by omega) (by omega),
      dfAfter_zeros]
    rfl
  refine ⟨Line_IsMonotonous_loop (lineDifferences b x1 x2) (howManyPoints x1 x2) (max x1 x2)
    (howManyPoints x1 x2 - 1).toNat 0, ?_, ?_⟩
  · rw [Line_IsMonotonous, Tool_CmpMax_eq, Tool_CmpMin_eq,
      show max x1 x2 - min x1 x2 + 1 = howManyPoints x1 x2 from rfl, hdf, ok_bind, pure_ok]
  · have hzero : ∀ j, max x1 x2 < j → lineDifferences b x1 x2 j = 0 :=
      fun j hj => if_neg (by omega)
    have hpoints : howManyPoints x1 x2 - 1 ≤ max x1 x2 := by
      simp only [howManyPoints]
      omega
    rw [Line_IsMonotonous_loop_iff hpoints hzero (howManyPoints x1 x2 - 1).toNat 0]
    constructor
    · rintro hsame ⟨hturn, hswing⟩
      -- a turn that lasts is not one that swings back
      obtain ⟨i, h0, -, h3, hlast⟩ := hsame.mpr hturn
      exact hlast.2 (hswing i h0 h3 hlast.1)
    · intro hno
      constructor
      · rintro ⟨i, h0, -, h3, hlast⟩
        exact ⟨i, h0, h3, hlast.1⟩
      · intro hturn
        -- if none lasts, all of them swing back
        by_contra hnone
        refine hno ⟨hturn, fun i h0 h3 hi => ?_⟩
        by_contra hback
        exact hnone ⟨i, h0, by omega, h3, hi, hback⟩

theorem Line_IsMonotonous_swings_witness : TwoRows 69 0 ∧
    ∃ v, Line_IsMonotonous .traps .zero spikeBroder 69 0 = .ok v ∧
      ((v = false ↔ TurnsBefore (lineDifferences spikeBroder 69 0) (howManyPoints 69 0 - 3)) ↔
        ¬ (TurnsBefore (lineDifferences spikeBroder 69 0) (howManyPoints 69 0 - 3) ∧
          OnlySwings (lineDifferences spikeBroder 69 0) (howManyPoints 69 0 - 3))) :=
  have h : TwoRows 69 0 := ⟨by decide, by decide, by decide⟩
  ⟨h, Line_IsMonotonous_swings .traps h spikeBroder⟩

/-- Column 50 and column 51 in turn. -/
def zigzagBroder : Broder := fun r => 50 + r % 2

/-- Six rows in zigzag turn at once, and are called monotonous. -/
theorem Line_IsMonotonous_swings_zigzag : TwoRows 5 0 ∧
    Line_IsMonotonous .traps .zero zigzagBroder 5 0 = .ok true ∧
    TurnsBefore (lineDifferences zigzagBroder 5 0) (howManyPoints 5 0 - 3) := by
  refine ⟨⟨by decide, by decide, by decide⟩, by decide, 0, le_refl 0, by decide, 1, by decide, ?_⟩
  exact ⟨fun l h h' => absurd h (by omega), by decide⟩

end Car2025
