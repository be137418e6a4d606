/-
  `user_math.c`: the geometry the vision code computes with.

  Each function is translated statement by statement; a loop is a structural recursion on the
  number of passes left.  Locals that C leaves uninitialised (`df` and `aver_df` in
  `Line_IsMonotonous`, `total` in `Line_GetAverage`) start from the parameter `Uninit`, about which
  nothing is known.  The two flags of `Line_IsMonotonous` that are set and never read
  (`add_flag`, `dec_flag`) are left out.

  `Point_GetCurvity`, `Line_IsJumpExist` and `Tool_IsMultiple` are called by no vision function and
  are not modelled.
-/
import Mathlib
import Car2025.Broder

namespace Car2025

/-! ## Points and helpers -/

/-- `point_t`: `x` is a row, `y` a column. -/
structure point_t where
  x : ℤ
  y : ℤ
  deriving DecidableEq, Repr

/-- `vector` is the same structure. -/
abbrev vector := point_t

def Tool_CmpMax (num1 num2 : ℤ) : ℤ := if num1 > num2 then num1 else num2
def Tool_CmpMin (num1 num2 : ℤ) : ℤ := if num1 > num2 then num2 else num1

theorem Tool_CmpMax_eq (a b : ℤ) : Tool_CmpMax a b = max a b := by
  unfold Tool_CmpMax
  split <;> omega

theorem Tool_CmpMin_eq (a b : ℤ) : Tool_CmpMin a b = min a b := by
  unfold Tool_CmpMin
  split <;> omega

/-- The contents of uninitialised locals. -/
structure Uninit where
  df : ℤ → ℤ
  aver_df : ℤ
  total : ℤ

/-- A stack that happens to hold zeros. -/
def Uninit.zero : Uninit := ⟨fun _ => 0, 0, 0⟩

section

variable {R : Type} [CFloat R]

/-- The macro `Line_CalK`, a slope; `Point_CalSlope` is the same quotient as a function. -/
def Line_CalK (o : Outside) (p1 p2 : point_t) : Except Stop R :=
  fdiv o (CFloat.ofInt (p1.y - p2.y)) (p1.x - p2.x)

def Point_CalSlope (o : Outside) (p1 p2 : point_t) : Except Stop R :=
  fdiv o (CFloat.ofInt (p1.y - p2.y)) (p1.x - p2.x)

/-- `Vector_AngleGet`: the cosine at `p2`.  The divisor is the product of the two moduli; it is
    zero exactly when one of the integer vectors is, and this is what is tested. -/
def Vector_AngleGet (o : Outside) (p1 p2 p3 : point_t) : Except Stop R :=
  let vec1 : vector := ⟨int16 (p1.x - p2.x), int16 (p1.y - p2.y)⟩
  let vec2 : vector := ⟨int16 (p3.x - p2.x), int16 (p3.y - p2.y)⟩
  if o = .traps ∧ (vec1 = ⟨0, 0⟩ ∨ vec2 = ⟨0, 0⟩) then .error .divisor
  else .ok (CFloat.ofInt (vec1.x * vec2.x + vec1.y * vec2.y) /
    (CFloat.sqrt (CFloat.ofInt (vec1.x * vec1.x + vec1.y * vec1.y)) *
      CFloat.sqrt (CFloat.ofInt (vec2.x * vec2.x + vec2.y * vec2.y))))

/-! ## `Line_IsStraight` -/

/-- `Math_StraightJudgeValue` -/
def Math_StraightJudgeValue : ℤ := 5

/-- The loop of `Line_IsStraight`, from `i` on.  The row compared is `broder[i]`, counted from the
    far edge of the image, while the chord is counted from `broder[min]`. -/
def Line_IsStraight_loop (o : Outside) (broder : Broder) (min : ℤ) (K_ : R) :
    ℕ → ℤ → Except Stop Bool
  | 0, _ => pure true
  | n + 1, i => do
    let target_value := int16 (CFloat.toInt (CFloat.ofInt (← rd o broder min) + K_ * CFloat.ofInt i))
    if Math_StraightJudgeValue < |(← rd o broder i) - target_value| then pure false
    else Line_IsStraight_loop o broder min K_ n (i + 1)

variable (R) in
/-- `Line_IsStraight`: `true` is `ISSTRAIGHT`. -/
def Line_IsStraight (o : Outside) (broder : Broder) (x1 x2 : ℤ) : Except Stop Bool := do
  let p1 : point_t := ⟨x1, ← rd o broder x1⟩
  let p2 : point_t := ⟨x2, ← rd o broder x2⟩
  let K_ : R ← Line_CalK o p1 p2
  let max := Tool_CmpMax x1 x2
  let min := Tool_CmpMin x1 x2
  let howmany_point := max - min
  Line_IsStraight_loop o broder min K_ howmany_point.toNat 0

end

/-! ## `Line_IsMonotonous` -/

/-- The first loop of `Line_IsMonotonous`: the differences `df`, each replaced by the one before it
    when it jumps by 20 more than the average so far.  At `i = 0` the one before is `df[-1]`. -/
def Line_IsMonotonous_df (o : Outside) (broder : Broder) (max : ℤ) :
    ℕ → ℤ → (ℤ → ℤ) → ℤ → Except Stop (ℤ → ℤ)
  | 0, _, df, _ => pure df
  | n + 1, i, df, aver_df => do
    let d := int16 ((← rd o broder (max - i)) - (← rd o broder (max - i - 1)))
    let aver_df := aver_df + d
    let aver ← cdiv aver_df (i + 1)
    let df := Function.update df i d
    let df := if |aver| + 20 ≤ |d| then Function.update df i (df (i - 1)) else df
    Line_IsMonotonous_df o broder max n (i + 1) df aver_df

/-- The inner `while` after a nonzero `df[i]`, `s` being its sign: does it reach
    `return MONO_NOEXIST`?  The source writes it once for each sign.  The counter is the distance
    of `i + k` from `max`, where the loop breaks. -/
def Line_IsMonotonous_turns (df : ℤ → ℤ) (s i max : ℤ) : ℕ → ℤ → Bool
  | 0, _ => false
  | n + 1, k =>
    if s * df (i + k) ≤ 0 then
      if s * df (i + (k + 1)) < 0 then true
      else if 0 < s * df (i + (k + 1)) ∨ i + (k + 1) = max then false
      else Line_IsMonotonous_turns df s i max n (k + 1)
    else false

/-- The second loop of `Line_IsMonotonous`, from `i` on: `true` is `MONO_EXIST`. -/
def Line_IsMonotonous_loop (df : ℤ → ℤ) (howmany_point max : ℤ) : ℕ → ℤ → Bool
  | 0, _ => true
  | n + 1, i =>
    if i < howmany_point - 3 then
      if 0 < df i then
        if Line_IsMonotonous_turns df 1 i max (max - (i + 1)).toNat 1 then false
        else Line_IsMonotonous_loop df howmany_point max n (i + 1)
      else if df i < 0 then
        if Line_IsMonotonous_turns df (-1) i max (max - (i + 1)).toNat 1 then false
        else Line_IsMonotonous_loop df howmany_point max n (i + 1)
      else Line_IsMonotonous_loop df howmany_point max n (i + 1)
    else Line_IsMonotonous_loop df howmany_point max n (i + 1)

/-- `Line_IsMonotonous`: `true` is `MONO_EXIST`. -/
def Line_IsMonotonous (o : Outside) (junk : Uninit) (broder : Broder) (x1 x2 : ℤ) :
    Except Stop Bool := do
  let max := Tool_CmpMax x1 x2
  let min := Tool_CmpMin x1 x2
  let howmany_point := max - min + 1
  let df ← Line_IsMonotonous_df o broder max (howmany_point - 1).toNat 0 junk.df junk.aver_df
  pure (Line_IsMonotonous_loop df howmany_point max (howmany_point - 1).toNat 0)

/-! ## `Line_GetAverage` -/

/-- `total += broder[i]` from `i` on. -/
def Line_GetAverage_loop (o : Outside) (broder : Broder) : ℕ → ℤ → ℤ → Except Stop ℤ
  | 0, _, total => pure total
  | n + 1, i, total => do
    Line_GetAverage_loop o broder n (i + 1) (total + (← rd o broder i))

/-- `Line_GetAverage`. -/
def Line_GetAverage (o : Outside) (junk : Uninit) (broder : Broder) (x1 x2 : ℤ) :
    Except Stop ℤ := do
  let min := Tool_CmpMin x1 x2
  let max := Tool_CmpMax x1 x2
  let total ← Line_GetAverage_loop o broder (max - min + 1).toNat min junk.total
  pure (int16 (← cdiv total (max - min + 1)))

/-! ## Inside the rows nothing stops

  Between two rows of the array the functions above read rows of the array only, and their divisors
  are differences of rows: this is the part of the geometry's safety that does not depend on where
  segments and feature points lie. -/

section

variable {R : Type} [CFloat R]

theorem fdiv_ok {o : Outside} {a : R} {d : ℤ} (h : d ≠ 0) : ∃ q, fdiv o a d = .ok q :=
  ⟨_, fdiv_of_ne h⟩

theorem Line_IsStraight_loop_ok {o : Outside} {b : Broder} {min : ℤ} (K_ : R)
    (h0 : 0 ≤ min) (h1 : min ≤ 69) : ∀ (n : ℕ) (i : ℤ), 0 ≤ i → i + n ≤ 70 →
      ∃ v, Line_IsStraight_loop o b min K_ n i = .ok v
  | 0, _, _, _ => ⟨true, rfl⟩
  | n + 1, i, hi, hn => by
    rw [Line_IsStraight_loop, rd_of_allows (o.allows_of_rows h0 h1), ok_bind,
      rd_of_allows (o.allows_of_rows hi (by omega)), ok_bind]
    split
    · exact ⟨false, rfl⟩
    · exact Line_IsStraight_loop_ok K_ h0 h1 n (i + 1) (by omega) (by omega)

/-- On two distinct rows `Line_IsStraight` returns. -/
theorem Line_IsStraight_ok {o : Outside} {b : Broder} {x1 x2 : ℤ} (hne : x1 ≠ x2)
    (h1 : 0 ≤ x1) (h1' : x1 ≤ 69) (h2 : 0 ≤ x2) (h2' : x2 ≤ 69) :
    ∃ v, Line_IsStraight R o b x1 x2 = .ok v := by
  unfold Line_IsStraight
  rw [rd_of_allows (o.allows_of_rows h1 h1'), ok_bind, rd_of_allows (o.allows_of_rows h2 h2'),
    ok_bind]
  obtain ⟨K_, hK⟩ : ∃ K_ : R, Line_CalK o (⟨x1, b x1⟩ : point_t) ⟨x2, b x2⟩ = .ok K_ :=
    fdiv_ok (by show x1 - x2 ≠ 0; omega)
  dsimp only
  rw [hK, ok_bind, Tool_CmpMax_eq, Tool_CmpMin_eq]
  exact Line_IsStraight_loop_ok K_ (by omega) (by omega) _ 0 (le_refl 0) (by omega)

end

theorem Line_IsMonotonous_df_ok {o : Outside} {b : Broder} {max : ℤ} (hmax : max ≤ 69) :
    ∀ (n : ℕ) (i : ℤ) (df : ℤ → ℤ) (aver_df : ℤ), 0 ≤ i → i + n ≤ max →
      ∃ df', Line_IsMonotonous_df o b max n i df aver_df = .ok df'
  | 0, _, df, _, _, _ => ⟨df, rfl⟩
  | n + 1, i, df, aver_df, hi, hn => by
    rw [Line_IsMonotonous_df, rd_of_allows (o.allows_of_rows (by omega) (by omega)), ok_bind,
      rd_of_allows (o.allows_of_rows (by omega) (by omega)), ok_bind]
    dsimp only
    rw [cdiv_of_ne (by omega : i + 1 ≠ 0), ok_bind]
    exact Line_IsMonotonous_df_ok hmax n (i + 1) _ _ (by omega) (by push_cast at hn; omega)

/-- Between two rows `Line_IsMonotonous` returns, whatever its locals held. -/
theorem Line_IsMonotonous_ok {o : Outside} {b : Broder} (junk : Uninit) {x1 x2 : ℤ}
    (h1 : 0 ≤ x1) (h1' : x1 ≤ 69) (h2 : 0 ≤ x2) (h2' : x2 ≤ 69) :
    ∃ v, Line_IsMonotonous o junk b x1 x2 = .ok v := by
  unfold Line_IsMonotonous
  dsimp only
  rw [Tool_CmpMax_eq, Tool_CmpMin_eq]
  obtain ⟨df, hdf⟩ : ∃ df, Line_IsMonotonous_df o b (max x1 x2)
      (max x1 x2 - min x1 x2 + 1 - 1).toNat 0 junk.df junk.aver_df = .ok df :=
    Line_IsMonotonous_df_ok (by omega) _ 0 _ _ (le_refl 0) (by omega)
  exact ⟨_, by rw [hdf, ok_bind, pure_ok]⟩

theorem Line_GetAverage_loop_ok {o : Outside} {b : Broder} :
    ∀ (n : ℕ) (i total : ℤ), 0 ≤ i → i + n ≤ 70 →
      ∃ t, Line_GetAverage_loop o b n i total = .ok t
  | 0, _, total, _, _ => ⟨total, rfl⟩
  | n + 1, i, total, hi, hn => by
    rw [Line_GetAverage_loop, rd_of_allows (o.allows_of_rows hi (by omega)), ok_bind]
    exact Line_GetAverage_loop_ok n (i + 1) _ (by omega) (by push_cast at hn; omega)

/-- Between two rows `Line_GetAverage` returns: it averages over at least one point. -/
theorem Line_GetAverage_ok {o : Outside} {b : Broder} (junk : Uninit) {x1 x2 : ℤ}
    (h1 : 0 ≤ x1) (h1' : x1 ≤ 69) (h2 : 0 ≤ x2) (h2' : x2 ≤ 69) :
    ∃ v, Line_GetAverage o junk b x1 x2 = .ok v := by
  unfold Line_GetAverage
  dsimp only
  rw [Tool_CmpMax_eq, Tool_CmpMin_eq]
  obtain ⟨t, ht⟩ := Line_GetAverage_loop_ok (o := o) (b := b)
    (max x1 x2 - min x1 x2 + 1).toNat (min x1 x2) junk.total (by omega) (by omega)
  exact ⟨_, by rw [ht, ok_bind, cdiv_of_ne (by omega), ok_bind, pure_ok]⟩

/-- The angle at `p2` is defined as soon as both neighbours lie on other rows. -/
theorem Vector_AngleGet_ok {R : Type} [CFloat R] {o : Outside} {p1 p2 p3 : point_t}
    (h1 : p1.x ≠ p2.x) (h3 : p3.x ≠ p2.x) (hd1 : |p1.x - p2.x| < 32768)
    (hd3 : |p3.x - p2.x| < 32768) : ∃ c : R, Vector_AngleGet o p1 p2 p3 = .ok c := by
  rw [abs_lt] at hd1 hd3
  have hx1 : int16 (p1.x - p2.x) ≠ 0 := by
    rw [int16_of_small (by omega) (by omega)]
    omega
  have hx3 : int16 (p3.x - p2.x) ≠ 0 := by
    rw [int16_of_small (by omega) (by omega)]
    omega
  unfold Vector_AngleGet
  rw [if_neg]
  · exact ⟨_, rfl⟩
  · rintro ⟨-, h | h⟩
    · exact hx1 (congrArg point_t.x h)
    · exact hx3 (congrArg point_t.x h)

end Car2025
