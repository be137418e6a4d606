/-
  `Vision_BroderFindFP`: the corner points of a border.

  1. **Program** — `Vision_FindArcFP` looks for the row with the sharpest turn between two rows,
     repairing isolated lost rows on its way; `Vision_BroderFindFP` decides where to look from the
     segments.  The code that looks at the far segment is written twice in the source, in both
     branches of a lost second segment; it is `FindFP_far` here.

  2. **Result (`Vision_FindArcFP_ok`)** — over three rows or more the search stays inside its rows,
     divides by no zero vector, and finds a row strictly below the nearest one, or none.
-/
import Mathlib
import Car2025.Vision.GetSegment

namespace Car2025

open segment_type

section

variable {R : Type} [CFloat R]

/-! ## `Vision_FindArcFP` -/

/-- An isolated lost row takes the value of the row below it. -/
def Vision_FindArcFP_repair (o : Outside) (broder : Broder) (i : ℤ) : Except Stop Broder := do
  let v ← rd o broder i
  if v = LEFT_LOSE_VALUE ∨ v = RIGHT_LOSE_VALUE then wr o broder i (← rd o broder (i - 1))
  else pure broder

/-- `for(int i = max - 2; i>min+1; i--)`, from `i` on. -/
def Vision_FindArcFP_loop (o : Outside) (max min : ℤ) :
    ℕ → ℤ → Broder → ℤ → R → Except Stop (Broder × ℤ × R)
  | 0, _, broder, final_x, cosvalue => pure (broder, final_x, cosvalue)
  | n + 1, i, broder, final_x, cosvalue => do
    let low_x := if i - min ≥ 5 then i - 5 else min
    let high_x := if max - i ≥ 5 then i + 5 else max
    let broder ← Vision_FindArcFP_repair o broder i
    let currentcos : R ← Vector_AngleGet o ⟨low_x, ← rd o broder low_x⟩ ⟨i, ← rd o broder i⟩
      ⟨high_x, ← rd o broder high_x⟩
    if CFloat.lt cosvalue currentcos then
      Vision_FindArcFP_loop o max min n (i - 1) broder i currentcos
    else Vision_FindArcFP_loop o max min n (i - 1) broder final_x cosvalue

variable (R) in
/-- `Vision_FindArcFP`; the point `(-1, -1)` says that none was found. -/
def Vision_FindArcFP (o : Outside) (broder : Broder) (x1 x2 : ℤ) :
    Except Stop (Broder × point_t) := do
  let max := Tool_CmpMax x1 x2
  let min := Tool_CmpMin x1 x2
  let how_many := max - min + 1
  let final_x := max - 1
  let p_distance := 5
  let p_th : R := CFloat.ofRat (-3 / 10)
  let last := if how_many ≥ p_distance + 2 then max - p_distance else min
  let cosvalue : R ← Vector_AngleGet o ⟨max, ← rd o broder max⟩
    ⟨max - 1, ← rd o broder (max - 1)⟩ ⟨last, ← rd o broder last⟩
  let (broder, final_x, cosvalue) ←
    Vision_FindArcFP_loop o max min (max - min - 3).toNat (max - 2) broder final_x cosvalue
  if CFloat.lt p_th cosvalue then pure (broder, ⟨final_x, ← rd o broder final_x⟩)
  else pure (broder, ⟨-1, -1⟩)

/-! ## `Vision_BroderFindFP` -/

/-- `target_FP[i] = p` -/
def setFP (S : FeatureSide) (i : ℕ) (p : point_t) : FeatureSide :=
  { S with feature_p := Function.update S.feature_p i p }

/-- The count and the first three points cleared. -/
def clearFP (S : FeatureSide) : FeatureSide :=
  { S with
    FP_n := 0
    feature_p := fun i => if i < 3 then ⟨0, 0⟩ else S.feature_p i }

variable (R) in
/-- The nearer corner of a segment: at most 15 rows of it are searched. -/
def FindFP_near (o : Outside) (broder : Broder) (seg : segment_t) :
    Except Stop (Broder × point_t) := do
  let (broder, pf) ← Vision_FindArcFP R o broder seg.begin
    (if seg.begin - seg.end ≥ 15 then seg.begin - 15 else seg.end)
  let x := if pf.x = -1 then seg.begin else pf.x
  if pf.y = -1 then pure (broder, ⟨x, ← rd o broder seg.begin⟩) else pure (broder, ⟨x, pf.y⟩)

variable (R) in
/-- The corner of the segment behind the lost one; when the two segments differ by more than 80
    columns, the first corner is withdrawn. -/
def FindFP_far (o : Outside) (junk : Uninit) (aver1 : ℤ) (broder : Broder) (S : FeatureSide) :
    Except Stop (Broder × FeatureSide) := do
  if !IsNull (S.my_segment 2) then
    let aver2 ← Line_GetAverage o junk broder (S.my_segment 2).begin (S.my_segment 2).end
    if |aver1 - aver2| > 80 then
      pure (broder, { setFP S 0 ⟨-1, -1⟩ with FP_n := S.FP_n - 1 })
    else
      let (broder, p) ← FindFP_near R o broder (S.my_segment 2)
      pure (broder, { setFP S 1 p with FP_n := S.FP_n + 1 })
  else pure (broder, S)

variable (R) in
/-- `Vision_BroderFindFP` on the border and the record of one side; `junk i` is what the stack holds
    at the `i`-th average. -/
def Vision_BroderFindFP (o : Outside) (junk : ℕ → Uninit) (broder : Broder) (S : FeatureSide) :
    Except Stop (Broder × FeatureSide) := do
  let S := clearFP S
  if IsLose (S.my_segment 1) && Vision_IsLone (S.my_segment 1) then
    let aver1 ← Line_GetAverage o (junk 0) broder (S.my_segment 0).begin (S.my_segment 0).end
    let (broder, pf) ← Vision_FindArcFP R o broder (S.my_segment 0).begin (S.my_segment 0).end
    if pf.x = -1 ∧ pf.y = -1 then
      let p : point_t := ⟨(S.my_segment 0).end, ← rd o broder (S.my_segment 0).end⟩
      FindFP_far R o (junk 1) aver1 broder { setFP S 0 p with FP_n := S.FP_n + 1 }
    else
      FindFP_far R o (junk 1) aver1 broder { setFP S 0 pf with FP_n := S.FP_n + 1 }
  else if IsLose (S.my_segment 0) then
    if !IsNull (S.my_segment 1) then
      let (broder, p) ← FindFP_near R o broder (S.my_segment 1)
      pure (broder, { setFP S 0 p with FP_n := S.FP_n + 1 })
    else pure (broder, S)
  else if IsArc (S.my_segment 0) && decide (S.segment_n = 1) then
    let (broder, pf) ← Vision_FindArcFP R o broder (S.my_segment 0).begin 25
    if pf.x ≠ -1 ∧ pf.y ≠ -1 then
      pure (broder, { setFP S 0 pf with FP_n := S.FP_n + 1 })
    else pure (broder, S)
  else pure (broder, S)

/-! ## Inside the rows nothing stops -/

/-- The rows between which a search looks: three at least, so there is one with a neighbour on
    either side. -/
structure SearchRows (max min : ℤ) : Prop where
  nonneg : 0 ≤ min
  le : max ≤ 69
  long : min + 2 ≤ max

theorem Vision_FindArcFP_repair_ok {o : Outside} {b : Broder} {i : ℤ} (h : o.Allows i)
    (h' : o.Allows (i - 1)) : ∃ b', Vision_FindArcFP_repair o b i = .ok b' := by
  unfold Vision_FindArcFP_repair
  rw [rd_of_allows h, ok_bind]
  split_ifs
  · rw [rd_of_allows h', ok_bind, wr_of_allows h]
    exact ⟨_, rfl⟩
  · exact ⟨b, rfl⟩

/-- **The loop** stays between its rows and keeps a row it has seen, by induction on the rows that
    are left. -/
theorem Vision_FindArcFP_loop_ok {o : Outside} {max min : ℤ} (h : SearchRows max min) :
    ∀ (n : ℕ) (i : ℤ) (b : Broder) (final_x : ℤ) (cosvalue : R), i ≤ max - 2 →
      (n = 0 ∨ min + 1 + n ≤ i) → min < final_x → final_x < max →
      ∃ b' x c, Vision_FindArcFP_loop o max min n i b final_x cosvalue = .ok (b', x, c) ∧
        min < x ∧ x < max
  | 0, i, b, final_x, cosvalue, _, _, h1, h2 => ⟨b, final_x, cosvalue, rfl, h1, h2⟩
  | n + 1, i, b, final_x, cosvalue, hi, hn, h1, h2 => by
    obtain ⟨h0, h69, -⟩ := h
    have hallow : ∀ r, min ≤ r → r ≤ max → o.Allows r :=
      fun r hr hr' => o.allows_of_rows (by omega) (by omega)
    -- The arms of the angle reach five rows, cut off at the ends of the segment, and never have
    -- length zero.
    have hlow : min ≤ (if i - min ≥ 5 then i - 5 else min) ∧
        (if i - min ≥ 5 then i - 5 else min) < i := by
      split_ifs <;> omega
    have hhigh : i < (if max - i ≥ 5 then i + 5 else max) ∧
        (if max - i ≥ 5 then i + 5 else max) ≤ max := by
      split_ifs <;> omega
    obtain ⟨b', hb'⟩ := Vision_FindArcFP_repair_ok (b := b) (hallow i (by omega) (by omega))
      (hallow (i - 1) (by omega) (by omega))
    rw [Vision_FindArcFP_loop, hb', ok_bind,
      rd_of_allows (hallow _ hlow.1 (by omega)), ok_bind,
      rd_of_allows (hallow i (by omega) (by omega)), ok_bind,
      rd_of_allows (hallow _ (by omega) hhigh.2), ok_bind]
    obtain ⟨c, hc⟩ : ∃ c : R, Vector_AngleGet o
        ⟨if i - min ≥ 5 then i - 5 else min, b' (if i - min ≥ 5 then i - 5 else min)⟩ ⟨i, b' i⟩
        ⟨if max - i ≥ 5 then i + 5 else max, b' (if max - i ≥ 5 then i + 5 else max)⟩ = .ok c :=
      Vector_AngleGet_ok (by dsimp only; omega) (by dsimp only; omega)
        (abs_lt.mpr (by dsimp only; omega)) (abs_lt.mpr (by dsimp only; omega))
    rw [hc, ok_bind]
    split_ifs
    · exact Vision_FindArcFP_loop_ok ⟨h0, h69, by omega⟩ n (i - 1) b' i c (by omega) (by omega)
        (by omega) (by omega)
    · exact Vision_FindArcFP_loop_ok ⟨h0, h69, by omega⟩ n (i - 1) b' final_x cosvalue (by omega)
        (by omega) h1 h2

/-- **The search** over three rows or more returns; a point it finds lies strictly between. -/
theorem Vision_FindArcFP_ok {o : Outside} {b : Broder} {x1 x2 : ℤ}
    (h : SearchRows (max x1 x2) (min x1 x2)) :
    ∃ b' p, Vision_FindArcFP R o b x1 x2 = .ok (b', p) ∧
      (p = ⟨-1, -1⟩ ∨ min x1 x2 < p.x ∧ p.x < max x1 x2) := by
  unfold Vision_FindArcFP
  dsimp only
  rw [Tool_CmpMax_eq, Tool_CmpMin_eq]
  generalize max x1 x2 = hi at h ⊢
  generalize min x1 x2 = lo at h ⊢
  obtain ⟨h0, h69, hlong⟩ := h
  have hallow : ∀ r, lo ≤ r → r ≤ hi → o.Allows r :=
    fun r hr hr' => o.allows_of_rows (by omega) (by omega)
  -- The first angle, at row `hi - 1`, is taken before the loop.
  have hlast : lo ≤ (if hi - lo + 1 ≥ 5 + 2 then hi - 5 else lo) ∧
      (if hi - lo + 1 ≥ 5 + 2 then hi - 5 else lo) < hi - 1 := by
    split_ifs <;> omega
  rw [rd_of_allows (hallow hi (by omega) (le_refl _)), ok_bind,
    rd_of_allows (hallow (hi - 1) (by omega) (by omega)), ok_bind,
    rd_of_allows (hallow _ hlast.1 (by omega)), ok_bind]
  obtain ⟨c, hc⟩ : ∃ c : R, Vector_AngleGet o ⟨hi, b hi⟩ ⟨hi - 1, b (hi - 1)⟩
      ⟨if hi - lo + 1 ≥ 5 + 2 then hi - 5 else lo,
        b (if hi - lo + 1 ≥ 5 + 2 then hi - 5 else lo)⟩ = .ok c :=
    Vector_AngleGet_ok (by dsimp only; omega) (by dsimp only; omega)
      (abs_lt.mpr (by dsimp only; omega)) (abs_lt.mpr (by dsimp only; omega))
  rw [hc, ok_bind]
  obtain ⟨b', x, c', hloop, hx, hx'⟩ := Vision_FindArcFP_loop_ok (o := o) (R := R)
    ⟨h0, h69, hlong⟩ (hi - lo - 3).toNat (hi - 2) b (hi - 1) c (le_refl _) (by omega) (by omega)
    (by omega)
  rw [hloop, ok_bind]
  dsimp only
  split_ifs
  · rw [rd_of_allows (hallow x (by omega) (by omega)), ok_bind]
    exact ⟨_, _, rfl, Or.inr ⟨hx, hx'⟩⟩
  · exact ⟨_, _, rfl, Or.inl rfl⟩

end

end Car2025
