/-
  Where the feature points lie.

  1. **Repairs (`Repaired`)** — a search between two rows rewrites the border while it scans: a row
     strictly between takes the value of another one.  What lies outside stays.

  2. **Searches** — a point that is found lies strictly between the rows searched, on the border that
     the search leaves.

  3. **Result (`Vision_BroderFindFP_points`)** — every recorded point lies in the rows of its segment
     and on the border at return; there are at most two, and two only around a long lost segment.
-/
import Mathlib
import Car2025.Vision.Safety

namespace Car2025

open segment_type Outcome

/-! ## Repairs -/

/-- Each row holds what it held or, strictly between `lo` and `hi`, what another such row held. -/
def Repaired (lo hi : ℤ) (b b' : Broder) : Prop :=
  ∀ r, b' r = b r ∨ lo < r ∧ r < hi ∧ ∃ r', lo < r' ∧ r' < hi ∧ b' r = b r'

namespace Repaired

variable {lo hi lo' hi' : ℤ} {b b' b'' : Broder}

theorem refl (lo hi : ℤ) (b : Broder) : Repaired lo hi b b := fun _ => Or.inl rfl

theorem trans (h : Repaired lo hi b b') (h' : Repaired lo hi b' b'') : Repaired lo hi b b'' := by
  intro r
  rcases h' r with hr | ⟨h1, h2, r', h3, h4, hr⟩
  · rcases h r with hr' | ⟨h1, h2, r', h3, h4, hr'⟩
    · exact Or.inl (hr.trans hr')
    · exact Or.inr ⟨h1, h2, r', h3, h4, hr.trans hr'⟩
  · rcases h r' with hr' | ⟨-, -, r'', h5, h6, hr'⟩
    · exact Or.inr ⟨h1, h2, r', h3, h4, hr.trans hr'⟩
    · exact Or.inr ⟨h1, h2, r'', h5, h6, hr.trans hr'⟩

theorem mono (h : Repaired lo hi b b') (hlo : lo' ≤ lo) (hhi : hi ≤ hi') :
    Repaired lo' hi' b b' := by
  intro r
  rcases h r with hr | ⟨h1, h2, r', h3, h4, hr⟩
  · exact Or.inl hr
  · exact Or.inr ⟨by omega, by omega, r', by omega, by omega, hr⟩

/-- The rows outside stay. -/
theorem outside (h : Repaired lo hi b b') {r : ℤ} (hr : r ≤ lo ∨ hi ≤ r) : b' r = b r := by
  rcases h r with h' | ⟨h1, h2, -⟩
  · exact h'
  · omega

end Repaired

/-- The border shows pixels of the image. -/
def Pixels (b : Broder) : Prop := ∀ r, 0 ≤ r → r ≤ 69 → 0 ≤ b r ∧ b r ≤ 187

/-- A repair brings no new values. -/
theorem Repaired.pixels {lo hi : ℤ} {b b' : Broder} (h : Repaired lo hi b b') (hb : Pixels b)
    (hlo : 0 ≤ lo) (hhi : hi ≤ 69) : Pixels b' := by
  intro r h0 h69
  rcases h r with hr | ⟨-, -, r', h1, h2, hr⟩
  · rw [hr]
    exact hb r h0 h69
  · rw [hr]
    exact hb r' (by omega) (by omega)

section

variable {R : Type} [CFloat R] {o : Outside} {b : Broder}

/-! ## Searches -/

/-- Every program stops or not; only what it returns is described. -/
abbrev Returns {α : Type} (x : Except Stop α) (post : α → Prop) : Prop := Ends (fun _ => True) x post

theorem rd_returns {i : ℤ} : Returns (rd o b i) fun v => v = b i :=
  Ends.ite (fun _ => rfl) (fun _ => trivial)

theorem wr_returns {i v : ℤ} : Returns (wr o b i v) fun b' => b' = Function.update b i v :=
  Ends.ite (fun _ => rfl) (fun _ => trivial)

theorem Vision_FindArcFP_repair_returns {lo hi i : ℤ} (h1 : lo + 1 < i) (h2 : i < hi) :
    Returns (Vision_FindArcFP_repair o b i) (Repaired lo hi b) := by
  apply rd_returns.bind
  intro v _
  refine Ends.ite (fun _ => ?_) (fun _ => Repaired.refl lo hi b)
  apply rd_returns.bind
  intro w hw
  apply wr_returns.imp
  intro b' hb' r
  by_cases hr : r = i
  · rw [hb', hr, Function.update_self, hw]
    exact Or.inr ⟨by omega, h2, i - 1, by omega, by omega, rfl⟩
  · rw [hb', Function.update_of_ne hr]
    exact Or.inl rfl

/-- **The loop** repairs rows between `min` and `max` only. -/
theorem Vision_FindArcFP_loop_returns {max min : ℤ} : ∀ (n : ℕ) (i : ℤ) (b : Broder) (x : ℤ) (c : R),
    i < max → (n = 0 ∨ min + 1 + n ≤ i) →
      Returns (Vision_FindArcFP_loop o max min n i b x c) fun r => Repaired min max b r.1 := by
  intro n
  induction n with
  | zero => exact fun i b x c _ _ => Repaired.refl min max b
  | succ n ih =>
    intro i b x c hi hn
    apply (Vision_FindArcFP_repair_returns (show min + 1 < i by omega) hi).bind
    intro b' hb'
    refine rd_returns.bind fun _ _ => rd_returns.bind fun _ _ => rd_returns.bind fun _ _ => ?_
    refine Ends.bind (m := fun _ => True) (Ends.ite (fun _ => trivial) (fun _ => trivial)) ?_
    intro c' _
    refine Ends.ite (fun _ => ?_) (fun _ => ?_)
    · exact (ih (i - 1) b' i c' (by omega) (by omega)).imp fun r hr => hb'.trans hr
    · exact (ih (i - 1) b' x c (by omega) (by omega)).imp fun r hr => hb'.trans hr

/-- **The search**: the point lies on the border that is left.  The search repairs rows as it goes,
    and reads the column of its point only at the end. -/
theorem Vision_FindArcFP_returns (R : Type) [CFloat R] (x1 x2 : ℤ) :
    Returns (Vision_FindArcFP R o b x1 x2) fun r =>
      Repaired (min x1 x2) (max x1 x2) b r.1 ∧ (r.2 = ⟨-1, -1⟩ ∨ r.2.y = r.1 r.2.x) := by
  simp only [Vision_FindArcFP]
  rw [Tool_CmpMax_eq, Tool_CmpMin_eq]
  refine rd_returns.bind fun _ _ => rd_returns.bind fun _ _ => rd_returns.bind fun _ _ => ?_
  refine Ends.bind (m := fun _ => True) (Ends.ite (fun _ => trivial) (fun _ => trivial)) ?_
  intro c _
  apply (Vision_FindArcFP_loop_returns _ _ b _ c (by omega) (by omega)).bind
  rintro ⟨b', x, c'⟩ hb'
  refine Ends.ite (fun _ => ?_) (fun _ => ⟨hb', Or.inl rfl⟩)
  exact rd_returns.bind fun v hv => ⟨hb', Or.inr hv⟩

/-- The search over three rows or more: what it returns, on a border of pixels. -/
theorem Vision_FindArcFP_found {x1 x2 : ℤ} (h : SearchRows (max x1 x2) (min x1 x2))
    (hb : Pixels b) :
    ∃ b' p, Vision_FindArcFP R o b x1 x2 = .ok (b', p) ∧ Repaired (min x1 x2) (max x1 x2) b b' ∧
      (p = ⟨-1, -1⟩ ∨ min x1 x2 < p.x ∧ p.x < max x1 x2 ∧ 0 ≤ p.y ∧ p.y = b' p.x) := by
  obtain ⟨b', p, hp, hx⟩ := Vision_FindArcFP_ok (R := R) (o := o) (b := b) h
  obtain ⟨hrep, hy⟩ := (Vision_FindArcFP_returns R x1 x2).of_ok hp
  refine ⟨b', p, hp, hrep, ?_⟩
  rcases hx with hx | ⟨h1, h2⟩
  · exact Or.inl hx
  · have h0 := h.nonneg
    have h69 := h.le
    rcases hy with hy | hy
    · have hp1 : p = ⟨-1, -1⟩ := hy
      rw [hp1] at h1
      have h1' : min x1 x2 < -1 := h1
      omega
    · have hpix := hrep.pixels hb h0 h69 p.x (by omega) (by omega)
      exact Or.inr ⟨h1, h2, by rw [hy]; exact hpix.1, hy⟩

/-- A point lies in the rows of a segment, on a border.  The border is the one that is left in the
    end, so a later repair must not reach these rows. -/
structure OnSegment (seg : segment_t) (b : Broder) (p : point_t) : Prop where
  low : seg.end ≤ p.x
  high : p.x ≤ seg.begin
  column : p.y = b p.x

/-- Three rows of the image or more. -/
def LongSegment (seg : segment_t) : Prop := 0 ≤ seg.end ∧ seg.end + 2 ≤ seg.begin ∧ seg.begin ≤ 69

/-- A search in a long segment finds no point or one on the segment. -/
theorem FindArcFP_onSegment {seg : segment_t} (h : LongSegment seg) (hb : Pixels b) :
    ∃ b' p, Vision_FindArcFP R o b seg.begin seg.end = .ok (b', p) ∧
      Repaired seg.end seg.begin b b' ∧ (p = ⟨-1, -1⟩ ∨ 0 ≤ p.x ∧ OnSegment seg b' p) := by
  obtain ⟨h0, hlong, h69⟩ := h
  have hmax : max seg.begin seg.end = seg.begin := max_eq_left (by omega)
  have hmin : min seg.begin seg.end = seg.end := min_eq_right (by omega)
  obtain ⟨b', p, hp, hrep, hx⟩ := Vision_FindArcFP_found (R := R) (o := o)
    (show SearchRows (max seg.begin seg.end) (min seg.begin seg.end) by
      rw [hmax, hmin]
      exact ⟨h0, h69, hlong⟩) hb
  rw [hmax, hmin] at hrep hx
  refine ⟨b', p, hp, hrep, hx.imp_right ?_⟩
  rintro ⟨h1, h2, -, hy⟩
  exact ⟨by omega, by omega, by omega, hy⟩

/-- **The near corner** lies on its segment: the search stays within it, and where it finds nothing
    the nearest row of the segment is taken. -/
theorem FindFP_near_onSegment {seg : segment_t} (h : LongSegment seg) (hb : Pixels b) :
    ∃ b' p, FindFP_near R o b seg = .ok (b', p) ∧ Repaired seg.end seg.begin b b' ∧
      OnSegment seg b' p := by
  obtain ⟨h0, hlong, h69⟩ := h
  have hlow : (if seg.begin - seg.end ≥ 15 then seg.begin - 15 else seg.end) + 2 ≤ seg.begin ∧
      seg.end ≤ (if seg.begin - seg.end ≥ 15 then seg.begin - 15 else seg.end) := by
    split_ifs <;> omega
  simp only [FindFP_near]
  generalize (if seg.begin - seg.end ≥ 15 then seg.begin - 15 else seg.end) = low at hlow ⊢
  obtain ⟨hlow, hlow'⟩ := hlow
  have hmax : max seg.begin low = seg.begin := max_eq_left (by omega)
  have hmin : min seg.begin low = low := min_eq_right (by omega)
  obtain ⟨b', p, hp, hrep, hx⟩ := Vision_FindArcFP_found (R := R) (o := o)
    (show SearchRows (max seg.begin low) (min seg.begin low) by
      rw [hmax, hmin]
      exact ⟨by omega, h69, hlow⟩) hb
  rw [hmax, hmin] at hrep hx
  rw [hp, ok_bind]
  dsimp only
  rcases hx with rfl | ⟨h1, h2, hy0, hy⟩
  · -- nothing was found: the nearest row of the segment
    rw [if_pos rfl, if_pos rfl, rd_of_allows (o.allows_of_rows (by omega) h69), ok_bind]
    exact ⟨b', _, rfl, hrep.mono hlow' (le_refl _), by show seg.end ≤ seg.begin; omega, le_refl _, rfl⟩
  · rw [if_neg (by omega), if_neg (by omega)]
    exact ⟨b', _, rfl, hrep.mono hlow' (le_refl _), by show seg.end ≤ p.x; omega,
      by show p.x ≤ seg.begin; omega, hy⟩

/-! ## The points of a side -/

/-- What the record says about its points: how many there are, around what two of them lie, and on
    which segments. -/
structure PointsPlaced (S : FeatureSide) (b : Broder) : Prop where
  count : S.FP_n = 0 ∨ S.FP_n = 1 ∨ S.FP_n = 2
  /-- Two points lie around a long lost segment. -/
  two : S.FP_n = 2 → IsLose (S.my_segment 1) = true ∧
    (S.my_segment 1).begin - (S.my_segment 1).end ≥ 15 ∧ IsNull (S.my_segment 2) = false
  first : 1 ≤ S.FP_n →
    OnSegment (if IsLose (S.my_segment 0) then S.my_segment 1 else S.my_segment 0) b (S.feature_p 0)
  second : S.FP_n = 2 → OnSegment (S.my_segment 2) b (S.feature_p 1)

/-- A side without points. -/
theorem PointsPlaced.none {S : FeatureSide} (h : S.FP_n = 0) : PointsPlaced S b :=
  ⟨Or.inl h, fun h2 => by omega, fun h1 => by omega, fun h2 => by omega⟩

/-- A side with one point. -/
theorem PointsPlaced.one {S : FeatureSide} (h : S.FP_n = 1)
    (hp : OnSegment (if IsLose (S.my_segment 0) then S.my_segment 1 else S.my_segment 0) b
      (S.feature_p 0)) : PointsPlaced S b :=
  ⟨Or.inr (Or.inl h), fun h2 => by omega, fun _ => hp, fun h2 => by omega⟩

/-- The segments in their order: the third lies beyond the first, so what is repaired there does
    not touch the first point. -/
structure Ordered (S : FeatureSide) : Prop extends Segmented S where
  below : IsNull (S.my_segment 2) = false → (S.my_segment 2).begin < (S.my_segment 0).end
  whole : S.segment_n = 1 → (S.my_segment 0).end = 0

/-- A later repair leaves a point of a nearer segment on the border. -/
theorem OnSegment.repaired {seg : segment_t} {b' : Broder} {p : point_t} {lo hi : ℤ}
    (h : OnSegment seg b p) (hr : Repaired lo hi b b') (hhi : hi ≤ seg.end) : OnSegment seg b' p :=
  ⟨h.low, h.high, by rw [hr.outside (Or.inr (hhi.trans h.low)), h.column]⟩

variable {S : FeatureSide}

/-- **The far segment**: a second point there, or the first one withdrawn, where the two averages
    are too far apart; without a far segment the first point stays alone. -/
theorem FindFP_far_placed (junk : Uninit) (aver1 : ℤ) (h : Ordered S) (hb : Pixels b)
    (hlost : IsLose (S.my_segment 1) = true ∧ (S.my_segment 1).begin - (S.my_segment 1).end ≥ 15)
    (hnot : IsLose (S.my_segment 0) = false) (h1 : S.FP_n = 1)
    (hp : OnSegment (S.my_segment 0) b (S.feature_p 0)) :
    ∃ b' S', FindFP_far R o junk aver1 b S = .ok (b', S') ∧ S'.my_segment = S.my_segment ∧
      PointsPlaced S' b' := by
  have hseg : (if IsLose (S.my_segment 0) then S.my_segment 1 else S.my_segment 0) =
      S.my_segment 0 := if_neg (by rw [hnot]; exact Bool.false_ne_true)
  simp only [FindFP_far]
  cases h2 : IsNull (S.my_segment 2) with
  | true => exact ⟨_, _, rfl, rfl, .one h1 (by rw [hseg]; exact hp)⟩
  | false =>
    have hrows : LongSegment (S.my_segment 2) := h.rows 2 h2
    obtain ⟨aver2, hav⟩ : ∃ v, Line_GetAverage o junk b (S.my_segment 2).begin
        (S.my_segment 2).end = .ok v := by
      obtain ⟨h0, hlong, h69⟩ := hrows
      exact Line_GetAverage_ok junk (by omega) (by omega) (by omega) (by omega)
    rw [Bool.not_false, if_pos rfl, hav, ok_bind]
    -- Averages more than 80 columns apart withdraw the first point.
    by_cases hfar : |aver1 - aver2| > 80
    · rw [if_pos hfar]
      exact ⟨_, _, rfl, rfl, .none (by show S.FP_n - 1 = 0; omega)⟩
    · rw [if_neg hfar]
      obtain ⟨b', p, hp', hrep, hon⟩ := FindFP_near_onSegment (R := R) (o := o) hrows hb
      rw [hp', ok_bind]
      refine ⟨_, _, rfl, rfl, Or.inr (Or.inr (by show S.FP_n + 1 = 2; omega)), fun _ => ?_, fun _ => ?_,
        fun _ => hon⟩
      · exact ⟨hlost.1, hlost.2, h2⟩
      · show OnSegment (if IsLose (S.my_segment 0) then S.my_segment 1 else S.my_segment 0) b'
          (S.feature_p 0)
        rw [hseg]
        exact hp.repaired hrep (h.below h2).le

/-- **Feature points** of a segmented side, on a border of pixels.  The code has two cases, a long
    lost second segment or none, and each leaves a record that is placed. -/
theorem Vision_BroderFindFP_placed (junk : ℕ → Uninit) (h : Ordered S) (hb : Pixels b) :
    ∃ b' S', Vision_BroderFindFP R o junk b S = .ok (b', S') ∧
      S'.my_segment = S.my_segment ∧ PointsPlaced S' b' := by
  have hrows0 : LongSegment (S.my_segment 0) := h.rows 0 h.first.2
  unfold Vision_BroderFindFP
  dsimp only
  rw [show (clearFP S).my_segment = S.my_segment from rfl,
    show (clearFP S).segment_n = S.segment_n from rfl]
  cases hlone : (IsLose (S.my_segment 1) && Vision_IsLone (S.my_segment 1)) with
  | true =>
    rw [Bool.and_eq_true] at hlone
    have hlost : IsLose (S.my_segment 1) = true ∧
        (S.my_segment 1).begin - (S.my_segment 1).end ≥ 15 :=
      ⟨hlone.1, of_decide_eq_true hlone.2⟩
    have hnot : IsLose (S.my_segment 0) = false := by
      apply Bool.eq_false_iff.mpr
      intro h0
      rw [h.apart h0] at hlone
      exact Bool.false_ne_true hlone.1
    obtain ⟨aver1, hav⟩ : ∃ v, Line_GetAverage o (junk 0) b (S.my_segment 0).begin
        (S.my_segment 0).end = .ok v := by
      obtain ⟨h0, hlong, h69⟩ := hrows0
      exact Line_GetAverage_ok (junk 0) (by omega) (by omega) (by omega) (by omega)
    obtain ⟨b', pf, hpf, hrep, hon⟩ := FindArcFP_onSegment (R := R) (o := o) hrows0 hb
    have hb' : Pixels b' := hrep.pixels hb hrows0.1 hrows0.2.2
    -- either way the first point lies on segment 0
    have hfar : ∀ p, OnSegment (S.my_segment 0) b' p → ∃ b'' S',
        FindFP_far R o (junk 1) aver1 b' { setFP (clearFP S) 0 p with FP_n := (clearFP S).FP_n + 1 } =
          .ok (b'', S') ∧ S'.my_segment = S.my_segment ∧ PointsPlaced S' b'' := by
      intro p hp
      exact FindFP_far_placed (S := { setFP (clearFP S) 0 p with FP_n := (clearFP S).FP_n + 1 })
        (junk 1) aver1 ⟨⟨h.rows, h.first, h.single, h.apart⟩, h.below, h.whole⟩ hb' hlost hnot rfl hp
    rw [if_pos rfl, hav, ok_bind, hpf, ok_bind]
    dsimp only
    by_cases hnone : pf.x = -1 ∧ pf.y = -1
    · have hend : OnSegment (S.my_segment 0) b' ⟨(S.my_segment 0).end, b' (S.my_segment 0).end⟩ := by
        obtain ⟨h0, hlong, h69⟩ := hrows0
        exact ⟨le_refl _, by show (S.my_segment 0).end ≤ (S.my_segment 0).begin; omega, rfl⟩
      rw [if_pos hnone, rd_of_allows (o.allows_of_rows hrows0.1 (by have := hrows0.2; omega)), ok_bind]
      exact hfar _ hend
    · rw [if_neg hnone]
      rcases hon with rfl | ⟨-, hon⟩
      · exact absurd ⟨rfl, rfl⟩ hnone
      · exact hfar _ hon
  | false =>
    rw [if_neg Bool.false_ne_true]
    cases hlose : IsLose (S.my_segment 0) with
    | true =>
      rw [if_pos rfl]
      cases hnull : IsNull (S.my_segment 1) with
      | true => exact ⟨_, _, rfl, rfl, .none rfl⟩
      | false =>
        obtain ⟨b', p, hp, -, hon⟩ := FindFP_near_onSegment (R := R) (o := o)
          (show LongSegment (S.my_segment 1) from h.rows 1 hnull) hb
        rw [Bool.not_false, if_pos rfl, hp, ok_bind]
        refine ⟨_, _, rfl, rfl, .one rfl ?_⟩
        show OnSegment (if IsLose (S.my_segment 0) then S.my_segment 1 else S.my_segment 0) b' p
        rw [hlose, if_pos rfl]
        exact hon
    | false =>
      rw [if_neg Bool.false_ne_true]
      cases harc : (IsArc (S.my_segment 0) && decide (S.segment_n = 1)) with
      | true =>
        obtain ⟨b', p, hp, -, hx⟩ := Vision_FindArcFP_found (R := R) (o := o)
          (show SearchRows (max (S.my_segment 0).begin 25) (min (S.my_segment 0).begin 25) by
            rw [h.first.1]
            exact ⟨by omega, by omega, by omega⟩) hb
        rw [if_pos rfl, hp, ok_bind]
        dsimp only
        by_cases hfound : p.x ≠ -1 ∧ p.y ≠ -1
        · rw [if_pos hfound]
          refine ⟨_, _, rfl, rfl, .one rfl ?_⟩
          show OnSegment (if IsLose (S.my_segment 0) then S.my_segment 1 else S.my_segment 0) b' p
          rw [hlose, if_neg Bool.false_ne_true]
          rcases hx with rfl | ⟨h1, h2, -, hy⟩
          · exact absurd rfl hfound.1
          · rw [Bool.and_eq_true, decide_eq_true_iff] at harc
            have hwhole := h.whole harc.2
            rw [h.first.1] at h1 h2
            exact ⟨by omega, by rw [h.first.1]; omega, hy⟩
        · rw [if_neg hfound]
          exact ⟨_, _, rfl, rfl, .none rfl⟩
      | false => exact ⟨_, _, rfl, rfl, .none rfl⟩

end

/-! ## Segmentation keeps the pixels -/

theorem Pixels.update {b : Broder} (h : Pixels b) (i : ℤ) {v : ℤ} (hv : 0 ≤ v ∧ v ≤ 187) :
    Pixels (Function.update b i v) := by
  intro r h0 h69
  by_cases hr : r = i
  · rw [hr, Function.update_self]
    exact hv
  · rw [Function.update_of_ne hr]
    exact h r h0 h69

namespace Band

variable {B : Band}

theorem fill3_pixels {b : Broder} (h : Pixels b) (i : ℤ) {v : ℤ} (hv : 0 ≤ v ∧ v ≤ 187) :
    Pixels (fill3 b i v) :=
  ((h.update i hv).update (i - 1) hv).update (i - 2) hv

theorem begin_pixels (hlose : 0 ≤ B.lose ∧ B.lose ≤ 187) {s : Scan} (h : Pixels s.broder) (i : ℤ) :
    Pixels (B.begin i s).broder := by
  show Pixels (if B.opensLose s.broder i then fill3 s.broder i B.lose else s.broder)
  split_ifs
  · exact fill3_pixels h i hlose
  · exact h

/-- A pass that does not want row 70 writes pixels. -/
theorem finish_pixels (hlose : 0 ≤ B.lose ∧ B.lose ≤ 187) {s : Scan} (h : Pixels s.broder) {i : ℤ}
    (h1 : 1 ≤ i) (h69 : i ≤ 69) (hup : i ≤ 68 ∨ ¬ B.CopiesUp i s) : Pixels (B.finish i s).broder := by
  simp only [finish]
  by_cases hl : (s.target_segment s.segment_n).type = lose_segment
  · rw [if_pos hl]
    split_ifs
    · exact h
    · exact h.update i hlose
    · exact h
  · rw [if_neg hl]
    by_cases hn : (s.target_segment s.segment_n).type = NULL_segment
    · rw [if_pos hn]
      split_ifs with h2 hend
      · exact fill3_pixels h i hlose
      · apply h.update i
        simp only [keep]
        split_ifs with hedge
        · have hi : i ≤ 68 :=
            hup.resolve_right fun hno => hno ⟨hn, h2, Bool.eq_false_iff.mpr hend, hedge⟩
          exact h (i + 1) (by omega) (by omega)
        · exact h i (by omega) h69
      · exact h
    · rw [if_neg hn]
      exact h

theorem row_pixels (hlose : 0 ≤ B.lose ∧ B.lose ≤ 187) {s : Scan} (h : Pixels s.broder) {i : ℤ}
    (h1 : 1 ≤ i) (h69 : i ≤ 69)
    (hup : i ≤ 68 ∨ ¬ B.CopiesUp i (if s.begin_flag then B.begin i s else s)) :
    Pixels (B.row i s).broder := by
  refine finish_pixels hlose ?_ h1 h69 hup
  split_ifs
  · exact begin_pixels hlose h i
  · exact h

theorem rows_pixels (hlose : 0 ≤ B.lose ∧ B.lose ≤ 187) : ∀ (n : ℕ) (s : Scan), n ≤ 68 →
    Pixels s.broder → Pixels (B.rows n s).broder := by
  intro n
  induction n with
  | zero => exact fun s _ h => h
  | succ n ih =>
    intro s hn h
    exact ih _ (by omega) (row_pixels hlose h (by omega) (by omega) (Or.inl (by omega)))

/-- **The border after segmentation** shows pixels, if it did and no row outside was read: what is
    written is the lose value or a copy of another row. -/
theorem finalBroder_pixels (hlose : 0 ≤ B.lose ∧ B.lose ≤ 187) {b : Broder} (hb : Pixels b)
    (hin : ¬ B.ReadsOutside b) : Pixels (B.finalBroder b) := by
  have hscan : Pixels (B.scan b).broder := by
    refine rows_pixels hlose 68 _ (le_refl 68) (row_pixels hlose hb (by decide) (by decide) ?_)
    exact Or.inr fun hup => hin ((copiesUp_start_iff B b).mp hup)
  simp only [finalBroder, mergedBroder]
  split_ifs with hshort
  · intro r h0 h69
    dsimp only
    split_ifs
    · have hlen : 0 < (B.cuts b).length := by
        apply List.length_pos_iff.mpr
        intro hnil
        rw [hnil] at hshort
        exact absurd hshort Bool.false_ne_true
      have hlong : endOf (B.cuts b) 1 + 2 ≤ beginOf (B.cuts b) 1 := (B.cuts_spaced b).long hlen
      have hhigh := (B.cuts_spaced b).beginOf_le (k := 1) hlen
      exact hscan _ (Spaced.endOf_nonneg 1) (by omega)
    · exact hscan r h0 h69
  · exact hscan

end Band

/-! ## Result -/

/-- The reported segments are ordered. -/
theorem Judged.ordered {l : Bool} {cs : List ℕ} {S : FeatureSide} (hcs : SpacedBelow cs)
    (hj : Judged (tableOf l cs) S.my_segment 0 (cs.length + 1))
    (hn : S.segment_n = (cs.length : ℤ) + 1) : Ordered S := by
  have hp := hj.partitions hcs
  refine ⟨hj.segmented hcs hn, fun h2 => ?_, fun h1 => ?_⟩
  · have hlen : 2 < cs.length + 1 := by
      by_contra hge
      rw [hp.cleared 2 (by omega)] at h2
      exact Bool.noConfusion h2
    have hnext0 : (S.my_segment 1).begin = (S.my_segment 0).end - 1 := hp.next 0 (by omega)
    have hnext1 : (S.my_segment 2).begin = (S.my_segment 1).end - 1 := hp.next 1 hlen
    have hlong := hp.long 1 (by omega)
    omega
  · have hlast := hp.last
    rwa [show cs.length + 1 - 1 = 0 by omega] at hlast

/-- **Feature points**: on a border of pixels with at most nine segments, read inside the image, at
    most two points are recorded, two only around a long lost segment, each in the rows of its
    segment and on the border at return. -/
theorem Vision_BroderFindFP_points (R : Type) [CFloat R] (o : Outside) (junk junk' : ℕ → Uninit)
    {LorR : Bool} {b : Broder} (h : InBounds LorR b) (hb : Pixels b) (S : FeatureSide) :
    ∃ b₁ S₁ b₂ S₂, Vision_GetSegment R o junk LorR b S = .ok (b₁, S₁) ∧
      Vision_BroderFindFP R o junk' b₁ S₁ = .ok (b₂, S₂) ∧ S₂.my_segment = S₁.my_segment ∧
      PointsPlaced S₂ b₂ := by
  obtain ⟨hin, h8⟩ := inBounds_iff.mp h
  obtain ⟨t, ht, hj⟩ := Vision_GetSegment_eq R (o := o) (Or.inr hin)
    (atMostNine_iff.mpr h8).not_overflows junk S
  have hlose : 0 ≤ (band LorR).lose ∧ (band LorR).lose ≤ 187 := by
    cases LorR <;> decide
  have hord : Ordered { S with my_segment := t, segment_n := ((band LorR).finalCuts b).length + 1 } :=
    Judged.ordered ((band LorR).finalCuts_spaced b) hj rfl
  obtain ⟨b₂, S₂, hfp, hseg, hpoints⟩ := Vision_BroderFindFP_placed (R := R) (o := o) junk' hord
    (Band.finalBroder_pixels hlose hb hin)
  exact ⟨_, _, b₂, S₂, ht, hfp, hseg, hpoints⟩

theorem Vision_BroderFindFP_points_cutOff : InBounds true cutOffBroder ∧ Pixels cutOffBroder ∧
    ∃ b₁ S₁ b₂ S₂, Vision_GetSegment ℚ .reads (fun _ => .zero) true cutOffBroder .cleared
        = .ok (b₁, S₁) ∧
      Vision_BroderFindFP ℚ .reads (fun _ => .zero) b₁ S₁ = .ok (b₂, S₂) ∧
      S₂.my_segment = S₁.my_segment ∧ PointsPlaced S₂ b₂ := by
  have hin : InBounds true cutOffBroder := by decide +kernel
  have hpix : Pixels cutOffBroder := by
    intro r h0 h69
    simp only [cutOffBroder]
    split_ifs <;> omega
  exact ⟨hin, hpix, Vision_BroderFindFP_points ℚ .reads (fun _ => .zero) (fun _ => .zero) hin hpix
    .cleared⟩

end Car2025
