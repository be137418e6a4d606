/-
  The geometry of a frame stays inside the image.

  No helper of the vision code checks its rows or its divisors.  What makes them safe is where
  segments and feature points can lie.

  1. **Segments (`Segmented`)** — a reported segment lies in the rows 0 to 69 and is at least three
     rows long; two neighbours are not both lost next to the car.

  2. **Feature points (`CrossReady`)** — a side that is lost next to the car and goes on has its
     point off row 0, a side that is one arc has its point off row 69: these are the rows from which
     `Vision_CrossHandle` extends a border.

  3. **Result (`SymbolJudge_safe`)** — segmentation, feature points and the crossing handler return,
     with rows outside the array and divisions by zero trapping.
-/
import Mathlib
import Car2025.Vision.RSHandle
import Car2025.Vision.Segment.Partition

namespace Car2025

open segment_type RoadSymbol_type Car2025.Cross

/-! ## Segments -/

/-- What the geometry relies on in the record of a side.  A record of the segmentation has it, and
    it keeps every row that is read later inside the image. -/
structure Segmented (S : FeatureSide) : Prop where
  rows : ∀ k : ℕ, IsNull (S.my_segment k) = false → 0 ≤ (S.my_segment k).end ∧
    (S.my_segment k).end + 2 ≤ (S.my_segment k).begin ∧ (S.my_segment k).begin ≤ 69
  first : (S.my_segment 0).begin = 69 ∧ IsNull (S.my_segment 0) = false
  single : S.segment_n = 1 → IsNull (S.my_segment 1) = true
  apart : IsLose (S.my_segment 0) = true → IsLose (S.my_segment 1) = false

theorem isNull_iff {seg : segment_t} : IsNull seg = false ↔ seg.type ≠ NULL_segment :=
  decide_eq_false_iff_not

theorem not_isNull_of_isLose {seg : segment_t} (h : IsLose seg = true) : IsNull seg = false := by
  rw [isNull_iff, of_decide_eq_true h]
  exact segment_type.noConfusion

/-- The classified table of spaced cuts is as the geometry needs it. -/
theorem Judged.segmented {l : Bool} {cs : List ℕ} {S : FeatureSide} (hcs : SpacedBelow cs)
    (hj : Judged (tableOf l cs) S.my_segment 0 (cs.length + 1))
    (hn : S.segment_n = (cs.length : ℤ) + 1) : Segmented S := by
  have hp := hj.partitions hcs
  have hnull : ∀ k, cs.length + 1 ≤ k → IsNull (S.my_segment k) = true := by
    intro k hk
    rw [hp.cleared k hk]
    rfl
  refine ⟨fun k hk => ?_, ⟨hp.first, isNull_iff.mpr (hp.typed 0 hp.pos)⟩,
    fun h1 => hnull 1 (by omega), fun hlose => ?_⟩
  · have hle : k ≤ cs.length := by
      by_contra hlt
      rw [hnull k (by omega)] at hk
      exact Bool.noConfusion hk
    rw [hj.begin, hj.end, tableOf_of_le hle]
    exact ⟨Spaced.endOf_nonneg k, hcs.long hle, hcs.beginOf_le hle⟩
  · -- a lost segment 0 has the label of a lost segment, and segment 1 has the other one
    have h0 := (hj.isLose_iff (Nat.zero_le _)).mp hlose
    rcases Nat.lt_or_ge cs.length 1 with hlt | hge
    · cases h1 : IsLose (S.my_segment 1) with
      | false => rfl
      | true =>
        have hno := not_isNull_of_isLose h1
        rw [hnull 1 (by omega)] at hno
        exact Bool.noConfusion hno
    · refine Bool.eq_false_iff.mpr (fun h1 => ?_)
      have h1' := ((hj.isLose_iff hge).mp h1).1
      rw [Hysteresis.labelOf, h0.1] at h1'
      exact Bool.noConfusion h1'

/-- Where rows outside the array trap, `Vision_GetSegment` returns such a record. -/
theorem Vision_GetSegment_safe (R : Type) [CFloat R] (junk : ℕ → Uninit) {LorR : Bool}
    {b : Broder} (h : InBounds LorR b) (S : FeatureSide) :
    ∃ b' S', Vision_GetSegment R .traps junk LorR b S = .ok (b', S') ∧ Segmented S' := by
  obtain ⟨hin, h8⟩ := inBounds_iff.mp h
  obtain ⟨t, ht, hj⟩ := Vision_GetSegment_eq R (Or.inr hin)
    (atMostNine_iff.mpr h8).not_overflows junk S
  exact ⟨_, _, ht, hj.segmented ((band LorR).finalCuts_spaced b) rfl⟩

/-! ## Feature points -/

/-- Where the point lies that the crossing handler extends from: with a row on its other side, from
    which the slope is taken. -/
structure CrossReady (S : FeatureSide) : Prop where
  lost : IsLose (S.my_segment 0) = true → IsNull (S.my_segment 1) = false →
    1 ≤ (S.feature_p 0).x ∧ (S.feature_p 0).x ≤ 69
  arc : IsArc (S.my_segment 0) = true → S.segment_n = 1 →
    0 ≤ (S.feature_p 0).x ∧ (S.feature_p 0).x ≤ 68

section

variable {R : Type} [CFloat R] {o : Outside} {b : Broder} {S : FeatureSide}

/-- The search in a whole segment. -/
theorem FindArcFP_segment_ok {seg : segment_t} (h : 0 ≤ seg.end ∧ seg.end + 2 ≤ seg.begin ∧
    seg.begin ≤ 69) : ∃ b' p, Vision_FindArcFP R o b seg.begin seg.end = .ok (b', p) := by
  obtain ⟨b', p, hp, -⟩ := Vision_FindArcFP_ok (R := R) (o := o) (b := b)
    (show SearchRows (max seg.begin seg.end) (min seg.begin seg.end) from
      ⟨by omega, by omega, by omega⟩)
  exact ⟨b', p, hp⟩

/-- **The near corner** of a segment lies off row 0: the search returns a row strictly between its
    ends, and without one the nearest row is taken. -/
theorem FindFP_near_ok {seg : segment_t} (h : 0 ≤ seg.end ∧ seg.end + 2 ≤ seg.begin ∧
    seg.begin ≤ 69) :
    ∃ b' p, FindFP_near R o b seg = .ok (b', p) ∧ 1 ≤ p.x ∧ p.x ≤ 69 := by
  have hlow : (if seg.begin - seg.end ≥ 15 then seg.begin - 15 else seg.end) + 2 ≤ seg.begin ∧
      0 ≤ (if seg.begin - seg.end ≥ 15 then seg.begin - 15 else seg.end) := by
    split_ifs <;> omega
  unfold FindFP_near
  generalize (if seg.begin - seg.end ≥ 15 then seg.begin - 15 else seg.end) = low at hlow ⊢
  obtain ⟨b', p, hp, hx⟩ := Vision_FindArcFP_ok (R := R) (o := o) (b := b)
    (show SearchRows (max seg.begin low) (min seg.begin low) from
      ⟨by omega, by omega, by omega⟩)
  have hx' : 1 ≤ (if p.x = -1 then seg.begin else p.x) ∧
      (if p.x = -1 then seg.begin else p.x) ≤ 69 := by
    rcases hx with rfl | hx
    · rw [if_pos rfl]
      omega
    · split_ifs <;> omega
  rw [hp, ok_bind]
  dsimp only
  generalize (if p.x = -1 then seg.begin else p.x) = x at hx' ⊢
  split_ifs
  · rw [rd_of_allows (o.allows_of_rows (by omega) (by omega)), ok_bind]
    exact ⟨_, _, rfl, hx'⟩
  · exact ⟨_, _, rfl, hx'⟩

/-- The far segment adds or withdraws a point; the segments stay. -/
theorem FindFP_far_ok (junk : Uninit) (aver1 : ℤ) (h : Segmented S) (S₁ : FeatureSide)
    (hseg : S₁.my_segment = S.my_segment) (hn : S₁.segment_n = S.segment_n) :
    ∃ b' S', FindFP_far R o junk aver1 b S₁ = .ok (b', S') ∧
      S'.my_segment = S.my_segment ∧ S'.segment_n = S.segment_n := by
  unfold FindFP_far
  rw [hseg]
  cases h2 : IsNull (S.my_segment 2) with
  | true => exact ⟨_, _, rfl, hseg, hn⟩
  | false =>
    have hrows := h.rows 2 h2
    obtain ⟨aver2, hav⟩ : ∃ v, Line_GetAverage o junk b (S.my_segment 2).begin
        (S.my_segment 2).end = .ok v :=
      Line_GetAverage_ok junk (by omega) (by omega) (by omega) (by omega)
    rw [Bool.not_false, if_pos rfl, hav, ok_bind]
    split_ifs
    · exact ⟨_, _, rfl, hseg, hn⟩
    · obtain ⟨b', p, hp, -⟩ := FindFP_near_ok (R := R) (o := o) (b := b) hrows
      rw [hp, ok_bind]
      exact ⟨_, _, rfl, hseg, hn⟩

/-- **Feature points**: on a segmented side the search returns, leaves the segments alone, and puts
    the points where the crossing handler needs them. -/
theorem Vision_BroderFindFP_ok (junk : ℕ → Uninit) (h : Segmented S) :
    ∃ b' S', Vision_BroderFindFP R o junk b S = .ok (b', S') ∧
      S'.my_segment = S.my_segment ∧ S'.segment_n = S.segment_n ∧ CrossReady S' := by
  have hrows0 := h.rows 0 h.first.2
  unfold Vision_BroderFindFP
  dsimp only
  rw [show (clearFP S).my_segment = S.my_segment from rfl,
    show (clearFP S).segment_n = S.segment_n from rfl]
  cases hlone : (IsLose (S.my_segment 1) && Vision_IsLone (S.my_segment 1)) with
  | true =>
    -- a lost second segment: the first one is not lost, and not the only one
    rw [Bool.and_eq_true] at hlone
    have hready : ∀ S' : FeatureSide, S'.my_segment = S.my_segment →
        S'.segment_n = S.segment_n → CrossReady S' := by
      intro S' hseg hn
      refine ⟨fun h0 => ?_, fun _ h1 => ?_⟩
      · rw [hseg] at h0
        exact absurd (h.apart h0) (by rw [hlone.1]; exact Bool.noConfusion)
      · have hnull := h.single (hn ▸ h1)
        rw [not_isNull_of_isLose hlone.1] at hnull
        exact Bool.noConfusion hnull
    obtain ⟨aver1, hav⟩ : ∃ v, Line_GetAverage o (junk 0) b (S.my_segment 0).begin
        (S.my_segment 0).end = .ok v :=
      Line_GetAverage_ok (junk 0) (by omega) (by omega) (by omega) (by omega)
    obtain ⟨b', pf, hpf⟩ := FindArcFP_segment_ok (R := R) (o := o) (b := b) hrows0
    rw [if_pos rfl, hav, ok_bind, hpf, ok_bind]
    dsimp only
    split_ifs
    · rw [rd_of_allows (o.allows_of_rows (by omega) (by omega)), ok_bind]
      obtain ⟨b'', S', hS', hseg, hn⟩ := FindFP_far_ok (R := R) (o := o) (b := b') (junk 1) aver1 h
        { setFP (clearFP S) 0 ⟨(S.my_segment 0).end, b' (S.my_segment 0).end⟩ with
          FP_n := (clearFP S).FP_n + 1 } rfl rfl
      exact ⟨_, _, hS', hseg, hn, hready S' hseg hn⟩
    · obtain ⟨b'', S', hS', hseg, hn⟩ := FindFP_far_ok (R := R) (o := o) (b := b') (junk 1) aver1 h
        { setFP (clearFP S) 0 pf with FP_n := (clearFP S).FP_n + 1 } rfl rfl
      exact ⟨_, _, hS', hseg, hn, hready S' hseg hn⟩
  | false =>
    rw [if_neg Bool.false_ne_true]
    cases hlose : IsLose (S.my_segment 0) with
    | true =>
      have harc : IsArc (S.my_segment 0) = true → False := by
        unfold IsLose at hlose
        unfold IsArc
        rw [of_decide_eq_true hlose]
        decide
      rw [if_pos rfl]
      cases hnull : IsNull (S.my_segment 1) with
      | true =>
        refine ⟨_, _, rfl, rfl, rfl, fun _ h1 => ?_, fun h0 => absurd h0 harc⟩
        exact absurd (hnull.symm.trans h1) (by decide)
      | false =>
        obtain ⟨b', p, hp, hx⟩ := FindFP_near_ok (R := R) (o := o) (b := b) (h.rows 1 hnull)
        rw [Bool.not_false, if_pos rfl, hp, ok_bind]
        refine ⟨_, _, rfl, rfl, rfl, fun _ _ => ?_, fun h0 => absurd h0 harc⟩
        exact hx
    | false =>
      rw [if_neg Bool.false_ne_true]
      have hno : IsLose (S.my_segment 0) = true → False := by
        rw [hlose]
        exact Bool.noConfusion
      have hcleared : 0 ≤ ((clearFP S).feature_p 0).x ∧ ((clearFP S).feature_p 0).x ≤ 68 := by
        show (0 : ℤ) ≤ 0 ∧ (0 : ℤ) ≤ 68
        decide
      cases harc : (IsArc (S.my_segment 0) && decide (S.segment_n = 1)) with
      | true =>
        obtain ⟨b', p, hp, hx⟩ := Vision_FindArcFP_ok (R := R) (o := o) (b := b)
          (show SearchRows (max (S.my_segment 0).begin 25) (min (S.my_segment 0).begin 25) by
            rw [h.first.1]
            exact ⟨by decide, by decide, by decide⟩)
        rw [if_pos rfl, hp, ok_bind]
        dsimp only
        split_ifs with hfound
        · refine ⟨_, _, rfl, rfl, rfl, fun h0 => absurd h0 hno, fun _ _ => ?_⟩
          rw [h.first.1] at hx
          rcases hx with rfl | hx
          · exact absurd rfl hfound.1
          · show 0 ≤ p.x ∧ p.x ≤ 68
            omega
        · exact ⟨_, _, rfl, rfl, rfl, fun h0 => absurd h0 hno, fun _ _ => hcleared⟩
      | false =>
        rw [if_neg Bool.false_ne_true]
        exact ⟨_, _, rfl, rfl, rfl, fun h0 => absurd h0 hno, fun _ _ => hcleared⟩

end

/-! ## The crossing handler -/

section

variable {R : Type} [CFloat R] {o : Outside} {s : Vision R}

/-- The extensions start where the feature points allow it. -/
theorem CrossHandle_extend_ok (hL : CrossReady s.F.L) (hR : CrossReady s.F.R) :
    ∃ s', CrossHandle_extend o s = .ok s' := by
  unfold CrossHandle_extend
  cases hcon : CrossCon4 s.F with
  | false => exact ⟨_, rfl⟩
  | true =>
    obtain ⟨harc, -⟩ := (CrossCon4_iff s.F).mp hcon
    have hno : ∀ seg : segment_t, IsLose seg = true → IsArc seg = true → False := by
      intro seg h0 h1
      unfold IsLose at h0
      unfold IsArc at h1
      rw [of_decide_eq_true h0] at h1
      exact Bool.noConfusion h1
    rw [if_pos rfl]
    cases hl : (IsArc (s.F.L.my_segment 0) && decide (s.F.L.segment_n = 1)) with
    | true =>
      -- the arc is on the left, so it is the right side that is lost
      rw [Bool.and_eq_true, decide_eq_true_iff] at hl
      have hopp : ArcOpposite s.F.L s.F.R :=
        harc.resolve_right (fun h => hno _ h.1 hl.1)
      have hx := hL.arc hl.1 hl.2
      have hx' := hR.lost hopp.1 hopp.2.1
      obtain ⟨b, hb⟩ := Vision_ExtendLine_far_side_ok (R := R) (o := o)
        (b := s.Image_S.leftBroder) hx.1 hx.2
      obtain ⟨b', hb'⟩ := Vision_ExtendLine_near_side_ok (R := R) (o := o)
        (b := s.Image_S.rightBroder) hx'.1 hx'.2
      rw [if_pos rfl, hb, ok_bind, hb', ok_bind]
      exact ⟨_, rfl⟩
    | false =>
      rw [if_neg Bool.false_ne_true]
      cases hr : (IsArc (s.F.R.my_segment 0) && decide (s.F.R.segment_n = 1)) with
      | true =>
        rw [Bool.and_eq_true, decide_eq_true_iff] at hr
        have hopp : ArcOpposite s.F.R s.F.L :=
          harc.resolve_left (fun h => hno _ h.1 hr.1)
        have hx := hR.arc hr.1 hr.2
        have hx' := hL.lost hopp.1 hopp.2.1
        obtain ⟨b, hb⟩ := Vision_ExtendLine_near_side_ok (R := R) (o := o)
          (b := s.Image_S.leftBroder) hx'.1 hx'.2
        obtain ⟨b', hb'⟩ := Vision_ExtendLine_far_side_ok (R := R) (o := o)
          (b := s.Image_S.rightBroder) hx.1 hx.2
        rw [if_pos rfl, hb, ok_bind, hb', ok_bind]
        exact ⟨_, rfl⟩
      | false => exact ⟨_, rfl⟩

/-- Leaving a crossing reads the rows 0 and 30. -/
theorem CrossHandle_side_ok : ∃ s', CrossHandle_side o s = .ok s' ∧ s'.F = s.F := by
  unfold CrossHandle_side
  cases s.Start_Flag with
  | false => exact ⟨_, rfl, rfl⟩
  | true =>
    have h0 : o.Allows 0 := o.allows_of_rows (by decide) (by decide)
    have h30 : o.Allows 30 := o.allows_of_rows (by decide) (by decide)
    rw [if_pos rfl, rd_of_allows h0, ok_bind, rd_of_allows h0, ok_bind, rd_of_allows h30, ok_bind,
      rd_of_allows h30, ok_bind]
    unfold Line_CalK
    rw [fdiv_of_ne (show (0 : ℤ) - 30 ≠ 0 by decide), ok_bind]
    exact ⟨_, rfl, rfl⟩

/-- **The crossing handler** returns, in either state, where the feature points are ready; nothing
    else in it reads a row that depends on the frame. -/
theorem Vision_CrossHandle_ok (hL : CrossReady s.F.L) (hR : CrossReady s.F.R) :
    ∃ s', Vision_CrossHandle o s = .ok s' := by
  unfold Vision_CrossHandle
  cases s.Cross_state with
  | Cross_Begin =>
    dsimp only
    split_ifs
    · exact ⟨_, rfl⟩
    · exact CrossHandle_extend_ok hL hR
    · exact CrossHandle_extend_ok hL hR
  | Cross_State_1 =>
    dsimp only
    split_ifs
    · obtain ⟨s', hs', hF⟩ := CrossHandle_side_ok (o := o) (s := s)
      rw [hs', ok_bind]
      exact CrossHandle_extend_ok (by rw [hF]; exact hL) (by rw [hF]; exact hR)
    · exact CrossHandle_extend_ok hL hR

end

/-! ## Result -/

/-- Segmentation and feature points of both sides. -/
theorem SymbolJudge_features_ok (R : Type) [CFloat R] (junk : ℕ → ℕ → Uninit) {I : Image}
    (hL : InBounds true I.leftBroder) (hR : InBounds false I.rightBroder) (F : Feature) :
    ∃ I' F', SymbolJudge_features R .traps junk I F = .ok (I', F') ∧
      CrossReady F'.L ∧ CrossReady F'.R := by
  obtain ⟨l, L, hl, hsl⟩ := Vision_GetSegment_safe R (junk 0) hL F.L
  obtain ⟨r, Rr, hr, hsr⟩ := Vision_GetSegment_safe R (junk 1) hR F.R
  obtain ⟨l', L', hl', -, -, hcl⟩ := Vision_BroderFindFP_ok (R := R) (o := .traps) (b := l)
    (junk 2) hsl
  obtain ⟨r', R', hr', -, -, hcr⟩ := Vision_BroderFindFP_ok (R := R) (o := .traps) (b := r)
    (junk 3) hsr
  unfold SymbolJudge_features
  rw [hl, ok_bind]
  dsimp only
  rw [hr, ok_bind]
  dsimp only
  rw [hl', ok_bind]
  dsimp only
  rw [hr', ok_bind]
  exact ⟨_, _, rfl, hcl, hcr⟩

/-- **Safety**: on a pair of borders of at most nine segments a side, read inside the image, the
    geometry of the frame and the crossing handler use rows of the image and nonzero divisors
    only. -/
theorem SymbolJudge_safe (R : Type) [CFloat R] (junk : ℕ → ℕ → Uninit) {I : Image}
    (hL : InBounds true I.leftBroder) (hR : InBounds false I.rightBroder) (F : Feature) :
    ∃ I' F', SymbolJudge_features R .traps junk I F = .ok (I', F') ∧
      ∀ s : Vision R, ∃ s', Vision_CrossHandle .traps { s with Image_S := I', F := F' } = .ok s' := by
  obtain ⟨I', F', hF, hl, hr⟩ := SymbolJudge_features_ok R junk hL hR F
  exact ⟨I', F', hF, fun s => Vision_CrossHandle_ok hl hr⟩

/-- A road between two straight lines, with the far rows of the left one lost. -/
def straightRoad : Image := ⟨cutOffBroder, fun i => 160 - i⟩

theorem SymbolJudge_safe_straightRoad :
    InBounds true straightRoad.leftBroder ∧ InBounds false straightRoad.rightBroder ∧
    ∃ I' F', SymbolJudge_features ℚ .traps (fun _ _ => .zero) straightRoad
        ⟨.cleared, .cleared⟩ = .ok (I', F') ∧
      ∀ s : Vision ℚ, ∃ s', Vision_CrossHandle .traps { s with Image_S := I', F := F' } = .ok s' :=
  have hL : InBounds true straightRoad.leftBroder := by decide +kernel
  have hR : InBounds false straightRoad.rightBroder := by decide +kernel
  ⟨hL, hR, SymbolJudge_safe ℚ (fun _ _ => .zero) hL hR ⟨.cleared, .cleared⟩⟩

end Car2025
