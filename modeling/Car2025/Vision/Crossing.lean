/-
  Crossings: when one is left, and from which points its borders are drawn.

  1. **The exit (`Vision_frames_exit`)** — the guard of `Cross_State_1` asks the right side whether it
     is lost, and the left side, through `IsLose(!type)`, whether it has no segment at all.  So a
     crossing is left as soon as the right side is back.

  2. **The points (`SymbolJudge_features_recorded`)** — a border is extended from `feature_p[0]` of
     either side.  On a lost side the point is always recorded; on the side of the arc it is recorded
     only if the corner search found one, and `CrossCon4` asks for it on the left side only.
-/
import Mathlib
import Car2025.Lib.Runs
import Car2025.Vision.Road
import Car2025.Vision.FeatureRows

namespace Car2025

open segment_type RoadSymbol_type Car2025.Cross Outcome Runs

section

variable {R : Type} [CFloat R]

/-! ## The exit of a crossing -/

/-- The second half of a crossing is under way. -/
def InCrossing (s : Vision R) : Prop := s.Current_Road = CrossRoads ∧ s.Cross_state = Cross_State_1

/-- Both near segments of a record have a type. -/
def NearClassified (F : Feature) : Prop :=
  IsNull (F.L.my_segment 0) = false ∧ IsNull (F.R.my_segment 0) = false

/-- The frame returns; the crossing is left if both near segments are seen, and goes on otherwise. -/
def ExitsWhenSeen (s : Vision R) (f : Frame R) : Prop :=
  ∃ s', Vision_frame .reads s f = .ok s' ∧ (s'.Current_Road = NormalRoads ∨ InCrossing s') ∧
    (s'.Current_Road = NormalRoads ↔ f.lost .L = false ∧ f.lost .R = false)

/-- **A frame of a crossing**: it returns, and the crossing is left when the right side is back. -/
theorem Vision_frame_crossing {s : Vision R} {f : Frame R} (hs : InCrossing s)
    (hshow : ∃ p : Progress R, Shows p s.control) (hf : NearClassified f.F) :
    ∃ s', Vision_frame .reads s f = .ok s' ∧ (s'.Current_Road = NormalRoads ∨ InCrossing s') ∧
      (s'.Current_Road = NormalRoads ↔ f.lost .R = false) := by
  obtain ⟨p, hp⟩ := hshow
  have hroad : s.Current_Road = p.road := hp.road
  have hcross : s.Cross_state = p.Cross_state := hp.cross
  -- a crossing under way is the only progress that such a state can show
  have hp1 : p = .cross Cross_State_1 := by
    cases p with
    | normal => exact RoadSymbol_type.noConfusion (hs.1.symm.trans hroad)
    | circule side stage => exact RoadSymbol_type.noConfusion (hs.1.symm.trans hroad)
    | cross c => rw [show c = Cross_State_1 from hcross.symm.trans hs.2]
  subst hp1
  have hv := verdict_control_of_ne f (show s.Current_Road ≠ NormalRoads by
    rw [hs.1]
    exact RoadSymbol_type.noConfusion)
  rw [← hv] at hp
  have hvr : (SymbolJudge_verdict f.inp (s.seen f)).Current_Road = CrossRoads := hp.road
  have hhandle := Vision_CrossHandle_shows (o := .reads) hp
  rw [Vision_frame, Vision_RSHandle, hvr]
  dsimp only
  cases hr : Vision_CrossHandle .reads (SymbolJudge_verdict f.inp (s.seen f)) with
  | error e => exact absurd (hhandle.of_error hr) (Outside.not_reads_stops e)
  | ok s' =>
    have hs' : Shows (.onCross f.F Cross_State_1 : Progress R) s'.control := hhandle.of_ok hr
    -- the test of the source looks at the right side only
    have hguard : (!IsNull (f.F.L.my_segment 0) && !IsLose (f.F.R.my_segment 0)) = !f.lost .R := by
      rw [hf.1, Bool.not_false, Bool.true_and]
      rfl
    simp only [Progress.onCross, Cross.step] at hs'
    rw [hguard] at hs'
    refine ⟨s', rfl, ?_⟩
    cases hlost : f.lost .R with
    | false =>
      rw [hlost] at hs'
      have hout : s'.Current_Road = NormalRoads := hs'.road
      exact ⟨Or.inl hout, fun _ => rfl, fun _ => hout⟩
    | true =>
      rw [hlost] at hs'
      have hin : InCrossing s' := ⟨hs'.road, hs'.cross⟩
      refine ⟨Or.inr hin, fun h => ?_, fun h => Bool.noConfusion h⟩
      exact RoadSymbol_type.noConfusion (h.symm.trans hin.1)

/-- A crossing is left as stated except on a frame that has the right side back and not the left. -/
theorem exitsWhenSeen_iff {s : Vision R} {f : Frame R} (hs : InCrossing s)
    (hshow : ∃ p : Progress R, Shows p s.control) (hf : NearClassified f.F) :
    ExitsWhenSeen s f ↔ ¬ (f.lost .L = true ∧ f.lost .R = false) := by
  obtain ⟨s', hr, hgo, hexit⟩ := Vision_frame_crossing hs hshow hf
  constructor
  · rintro ⟨s'', hr', -, hexit'⟩ ⟨hl, hright⟩
    rw [hr] at hr'
    cases hr'
    rw [(hexit'.mp (hexit.mpr hright)).1] at hl
    exact Bool.noConfusion hl
  · intro hno
    refine ⟨s', hr, hgo, hexit.trans ⟨fun hright => ⟨?_, hright⟩, And.right⟩⟩
    exact Bool.eq_false_iff.mpr fun hl => hno ⟨hl, hright⟩

/-- **The exit**: over any run on classified records, all frames of crossings exit as stated exactly
    when none of them has the right near segment back while the left one is still lost. -/
theorem Vision_frames_exit (I : Image) (fs : List (Frame R)) (h : ∀ f ∈ fs, NearClassified f.F) :
    EachStep (fun pre f => ∀ s, Vision_frames .reads I pre = .ok s → InCrossing s →
      ExitsWhenSeen s f) fs ↔
    EachStep (fun pre f => ∀ s, Vision_frames .reads I pre = .ok s → InCrossing s →
      ¬ (f.lost .L = true ∧ f.lost .R = false)) fs := by
  apply eachStep_congr
  intro pre f hpre
  have hf : NearClassified f.F :=
    h f (hpre.subset (List.mem_append_right pre (List.mem_singleton_self f)))
  refine forall_congr' fun s => forall_congr' fun hs => forall_congr' fun hin => ?_
  exact exitsWhenSeen_iff hin ((Vision_frames_shows .reads I pre).of_ok hs) hf

end

/-- One side of a record: the segments from the nearest on, each with its end and type. -/
def sideOf (segs : List (ℤ × segment_type)) (FP_n : ℤ) : FeatureSide where
  my_segment k := match segs[k]? with
    | none => segment_t.cleared
    | some seg => ⟨if k = 0 then 69 else (segs.getD (k - 1) seg).1 - 1, seg.1, seg.2, NEAR⟩
  feature_p _ := ⟨0, 0⟩
  FP_n := FP_n
  segment_n := segs.length

/-- A frame of the crossing, before the start. -/
def crossingFrame (L R : FeatureSide) : Frame ℚ :=
  ⟨⟨L, R⟩, ⟨fun _ => 40, fun _ => 150⟩, false, Car.start, ⟨false, 0, 0, 0⟩⟩

/-- Two corners on either side, then nothing next to the car. -/
def intoCrossing : List (Frame ℚ) :=
  let corners := sideOf [(40, straight_segment), (20, lose_segment), (0, straight_segment)] 2
  let open_side := sideOf [(30, lose_segment), (0, straight_segment)] 1
  [crossingFrame corners corners, crossingFrame open_side open_side]

/-- The right side is back, the left one is not. -/
def rightBack : Frame ℚ :=
  crossingFrame (sideOf [(30, lose_segment), (0, straight_segment)] 1)
    (sideOf [(0, straight_segment)] 0)

theorem intoCrossing_classified : ∀ f ∈ intoCrossing ++ [rightBack], NearClassified f.F := by
  intro f hf
  rcases List.mem_append.mp hf with hf | hf
  · rcases List.mem_cons.mp hf with rfl | hf
    · exact ⟨rfl, rfl⟩
    · rw [List.mem_singleton.mp hf]
      exact ⟨rfl, rfl⟩
  · rw [List.mem_singleton.mp hf]
    exact ⟨rfl, rfl⟩

theorem Vision_frames_exit_run : (∀ f ∈ intoCrossing ++ [rightBack], NearClassified f.F) ∧
    (EachStep (fun pre f => ∀ s, Vision_frames .reads rightBack.Image_S pre = .ok s →
      InCrossing s → ExitsWhenSeen s f) (intoCrossing ++ [rightBack]) ↔
    EachStep (fun pre f => ∀ s, Vision_frames .reads rightBack.Image_S pre = .ok s →
      InCrossing s → ¬ (f.lost .L = true ∧ f.lost .R = false)) (intoCrossing ++ [rightBack])) :=
  ⟨intoCrossing_classified, Vision_frames_exit rightBack.Image_S _ intoCrossing_classified⟩

/-- The crossing is left although nothing is seen on the left. -/
theorem Vision_frames_exit_early :
    ∃ s s', Vision_frames .reads rightBack.Image_S intoCrossing = .ok s ∧ InCrossing s ∧
      Vision_frame .reads s rightBack = .ok s' ∧ s'.Current_Road = NormalRoads ∧
      rightBack.lost .L = true ∧ ¬ ExitsWhenSeen s rightBack := by
  refine ⟨_, _, rfl, ⟨rfl, rfl⟩, rfl, rfl, rfl, ?_⟩
  rintro ⟨s', hs', -, hexit⟩
  cases hs'
  exact Bool.noConfusion (hexit.mp rfl).1

/-! ## The points a border is extended from -/

/-- One arc over the whole image. -/
def ArcAlone (S : FeatureSide) : Prop := IsArc (S.my_segment 0) = true ∧ S.segment_n = 1

instance (S : FeatureSide) : Decidable (ArcAlone S) := inferInstanceAs (Decidable (_ ∧ _))

/-- The crossing handler extends both borders, each from its first feature point. -/
def CrossExtends (F : Feature) : Prop := CrossCon4 F = true ∧ (ArcAlone F.L ∨ ArcAlone F.R)

instance (F : Feature) : Decidable (CrossExtends F) := inferInstanceAs (Decidable (_ ∧ _))

section

variable {R : Type} [CFloat R] {o : Outside} {b b' : Broder} {S S' : FeatureSide}

theorem arcAlone_iff (S : FeatureSide) :
    (IsArc (S.my_segment 0) && decide (S.segment_n = 1)) = true ↔ ArcAlone S := by
  rw [Bool.and_eq_true, decide_eq_true_iff]
  rfl

/-- **What the handler draws**: from the first points of both sides, far on the side of the arc and
    near on the other; or nothing. -/
theorem CrossHandle_extend_eq (s : Vision R) : CrossHandle_extend o s =
    if CrossExtends s.F then (do
      let left ← Vision_ExtendLine R o s.Image_S.leftBroder (s.F.L.feature_p 0).x
        (decide (ArcAlone s.F.L))
      let right ← Vision_ExtendLine R o s.Image_S.rightBroder (s.F.R.feature_p 0).x
        (!decide (ArcAlone s.F.L))
      pure { s with Image_S := ⟨left, right⟩ })
    else pure s := by
  simp only [CrossHandle_extend]
  by_cases hcon : CrossCon4 s.F = true
  · rw [if_pos hcon]
    by_cases hl : ArcAlone s.F.L
    · rw [if_pos ((arcAlone_iff s.F.L).mpr hl), if_pos ⟨hcon, Or.inl hl⟩, decide_eq_true hl]
      rfl
    · rw [if_neg (fun h => hl ((arcAlone_iff s.F.L).mp h))]
      by_cases hr : ArcAlone s.F.R
      · rw [if_pos ((arcAlone_iff s.F.R).mpr hr), if_pos ⟨hcon, Or.inr hr⟩, decide_eq_false hl]
        rfl
      · rw [if_neg (fun h => hr ((arcAlone_iff s.F.R).mp h)),
          if_neg (fun h => h.2.elim hl hr)]
  · rw [if_neg hcon, if_neg (fun h => hcon h.1)]

/-- The corner search on an arc over the whole image finds a point. -/
def CornerFound (R : Type) [CFloat R] (b : Broder) : Prop :=
  ∃ b' p, Vision_FindArcFP R .reads b 69 25 = .ok (b', p) ∧ p.x ≠ -1 ∧ p.y ≠ -1

/-- Segmentation reports segments. -/
theorem Vision_GetSegment_segmented {LorR : Bool} {junk : ℕ → Uninit} {S₀ : FeatureSide}
    (h : Vision_GetSegment R .reads junk LorR b S₀ = .ok (b', S)) : Segmented S := by
  by_cases hover : (band LorR).Overflows b
  · rw [Vision_GetSegment_overflow R (Or.inl rfl) hover junk S₀] at h
    cases h
  · obtain ⟨t, ht, hj⟩ := Vision_GetSegment_eq R (o := .reads) (Or.inl rfl) hover junk S₀
    rw [ht] at h
    cases h
    exact hj.segmented ((band LorR).finalCuts_spaced b) rfl

/-- The feature points leave the segments alone. -/
theorem Vision_BroderFindFP_segments {junk : ℕ → Uninit} (hS : Segmented S)
    (h : Vision_BroderFindFP R o junk b S = .ok (b', S')) :
    S'.my_segment = S.my_segment ∧ S'.segment_n = S.segment_n := by
  obtain ⟨b'', S'', h', hseg, hn, -⟩ := Vision_BroderFindFP_ok (R := R) (o := o) (b := b) junk hS
  rw [h] at h'
  cases h'
  exact ⟨hseg, hn⟩

/-- **A lost side that goes on** has its point, on the segment behind the lost one. -/
theorem Vision_BroderFindFP_lost {junk : ℕ → Uninit} (hS : Segmented S)
    (hlose : IsLose (S.my_segment 0) = true) (hnull : IsNull (S.my_segment 1) = false)
    (h : Vision_BroderFindFP R o junk b S = .ok (b', S')) : S'.FP_n = 1 := by
  unfold Vision_BroderFindFP at h
  dsimp only at h
  rw [show (clearFP S).my_segment = S.my_segment from rfl, hS.apart hlose, Bool.false_and,
    if_neg Bool.false_ne_true, hlose, if_pos rfl, hnull, Bool.not_false, if_pos rfl] at h
  obtain ⟨r, -, hr⟩ := exists_of_bind h
  cases hr
  rfl

/-- An arc is not lost. -/
theorem not_isLose_of_isArc {seg : segment_t} (h : IsArc seg = true) : IsLose seg = false := by
  simp only [IsArc] at h
  simp only [IsLose]
  rw [of_decide_eq_true h]
  rfl

/-- **A side that is one arc** has a point exactly where the search finds a corner; there is no
    other segment to take one from. -/
theorem Vision_BroderFindFP_arc {junk : ℕ → Uninit} (hS : Segmented S) (harc : ArcAlone S)
    (h : Vision_BroderFindFP R .reads junk b S = .ok (b', S')) :
    CornerFound R b ∧ S'.FP_n = 1 ∨ ¬ CornerFound R b ∧ S'.FP_n = 0 := by
  have hno : IsLose (S.my_segment 1) = false := by
    apply Bool.eq_false_iff.mpr
    intro h1
    have hnull := not_isNull_of_isLose h1
    rw [hS.single harc.2] at hnull
    exact Bool.noConfusion hnull
  unfold Vision_BroderFindFP at h
  dsimp only at h
  rw [show (clearFP S).my_segment = S.my_segment from rfl,
    show (clearFP S).segment_n = S.segment_n from rfl, hno, Bool.false_and,
    if_neg Bool.false_ne_true, not_isLose_of_isArc harc.1, if_neg Bool.false_ne_true,
    if_pos ((arcAlone_iff S).mpr harc), hS.first.1] at h
  simp only [CornerFound]
  obtain ⟨r, hp, hr⟩ := exists_of_bind h
  rw [hp]
  by_cases hfound : r.2.x ≠ -1 ∧ r.2.y ≠ -1
  · rw [if_pos hfound] at hr
    cases hr
    exact Or.inl ⟨⟨r.1, r.2, rfl, hfound⟩, rfl⟩
  · rw [if_neg hfound] at hr
    cases hr
    refine Or.inr ⟨?_, rfl⟩
    rintro ⟨b', p, hp', hx⟩
    cases hp'
    exact absurd hx hfound

end

/-- The points a border is extended from were recorded in this frame. -/
def RecordedWhereExtended (F : Feature) : Prop := CrossExtends F → 1 ≤ F.L.FP_n ∧ 1 ≤ F.R.FP_n

/-- **The points**: in a record that segmentation and corner search make of any two borders, the
    handler extends from recorded points, except where the left side is lost next to the car and
    goes on, the right side is one arc, and the search on the right border finds no corner. -/
theorem SymbolJudge_features_recorded (R : Type) [CFloat R] (junk : ℕ → ℕ → Uninit) (I : Image)
    (F₀ : Feature) {left left' right right' : Broder} {L L' Rr Rr' : FeatureSide}
    (hl : Vision_GetSegment R .reads (junk 0) true I.leftBroder F₀.L = .ok (left, L))
    (hr : Vision_GetSegment R .reads (junk 1) false I.rightBroder F₀.R = .ok (right, Rr))
    (hl' : Vision_BroderFindFP R .reads (junk 2) left L = .ok (left', L'))
    (hr' : Vision_BroderFindFP R .reads (junk 3) right Rr = .ok (right', Rr')) :
    RecordedWhereExtended ⟨L', Rr'⟩ ↔
      ¬ (IsLose (L.my_segment 0) = true ∧ IsNull (L.my_segment 1) = false ∧ ArcAlone Rr ∧
        ¬ CornerFound R right) := by
  have hL := Vision_GetSegment_segmented hl
  have hR := Vision_GetSegment_segmented hr
  obtain ⟨hlseg, hln⟩ := Vision_BroderFindFP_segments hL hl'
  obtain ⟨hrseg, hrn⟩ := Vision_BroderFindFP_segments hR hr'
  have harc : ∀ {S S' : FeatureSide}, S'.my_segment = S.my_segment → S'.segment_n = S.segment_n →
      (ArcAlone S' ↔ ArcAlone S) := by
    intro S S' hseg hn
    simp only [ArcAlone]
    rw [hseg, hn]
  simp only [RecordedWhereExtended, CrossExtends]
  rw [CrossCon4_iff, harc hlseg hln, harc hrseg hrn]
  unfold ArcOpposite
  dsimp only
  rw [hlseg, hrseg, hln, hrn]
  constructor
  · rintro hrec ⟨hlose, hnull, halone, hno⟩
    have hfpL : L'.FP_n = 1 := Vision_BroderFindFP_lost hL hlose hnull hl'
    have hfpR : Rr'.FP_n = 0 := by
      rcases Vision_BroderFindFP_arc hR halone hr' with ⟨hfound, -⟩ | ⟨-, h0⟩
      · exact absurd hfound hno
      · exact h0
    have hn := halone.2
    have hpos := (hrec ⟨⟨Or.inr ⟨hlose, hnull, by omega, halone.1⟩, by omega⟩, Or.inr halone⟩).2
    omega
  · rintro hcond ⟨⟨hopp, hfp⟩, halone⟩
    rcases halone with halone | halone
    · -- the arc is on the left: the right side is lost and goes on
      rcases hopp with ⟨hlose, hnull, -, -⟩ | ⟨hlose, -, -, -⟩
      · have hfpR : Rr'.FP_n = 1 := Vision_BroderFindFP_lost hR hlose hnull hr'
        rcases Vision_BroderFindFP_arc hL halone hl' with ⟨-, h1⟩ | ⟨-, h0⟩
        · exact ⟨h1.ge, hfpR.ge⟩
        · exact absurd h0 hfp
      · rw [not_isLose_of_isArc halone.1] at hlose
        exact Bool.noConfusion hlose
    · rcases hopp with ⟨hlose, -, -, -⟩ | ⟨hlose, hnull, -, -⟩
      · rw [not_isLose_of_isArc halone.1] at hlose
        exact Bool.noConfusion hlose
      · have hfpL : L'.FP_n = 1 := Vision_BroderFindFP_lost hL hlose hnull hl'
        rcases Vision_BroderFindFP_arc hR halone hr' with ⟨-, h1⟩ | ⟨hno, -⟩
        · exact ⟨hfpL.ge, h1.ge⟩
        · exact absurd ⟨hlose, hnull, halone, hno⟩ hcond

/-- Lost next to the car on the left, a flat bend on the right. -/
def bendBorders : Image :=
  ⟨fun i => if 30 ≤ i then 0 else 60, fun i => 120 + min i (69 - i) / 2⟩

theorem SymbolJudge_features_recorded_bend :
    ∃ left L right Rr left' L' right' Rr',
      Vision_GetSegment ℚ .reads (fun _ => .zero) true bendBorders.leftBroder .cleared =
        .ok (left, L) ∧
      Vision_GetSegment ℚ .reads (fun _ => .zero) false bendBorders.rightBroder .cleared =
        .ok (right, Rr) ∧
      Vision_BroderFindFP ℚ .reads (fun _ => .zero) left L = .ok (left', L') ∧
      Vision_BroderFindFP ℚ .reads (fun _ => .zero) right Rr = .ok (right', Rr') ∧
      (RecordedWhereExtended ⟨L', Rr'⟩ ↔
        ¬ (IsLose (L.my_segment 0) = true ∧ IsNull (L.my_segment 1) = false ∧ ArcAlone Rr ∧
          ¬ CornerFound ℚ right)) := by
  obtain ⟨t, hl, -⟩ := Vision_GetSegment_eq ℚ (o := .reads) (b := bendBorders.leftBroder)
    (Or.inl rfl) (show ¬ (band true).Overflows bendBorders.leftBroder by decide +kernel)
    (fun _ => .zero) .cleared
  obtain ⟨t', hr, -⟩ := Vision_GetSegment_eq ℚ (o := .reads) (b := bendBorders.rightBroder)
    (Or.inl rfl) (show ¬ (band false).Overflows bendBorders.rightBroder by decide +kernel)
    (fun _ => .zero) .cleared
  obtain ⟨left', L', hl', -⟩ := Vision_BroderFindFP_ok (R := ℚ) (o := .reads) (fun _ => .zero)
    (Vision_GetSegment_segmented hl)
  obtain ⟨right', Rr', hr', -⟩ := Vision_BroderFindFP_ok (R := ℚ) (o := .reads) (fun _ => .zero)
    (Vision_GetSegment_segmented hr)
  exact ⟨_, _, _, _, left', L', right', Rr', hl, hr, hl', hr',
    SymbolJudge_features_recorded ℚ (fun _ _ => .zero) bendBorders ⟨.cleared, .cleared⟩ hl hr hl' hr'⟩

/-- There the handler extends the right border from a point that was never recorded. -/
theorem SymbolJudge_features_unrecorded :
    (∀ i, 0 ≤ i → i ≤ 69 → (0 ≤ bendBorders.leftBroder i ∧ bendBorders.leftBroder i ≤ 187) ∧
      0 ≤ bendBorders.rightBroder i ∧ bendBorders.rightBroder i ≤ 187) ∧
    ∃ I' F, SymbolJudge_features ℚ .reads (fun _ _ => .zero) bendBorders ⟨.cleared, .cleared⟩ =
        .ok (I', F) ∧ CrossExtends F ∧ F.R.FP_n = 0 ∧ ¬ RecordedWhereExtended F := by
  refine ⟨fun i h0 h69 => ⟨?_, ?_⟩, ?_⟩
  · show 0 ≤ (if 30 ≤ i then (0 : ℤ) else 60) ∧ (if 30 ≤ i then (0 : ℤ) else 60) ≤ 187
    split_ifs <;> omega
  · show 0 ≤ 120 + min i (69 - i) / 2 ∧ 120 + min i (69 - i) / 2 ≤ 187
    omega
  · have hrun : (SymbolJudge_features ℚ .reads (fun _ _ => .zero) bendBorders
        ⟨.cleared, .cleared⟩).toOption.map (fun found => CrossCon4 found.2 &&
          decide (ArcAlone found.2.R) && decide (found.2.R.FP_n = 0)) = some true := by
      decide +kernel
    obtain ⟨found, hfound, htrue⟩ := exists_of_toOption hrun
    rw [Bool.and_eq_true, Bool.and_eq_true, decide_eq_true_iff, decide_eq_true_iff] at htrue
    have hext : CrossExtends found.2 := ⟨htrue.1.1, Or.inr htrue.1.2⟩
    refine ⟨found.1, found.2, hfound, hext, htrue.2, fun hrec => ?_⟩
    have hpos := (hrec hext).2
    have h0 := htrue.2
    omega

end Car2025
