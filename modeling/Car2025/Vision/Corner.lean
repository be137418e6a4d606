/-
  The corner handler and its mirror image.

  1. **What it does (`Vision_CornerHandle_eq`)** — of the three conditions only the first half of
     `CornerState3` ever writes: an arc or corner on the left that ends in a lost segment, opposite to
     a right side that is lost altogether.  The other half compares a table with 1, `CornerState2`
     compares one with 2, and `CornerState1` does nothing.

  2. **Result (`Vision_CornerHandle_mirror`)** — so the left border is written and the right one never
     is: the handler commutes with the mirror exactly when the rows it would write hold the lose
     value of their side already.
-/
import Mathlib
import Car2025.Lib.Fill
import Car2025.Vision.RSHandle
import Car2025.Vision.Segment.Mirror

namespace Car2025

open segment_type RoadSymbol_type

/-! ## What the handler does -/

/-- The rows of a segment but its last one. -/
def InLoseRows (seg : segment_t) (r : ℤ) : Prop := seg.end < r ∧ r ≤ seg.begin

instance (seg : segment_t) (r : ℤ) : Decidable (InLoseRows seg r) :=
  inferInstanceAs (Decidable (_ ∧ _))

theorem lose_rows_eq : ∀ (n : ℕ) (i : ℤ) (b : Broder), lose_rows .reads n i b =
    .ok fun r => if i - n < r ∧ r ≤ i then LEFT_LOSE_VALUE else b r := by
  intro n
  induction n with
  | zero =>
    intro i b
    exact congrArg Except.ok (Fill.down_zero _ b i).symm
  | succ n ih =>
    intro i b
    rw [lose_rows, wr_reads, ok_bind, ih (i - 1)]
    exact congrArg Except.ok (Fill.down_succ (fun _ => LEFT_LOSE_VALUE) b i n)

/-- The left border of a corner, with the rows of its lost segment written. -/
def loseBroder (seg : segment_t) (b : Broder) : Broder :=
  fun r => if InLoseRows seg r then LEFT_LOSE_VALUE else b r

instance (S S' : FeatureSide) : Decidable (EndsOpposite S S') :=
  inferInstanceAs (Decidable (_ ∧ _ ∧ _ ∧ _))

/-- The handler writes the left border. -/
def CornerWrites (F : Feature) : Prop := EndsOpposite F.L F.R ∧ F.L.segment_n ≠ 1

instance (F : Feature) : Decidable (CornerWrites F) := inferInstanceAs (Decidable (_ ∧ _))

theorem CornerState1_iff (F : Feature) : CornerState1 F = true ↔
    IsArcCorner (F.L.my_segment 0) = true ∧ F.L.segment_n = 1 ∧ F.R.segment_n = 1 := by
  simp only [CornerState1]
  simp only [Bool.and_eq_true, decide_eq_true_eq, and_self, and_assoc]

theorem CornerState2_false (F : Feature) : CornerState2 F = false := Bool.and_false _

theorem CornerState3_iff (F : Feature) : CornerState3 F = true ↔ EndsOpposite F.L F.R := by
  simp only [CornerState3, EndsOpposite, table_is]
  simp only [Bool.or_eq_true, Bool.and_eq_true, decide_eq_true_eq, Bool.false_eq_true, and_false,
    or_false, and_assoc]

theorem lose_segment_rows_left {R : Type} (s : Vision R) : lose_segment_rows .reads .L s =
    .ok { s with Image_S :=
      ⟨loseBroder (s.F.L.my_segment 1) s.Image_S.leftBroder, s.Image_S.rightBroder⟩ } := by
  show (lose_rows .reads ((s.F.L.my_segment 1).begin - (s.F.L.my_segment 1).end).toNat
    (s.F.L.my_segment 1).begin s.Image_S.leftBroder >>= fun broder =>
      pure { s with Image_S := ⟨broder, s.Image_S.rightBroder⟩ }) = _
  rw [lose_rows_eq, ok_bind, pure_ok]
  congr 3
  funext r
  exact if_congr (by unfold InLoseRows; omega) rfl rfl

/-- **The handler**: the left border at most is written, and the road is normal again. -/
theorem Vision_CornerHandle_eq {R : Type} (s : Vision R) : Vision_CornerHandle .reads s =
    .ok { s with
      Current_Road := NormalRoads
      Image_S := ⟨if CornerWrites s.F then
          loseBroder (s.F.L.my_segment 1) s.Image_S.leftBroder else s.Image_S.leftBroder,
        s.Image_S.rightBroder⟩ } := by
  unfold Vision_CornerHandle
  dsimp only
  rw [CornerState2_false, if_neg Bool.false_ne_true]
  by_cases h1 : CornerState1 s.F = true
  · have hno : ¬ CornerWrites s.F := fun h => h.2 ((CornerState1_iff s.F).mp h1).2.1
    rw [if_pos h1, if_neg hno, pure_ok, ok_bind, pure_ok]
  · rw [if_neg h1]
    by_cases h3 : CornerState3 s.F = true
    · have hends := (CornerState3_iff s.F).mp h3
      have hlose : IsLose (s.F.L.my_segment 0) = false := by
        apply Bool.eq_false_iff.mpr
        intro h
        exact Bool.false_ne_true ((not_arcCorner_of_lose h).symm.trans hends.1)
      have hwrites : CornerWrites s.F :=
        ⟨hends, fun hn => h1 ((CornerState1_iff s.F).mpr ⟨hends.1, hn, hends.2.2.2⟩)⟩
      rw [if_pos h3, hlose, if_neg Bool.false_ne_true, hends.2.2.1, if_pos rfl,
        lose_segment_rows_left, ok_bind, pure_ok, if_pos hwrites]
    · have hno : ¬ CornerWrites s.F := fun h => h3 ((CornerState3_iff s.F).mpr h.1)
      rw [if_neg h3, if_neg hno, pure_ok, ok_bind, pure_ok]

/-! ## The mirror -/

/-- The image seen in a mirror. -/
def Image.mirror (I : Image) : Image := ⟨Car2025.mirror I.rightBroder, Car2025.mirror I.leftBroder⟩

/-- A state seen in a mirror. -/
def Vision.mirror {R : Type} (s : Vision R) : Vision R :=
  { s with F := s.F.swap, Image_S := s.Image_S.mirror }

/-- Two images show the same borders. -/
def SameBorders (I I' : Image) : Prop :=
  ∀ r, 0 ≤ r → r ≤ 69 → I.leftBroder r = I'.leftBroder r ∧ I.rightBroder r = I'.rightBroder r

/-- The handler would change a row: on a corner that ends in a lost segment on the side of `S`, some
    row of the image in that segment does not hold the lose value `v` of the side. -/
def ShowsCorner (S S' : FeatureSide) (v : ℤ) (b : Broder) : Prop :=
  EndsOpposite S S' ∧ S.segment_n ≠ 1 ∧ ∃ r, 0 ≤ r ∧ r ≤ 69 ∧ InLoseRows (S.my_segment 1) r ∧ b r ≠ v

/-- Writing the rows leaves row `r` as it is, unless it is one of them and holds something else. -/
theorem loseBroder_row {c : Prop} [Decidable c] (seg : segment_t) (b : Broder) (r : ℤ) :
    (if c then loseBroder seg b else b) r = b r ↔
      ¬ (c ∧ InLoseRows seg r ∧ b r ≠ LEFT_LOSE_VALUE) := by
  by_cases hc : c
  · rw [if_pos hc]
    show (if InLoseRows seg r then LEFT_LOSE_VALUE else b r) = b r ↔ _
    by_cases hr : InLoseRows seg r
    · rw [if_pos hr]
      exact ⟨fun h h' => h'.2.2 h.symm, fun h => by_contra fun hne => h ⟨hc, hr, Ne.symm hne⟩⟩
    · rw [if_neg hr]
      exact ⟨fun _ h' => hr h'.2.1, fun _ => rfl⟩
  · rw [if_neg hc]
    exact ⟨fun _ h' => hc h'.1, fun _ => rfl⟩

/-- **Mirror**: the handler commutes with the mirror exactly when neither the record nor its mirror
    image has a corner whose lost rows hold something else than the lose value. -/
theorem Vision_CornerHandle_mirror {R : Type} (s : Vision R) :
    ∃ s' t', Vision_CornerHandle .reads s = .ok s' ∧ Vision_CornerHandle .reads s.mirror = .ok t' ∧
      (SameBorders t'.Image_S s'.Image_S.mirror ↔
        ¬ (ShowsCorner s.F.L s.F.R LEFT_LOSE_VALUE s.Image_S.leftBroder ∨
          ShowsCorner s.F.R s.F.L RIGHT_LOSE_VALUE s.Image_S.rightBroder)) := by
  refine ⟨_, _, Vision_CornerHandle_eq s, Vision_CornerHandle_eq s.mirror, ?_⟩
  -- Row by row: a border differs from the mirror of the other one where one handler has written.
  have hleft : ∀ r, (187 - s.Image_S.leftBroder r = 187 - (if CornerWrites s.F then
      loseBroder (s.F.L.my_segment 1) s.Image_S.leftBroder else s.Image_S.leftBroder) r) ↔
      ¬ (CornerWrites s.F ∧ InLoseRows (s.F.L.my_segment 1) r ∧
        s.Image_S.leftBroder r ≠ LEFT_LOSE_VALUE) := by
    intro r
    rw [← loseBroder_row]
    omega
  have hright : ∀ r, ((if CornerWrites s.F.swap then
      loseBroder (s.F.R.my_segment 1) (mirror s.Image_S.rightBroder)
        else mirror s.Image_S.rightBroder) r = mirror s.Image_S.rightBroder r) ↔
      ¬ (CornerWrites s.F.swap ∧ InLoseRows (s.F.R.my_segment 1) r ∧
        s.Image_S.rightBroder r ≠ RIGHT_LOSE_VALUE) := by
    intro r
    rw [loseBroder_row]
    have hne : mirror s.Image_S.rightBroder r ≠ LEFT_LOSE_VALUE ↔
        s.Image_S.rightBroder r ≠ RIGHT_LOSE_VALUE := by
      simp only [mirror, LEFT_LOSE_VALUE, RIGHT_LOSE_VALUE]
      omega
    rw [hne]
  constructor
  · rintro hsame (⟨hends, hn, r, h0, h69, hin, hne⟩ | ⟨hends, hn, r, h0, h69, hin, hne⟩)
    · exact (hleft r).mp (hsame r h0 h69).2 ⟨⟨hends, hn⟩, hin, hne⟩
    · exact (hright r).mp (hsame r h0 h69).1 ⟨⟨hends, hn⟩, hin, hne⟩
  · intro hno r h0 h69
    refine ⟨(hright r).mpr fun h => ?_, (hleft r).mpr fun h => ?_⟩
    · exact hno (Or.inr ⟨h.1.1, h.1.2, r, h0, h69, h.2.1, h.2.2⟩)
    · exact hno (Or.inl ⟨h.1.1, h.1.2, r, h0, h69, h.2.1, h.2.2⟩)

/-- A corner on the left: a line, then lost rows, of which segmentation leaves the farthest as they
    are; nothing on the right. -/
def cornerState : Vision ℚ :=
  { Vision.start ⟨fun i => if 30 ≤ i then 30 + i else if 3 ≤ i then 0 else 100, fun _ => 187⟩ with
    Current_Road := CornerRoads
    F := ⟨{ FeatureSide.cleared with
        my_segment := fun k => if k = 0 then ⟨69, 30, corner_segment, NEAR⟩
          else if k = 1 then ⟨29, 0, lose_segment, NEAR⟩ else segment_t.cleared
        FP_n := 1
        segment_n := 2 },
      { FeatureSide.cleared with
        my_segment := fun k => if k = 0 then ⟨69, 0, lose_segment, NEAR⟩ else segment_t.cleared
        segment_n := 1 }⟩ }

/-- Its left border is written; in the mirror the right one is not. -/
theorem Vision_CornerHandle_mirror_corner :
    ∃ s' t', Vision_CornerHandle .reads cornerState = .ok s' ∧
      Vision_CornerHandle .reads cornerState.mirror = .ok t' ∧
      s'.Image_S.leftBroder 1 = 0 ∧ t'.Image_S.rightBroder 1 = 187 - 100 ∧
      ¬ SameBorders t'.Image_S s'.Image_S.mirror := by
  refine ⟨_, _, rfl, rfl, by decide, by decide, fun h => ?_⟩
  exact absurd (h 1 (by decide) (by decide)).2 (by decide)

end Car2025
