/-
  The road verdict of `Vision_SymbolJudge`, and what exchanging the sides does to it.

  1. **Program** — the conditions `CornerState1` … `CrossCon4` as the macros of `my_vision.c` state
     them, with the precedence of C's `&&` and `||`, and the cascade that assigns `Current_Road`.
     Two comparisons name a table where they mean a count (`F.my_segment_R == 2`); a table's address
     is neither 1 nor 2, so they are false.

  2. **Result (`SymbolJudge_mirror`)** — the verdict depends on the side in exactly three ways:
     `CornerState1` asks the left side twice, `CornerState3` never accepts its second half, and
     `CrossCon4` asks the left side's feature points for either side.
-/
import Mathlib
import Car2025.Vision.GetSegment

namespace Car2025

open segment_type

inductive RoadSymbol_type where
  | NormalRoads
  | LoseRoads
  | CrossRoads
  | CirculeRoads
  | CornerRoads
  | ZebraRoads
  deriving DecidableEq, Repr

open RoadSymbol_type

/-! ## The conditions -/

section

variable (F : Feature)

/-- `F.my_segment_L == n` and `F.my_segment_R == n`: the address of a table against a small
    number. -/
def table_is (_table : Segments) (_n : ℤ) : Bool := false

def CornerState1 : Bool :=
  IsArcCorner (F.L.my_segment 0) && IsArcCorner (F.L.my_segment 0) &&
    decide (F.L.segment_n = 1) && decide (F.R.segment_n = 1)

def CornerState2 : Bool :=
  IsArcCorner (F.L.my_segment 0) && IsArcCorner (F.L.my_segment 0) &&
    IsLose (F.L.my_segment 1) && IsLose (F.R.my_segment 1) &&
    decide (F.L.segment_n = 2) && table_is F.R.my_segment 2

def CornerState3 : Bool :=
  IsArcCorner (F.L.my_segment 0) && IsLose (F.L.my_segment 1) && IsLose (F.R.my_segment 0) &&
      decide (F.R.segment_n = 1) ||
    IsArcCorner (F.R.my_segment 0) && IsLose (F.R.my_segment 1) && IsLose (F.L.my_segment 0) &&
      table_is F.L.my_segment 1

def CrossCon1 : Bool := decide (F.L.FP_n = 2) && decide (F.R.FP_n = 2)

def CrossCon2 : Bool :=
  decide (F.L.FP_n = 1) && decide (F.R.FP_n = 2) || decide (F.R.FP_n = 1) && decide (F.L.FP_n = 2)

def CrossCon3 : Bool :=
  IsLose (F.L.my_segment 0) && decide (F.L.segment_n = 1) && decide (F.L.FP_n = 0) &&
      decide (F.R.FP_n = 2) ||
    IsLose (F.R.my_segment 0) && decide (F.R.segment_n = 1) && decide (F.R.FP_n = 0) &&
      decide (F.L.FP_n = 2)

def CrossCon4 : Bool :=
  IsLose (F.R.my_segment 0) && !IsNull (F.R.my_segment 1) &&
      (decide (F.L.segment_n ≤ 2) && IsArc (F.L.my_segment 0) && decide (F.L.FP_n ≠ 0)) ||
    IsLose (F.L.my_segment 0) && !IsNull (F.L.my_segment 1) &&
      (decide (F.R.segment_n ≤ 2) && IsArc (F.R.my_segment 0) && decide (F.L.FP_n ≠ 0))

/-- The condition of the circle verdict. -/
def CirculeCon : Bool :=
  decide (F.L.segment_n = 1) && IsStrai (F.L.my_segment 0) && IsLose (F.R.my_segment 1) &&
      decide (F.R.segment_n = 2) ||
    decide (F.R.segment_n = 1) && IsStrai (F.R.my_segment 0) && IsLose (F.L.my_segment 1) &&
      decide (F.L.segment_n = 2)

/-- The condition of the verdict `LoseRoads`. -/
def LoseCon : Bool :=
  decide (F.L.segment_n = 1) && decide (F.R.segment_n = 1) && IsLose (F.L.my_segment 0) &&
    IsLose (F.R.my_segment 0)

/-- The cascade of `Vision_SymbolJudge`; `zebra` is what `Vision_IsZebra` returned.  Only a normal
    road is judged. -/
def SymbolJudge_road (zebra : Bool) (Current_Road : RoadSymbol_type) : RoadSymbol_type :=
  if Current_Road = NormalRoads then
    if zebra then ZebraRoads
    else if CirculeCon F then CirculeRoads
    else if CornerState1 F || CornerState2 F || CornerState3 F then CornerRoads
    else if CrossCon1 F || CrossCon2 F || CrossCon3 F || CrossCon4 F then CrossRoads
    else if LoseCon F then LoseRoads
    else NormalRoads
  else Current_Road

end

/-! ## The sides exchanged -/

/-- The left and right halves exchanged. -/
def Feature.swap (F : Feature) : Feature := ⟨F.R, F.L⟩

section

variable (F : Feature)

theorem CirculeCon_swap : CirculeCon F.swap = CirculeCon F := Bool.or_comm _ _

theorem CrossCon1_swap : CrossCon1 F.swap = CrossCon1 F := Bool.and_comm _ _

theorem CrossCon2_swap : CrossCon2 F.swap = CrossCon2 F := Bool.or_comm _ _

theorem CrossCon3_swap : CrossCon3 F.swap = CrossCon3 F := Bool.or_comm _ _

theorem LoseCon_swap : LoseCon F.swap = LoseCon F := by
  unfold LoseCon Feature.swap
  rw [Bool.eq_iff_iff]
  simp only [Bool.and_eq_true]
  exact ⟨fun ⟨⟨⟨h1, h2⟩, h3⟩, h4⟩ => ⟨⟨⟨h2, h1⟩, h4⟩, h3⟩,
    fun ⟨⟨⟨h1, h2⟩, h3⟩, h4⟩ => ⟨⟨⟨h2, h1⟩, h4⟩, h3⟩⟩

/-- Arc or corner next to the car on both sides: which of the two it is, is asked of the left. -/
def OneArcCorner : Prop :=
  F.L.segment_n = 1 ∧ F.R.segment_n = 1 ∧
    IsArcCorner (F.L.my_segment 0) ≠ IsArcCorner (F.R.my_segment 0)

/-- An arc or corner that ends in a lost segment, on the side of `S`, opposite to a side `S'` that
    is lost altogether. -/
def EndsOpposite (S S' : FeatureSide) : Prop :=
  IsArcCorner (S.my_segment 0) = true ∧ IsLose (S.my_segment 1) = true ∧
    IsLose (S'.my_segment 0) = true ∧ S'.segment_n = 1

/-- An arc on the side of `S`, opposite to a side `S'` that is lost next to the car and goes on. -/
def ArcOpposite (S S' : FeatureSide) : Prop :=
  IsLose (S'.my_segment 0) = true ∧ IsNull (S'.my_segment 1) = false ∧ S.segment_n ≤ 2 ∧
    IsArc (S.my_segment 0) = true

/-- A crossing that only `CrossCon4` sees, with feature points on one side only. -/
def OneSidedCross : Prop :=
  ¬ (CrossCon1 F || CrossCon2 F || CrossCon3 F) = true ∧ (ArcOpposite F.L F.R ∨ ArcOpposite F.R F.L) ∧
    ¬ (F.L.FP_n = 0 ↔ F.R.FP_n = 0)

/-- The records the verdict tells from their mirror image. -/
def TellsSides (zebra : Bool) : Prop :=
  zebra = false ∧ CirculeCon F = false ∧
    (OneArcCorner F ∨ EndsOpposite F.L F.R ∨ EndsOpposite F.R F.L ∨ OneSidedCross F)

theorem CrossCon4_iff : CrossCon4 F = true ↔
    (ArcOpposite F.L F.R ∨ ArcOpposite F.R F.L) ∧ F.L.FP_n ≠ 0 := by
  unfold CrossCon4 ArcOpposite
  simp only [Bool.or_eq_true, Bool.and_eq_true, Bool.not_eq_true', decide_eq_true_eq]
  tauto

/-- The corner conditions together. -/
def CornerCon : Bool := CornerState1 F || CornerState2 F || CornerState3 F

theorem CornerCon_iff : CornerCon F = true ↔
    (IsArcCorner (F.L.my_segment 0) = true ∧ F.L.segment_n = 1 ∧ F.R.segment_n = 1) ∨
      EndsOpposite F.L F.R := by
  unfold CornerCon CornerState1 CornerState2 CornerState3 EndsOpposite table_is
  simp only [Bool.or_eq_true, Bool.and_eq_true, decide_eq_true_eq, Bool.false_eq_true, and_false,
    or_false, and_self, and_assoc]

/-- A near segment is not both lost and an arc or corner. -/
theorem not_arcCorner_of_lose {seg : segment_t} (h : IsLose seg = true) :
    IsArcCorner seg = false := by
  unfold IsLose at h
  rw [decide_eq_true_iff] at h
  unfold IsArcCorner
  rw [h]
  rfl

/-- The corner verdict tells the sides apart exactly on the first three kinds of records. -/
theorem CornerCon_swap_ne : CornerCon F ≠ CornerCon F.swap ↔
    OneArcCorner F ∨ EndsOpposite F.L F.R ∨ EndsOpposite F.R F.L := by
  rw [ne_eq, Bool.eq_iff_iff, CornerCon_iff, CornerCon_iff]
  unfold OneArcCorner EndsOpposite Feature.swap
  have hL := @not_arcCorner_of_lose (F.L.my_segment 0)
  have hR := @not_arcCorner_of_lose (F.R.my_segment 0)
  dsimp only
  grind

theorem CrossCon4_swap_ne : CrossCon4 F ≠ CrossCon4 F.swap ↔
    (ArcOpposite F.L F.R ∨ ArcOpposite F.R F.L) ∧ ¬ (F.L.FP_n = 0 ↔ F.R.FP_n = 0) := by
  rw [ne_eq, Bool.eq_iff_iff, CrossCon4_iff, CrossCon4_iff]
  show ¬ (_ ↔ (ArcOpposite F.R F.L ∨ ArcOpposite F.L F.R) ∧ F.R.FP_n ≠ 0) ↔ _
  tauto

/-- A record with an arc opposite to a lost near segment has corners on neither side, or shows its
    side to the corner verdict. -/
theorem not_corner_of_arcOpposite (h : ArcOpposite F.L F.R ∨ ArcOpposite F.R F.L)
    (hc : CornerCon F = CornerCon F.swap) : CornerCon F = false := by
  cases hcorner : CornerCon F with
  | false => rfl
  | true =>
    have hL := (CornerCon_iff F).mp hcorner
    have hR := (CornerCon_iff F.swap).mp (hc ▸ hcorner)
    unfold ArcOpposite IsLose IsArc at h
    unfold EndsOpposite IsArcCorner IsLose at hL hR
    unfold Feature.swap at hR
    dsimp only at hR
    simp only [decide_eq_true_eq, Bool.or_eq_true] at h hL hR
    rcases h with h | h <;> rcases hL with hL | hL <;> rcases hR with hR | hR <;> simp_all

/-- Two cascades that differ in the corner condition and in one crossing condition only. -/
theorem cascade_eq_iff {corner corner' cross con con' : Bool} {rest : RoadSymbol_type}
    (h : rest ≠ CrossRoads) (h' : rest ≠ CornerRoads) :
    ((if corner then CornerRoads else if cross || con then CrossRoads else rest) =
      (if corner' then CornerRoads else if cross || con' then CrossRoads else rest)) ↔
        corner = corner' ∧ (corner = true ∨ cross = true ∨ con = con') := by
  cases corner <;> cases corner' <;> cases cross <;> cases con <;> cases con' <;>
    simp [h, h', h.symm, h'.symm]

/-- **The verdict and its mirror image**: from a normal road the verdict is the same for the record
    and for its mirror image, except on the records that `TellsSides` lists. -/
theorem SymbolJudge_mirror (zebra : Bool) :
    SymbolJudge_road F zebra NormalRoads = SymbolJudge_road F.swap zebra NormalRoads ↔
      ¬ TellsSides F zebra := by
  have hcorner := CornerCon_swap_ne F
  have hcross := CrossCon4_swap_ne F
  have hno := not_corner_of_arcOpposite F
  unfold SymbolJudge_road TellsSides OneSidedCross
  rw [if_pos rfl, if_pos rfl, CirculeCon_swap, CrossCon1_swap, CrossCon2_swap, CrossCon3_swap,
    LoseCon_swap]
  cases zebra with
  | true => exact ⟨fun _ h => Bool.noConfusion h.1, fun _ => rfl⟩
  | false =>
    cases CirculeCon F with
    | true => exact ⟨fun _ h => Bool.noConfusion h.2.1, fun _ => rfl⟩
    | false =>
      -- what the last tests of the cascade return is neither a crossing nor a corner
      have hrest : (if LoseCon F then LoseRoads else NormalRoads) ≠ CrossRoads ∧
          (if LoseCon F then LoseRoads else NormalRoads) ≠ CornerRoads := by
        cases LoseCon F <;> decide
      -- all tests of the cascade but two are the same for both sides
      apply (cascade_eq_iff hrest.1 hrest.2).trans
      constructor
      · rintro ⟨hsame, hor⟩ ⟨-, -, h | h | h | ⟨hx, harc, hone⟩⟩
        · exact hcorner.mpr (Or.inl h) hsame
        · exact hcorner.mpr (Or.inr (Or.inl h)) hsame
        · exact hcorner.mpr (Or.inr (Or.inr h)) hsame
        · rcases hor with hc | hx' | hcon
          · exact Bool.false_ne_true ((hno harc hsame).symm.trans hc)
          · exact hx hx'
          · exact hcross.mpr ⟨harc, hone⟩ hcon
      · intro h
        have hsame : CornerCon F = CornerCon F.swap := by
          by_contra hne
          rcases hcorner.mp hne with h' | h' | h'
          · exact h ⟨rfl, rfl, Or.inl h'⟩
          · exact h ⟨rfl, rfl, Or.inr (Or.inl h')⟩
          · exact h ⟨rfl, rfl, Or.inr (Or.inr (Or.inl h'))⟩
        refine ⟨hsame, Or.inr ?_⟩
        by_contra hor
        rw [not_or] at hor
        obtain ⟨harc, hone⟩ := hcross.mp hor.2
        exact h ⟨rfl, rfl, Or.inr (Or.inr (Or.inr ⟨hor.1, harc, hone⟩))⟩

/-- An arc on the left and a straight line on the right, both over the whole image. -/
def arcLeft : Feature :=
  ⟨{ FeatureSide.cleared with
      my_segment := Function.update (fun _ => segment_t.cleared) 0 ⟨69, 0, arc_segment, NEAR⟩
      segment_n := 1 },
    { FeatureSide.cleared with
      my_segment := Function.update (fun _ => segment_t.cleared) 0 ⟨69, 0, straight_segment, NEAR⟩
      segment_n := 1 }⟩

/-- Seen from the left it is a corner, seen from the right it is not. -/
theorem SymbolJudge_mirror_arcLeft :
    SymbolJudge_road arcLeft false NormalRoads = CornerRoads ∧
      SymbolJudge_road arcLeft.swap false NormalRoads = NormalRoads := by
  decide

end

end Car2025
