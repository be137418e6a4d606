/-
  What the table of `Vision_GetSegment` says about the rows of the image.

  1. **Partition (`Vision_GetSegment_partition`)** — the reported segments cover the rows
     `69 … 0` without gap or overlap, each is at least three rows long and has a type, and the
     entries behind them are cleared: an entry of type `NULL_segment` means "no such segment".

  2. **Bounds (`Vision_GetSegment_entries`)** — an entry behind the table is used exactly when the
     border switches ten times, or nine times with the first switch above row 62.  A switch costs
     four rows at least, so a border has room for seventeen.  Of the rows, only row 70 is ever used
     wrongly (`Vision_GetSegment_inRows`), by the first pass.

  3. **Alternation (`Vision_GetSegment_alternates`)** — lost segments and others take turns, except
     that a lost segment entered at row 2 is not recognised as one: the opening test wants two rows
     below it that the image does not have.
-/
import Mathlib
import Car2025.Vision.Segment.Table

namespace Car2025

open segment_type Hysteresis

/-! ## Partition -/

/-- The entries `0, …, N - 1` partition the rows `69, …, 0`; the others are cleared.  Each has
    three rows or more and a type, and begins right behind the end of the one before. -/
structure Partitions (t : Segments) (N : ℕ) : Prop where
  pos : 1 ≤ N
  first : (t 0).begin = 69
  last : (t (N - 1)).end = 0
  next : ∀ k, k + 1 < N → (t (k + 1)).begin = (t k).end - 1
  long : ∀ k, k < N → 2 ≤ (t k).begin - (t k).end
  typed : ∀ k, k < N → (t k).type ≠ NULL_segment
  cleared : ∀ k, N ≤ k → t k = segment_t.cleared

/-- The classified table of spaced cuts is a partition: what ends one segment begins the next, and
    judging a segment writes its type only. -/
theorem Judged.partitions {l : Bool} {cs : List ℕ} {t : Segments} (hcs : SpacedBelow cs)
    (hj : Judged (tableOf l cs) t 0 (cs.length + 1)) : Partitions t (cs.length + 1) where
  pos := by omega
  first := by rw [hj.begin, tableOf_of_le (Nat.zero_le _), beginOf_zero]
  last := by rw [hj.end, Nat.add_sub_cancel, tableOf_of_le (le_refl _), endOf_of_le (le_refl _)]
  next k hk := by
    rw [hj.begin, hj.end, tableOf_of_le (by omega), tableOf_of_le (by omega)]
    exact beginOf_succ_eq (by omega)
  long k hk := by
    rw [hj.begin, hj.end, tableOf_of_le (by omega)]
    have hlong : endOf cs k + 2 ≤ beginOf cs k := hcs.long (by omega)
    dsimp only
    omega
  typed k hk := by
    by_cases hnull : (tableOf l cs k).type = NULL_segment
    · exact (hj.judged k (Nat.zero_le k) (by omega) hnull).ne_NULL
    · rw [hj.kept k (Or.inr (Or.inr hnull))]
      exact hnull
  cleared k hk := by
    have hcl : tableOf l cs k = segment_t.cleared := tableOf_of_lt (by omega)
    have hb := hj.begin k
    have he := hj.end k
    have hp := hj.position k
    have ht := hj.kept k (Or.inr (Or.inl (by omega)))
    rw [hcl] at hb he hp ht
    cases htk : t k with
    | mk b e ty p =>
      rw [htk] at hb he hp ht
      rw [segment_t.cleared, segment_t.mk.injEq]
      exact ⟨hb, he, ht, hp⟩

/-- **Partition**: on a border of at most nine segments `Vision_GetSegment` returns a partition of
    the rows. -/
theorem Vision_GetSegment_partition (R : Type) [CFloat R] (junk : ℕ → Uninit) {LorR : Bool}
    {b : Broder} (h : AtMostNine LorR b) (S : FeatureSide) :
    ∃ b' S', Vision_GetSegment R .reads junk LorR b S = .ok (b', S') ∧
      ∃ N : ℕ, S'.segment_n = N ∧ Partitions S'.my_segment N := by
  obtain ⟨t, ht, hj⟩ := Vision_GetSegment_eq R (Or.inl rfl) h.not_overflows junk S
  exact ⟨_, _, ht, _, by push_cast; rfl, hj.partitions ((band LorR).finalCuts_spaced b)⟩

/-- A straight line, then nothing: rows 69 to 20 in the image, rows 19 to 0 lost. -/
def cutOffBroder : Broder := fun i => if 20 ≤ i then 60 + i else 0

theorem Vision_GetSegment_partition_cutOff :
    AtMostNine true cutOffBroder ∧
    ∃ b' S', Vision_GetSegment ℚ .reads (fun _ => .zero) true cutOffBroder .cleared
        = .ok (b', S') ∧
      ∃ N : ℕ, S'.segment_n = N ∧ Partitions S'.my_segment N :=
  have h : AtMostNine true cutOffBroder := by decide +kernel
  ⟨h, Vision_GetSegment_partition ℚ (fun _ => .zero) h .cleared⟩

/-! ## Bounds -/

namespace Band

variable (B : Band) (b : Broder)

/-- The border switches `k` times: there are `k` windows, each below the one before, that end
    segments of alternating kinds. -/
def Switches (k : ℕ) : Prop :=
  Alternates (B.hit b) hold (B.startState b).1 k (69 - (B.startState b).2)

/-- The first window that ends the first segment lies at row 63 or above. -/
def SwitchesEarly : Prop :=
  ∃ j : ℕ, 63 ≤ j ∧ j + (B.startState b).2 ≤ 69 ∧ B.hit b (B.startState b).1 j = true

theorem le_cuts_length_iff (k : ℕ) : k ≤ (B.cuts b).length ↔ B.Switches b k :=
  le_length_cuts_iff k

/-- The first cut decides: it is the highest row at which a window ends the first segment, so it is
    early if any such row is. -/
theorem shortFirst_iff : shortFirst (B.cuts b) = true ↔ B.SwitchesEarly b := by
  unfold SwitchesEarly cuts
  rw [cuts_eq_sub]
  cases hcs : Hysteresis.cuts (B.hit b) hold (B.startState b).1 0 (69 - (B.startState b).2) with
  | nil =>
    rw [cuts_eq_nil_iff] at hcs
    refine ⟨fun h => absurd h Bool.false_ne_true, ?_⟩
    rintro ⟨j, h63, h69, hj⟩
    rw [hcs j (by omega) (by omega)] at hj
    exact absurd hj Bool.false_ne_true
  | cons c cs =>
    rw [cuts_eq_cons_iff] at hcs
    obtain ⟨h1, h2, h3, h4, -⟩ := hcs
    rw [shortFirst_cons, decide_eq_true_iff]
    constructor
    · intro h63
      exact ⟨c, h63, by omega, h3⟩
    · rintro ⟨j, h63, h69, hj⟩
      by_contra hlt
      rw [h4 j (by omega) (by omega)] at hj
      exact absurd hj Bool.false_ne_true

theorem overflows_iff :
    B.Overflows b ↔ B.Switches b 10 ∨ (B.Switches b 9 ∧ B.SwitchesEarly b) := by
  unfold Overflows
  rw [← shortFirst_iff, ← le_cuts_length_iff, ← le_cuts_length_iff]
  constructor
  · rintro (h | ⟨h, hs⟩)
    · exact Or.inl h
    · exact Or.inr ⟨by omega, hs⟩
  · rintro (h | ⟨h, hs⟩)
    · exact Or.inl h
    · rcases Nat.lt_or_ge 9 (B.cuts b).length with hlt | hge
      · exact Or.inl hlt
      · exact Or.inr ⟨by omega, hs⟩

end Band

/-- **Bounds**: the table's end is respected exactly when the border does not switch ten times, nor
    nine times with an early first switch. -/
theorem Vision_GetSegment_entries (R : Type) [CFloat R] (junk : ℕ → Uninit) (LorR : Bool)
    (b : Broder) (S : FeatureSide) :
    (∀ i, Vision_GetSegment R .reads junk LorR b S ≠ .error (.entry i)) ↔
      ¬ (band LorR).Switches b 10 ∧
        ¬ ((band LorR).Switches b 9 ∧ (band LorR).SwitchesEarly b) := by
  rw [← not_or, ← Band.overflows_iff]
  constructor
  · intro h hover
    exact h 10 (Vision_GetSegment_overflow R (Or.inl rfl) hover junk S)
  · intro h i
    obtain ⟨t, ht, -⟩ := Vision_GetSegment_eq R (Or.inl rfl) h junk S
    rw [ht]
    exact nofun

/-- Four rows at the edge and four rows away from it, in turn. -/
def stripedBroder : Broder := fun i => if i / 4 % 2 = 0 then 0 else 100

/-- The stripes are pixels of the image, and they want an eleventh entry. -/
theorem Vision_GetSegment_entries_striped :
    (∀ i, 0 ≤ stripedBroder i ∧ stripedBroder i ≤ 187) ∧
      Vision_GetSegment ℚ .reads (fun _ => .zero) true stripedBroder .cleared
        = .error (.entry 10) := by
  refine ⟨fun i => ?_, Vision_GetSegment_overflow ℚ (Or.inl rfl) (by decide +kernel) _ _⟩
  unfold stripedBroder
  split <;> omega

/-- Row 69 lies in an edge column, but the two nearest rows start no lost segment and the three
    nearest rows end none: the first segment is then open, and row 69 copies the row above it. -/
def WantsRowSeventy (LorR : Bool) (b : Broder) : Prop :=
  (b 69 ≤ 5 ∨ 182 ≤ b 69) ∧
    if LorR then ¬ (b 69 ≤ 3 ∧ b 68 ≤ 3) ∧ ¬ (b 69 ≤ 5 ∧ b 68 ≤ 5 ∧ b 67 ≤ 5)
    else ¬ (182 ≤ b 69 ∧ 182 ≤ b 68)

/-- That row 70 is read, in terms of the columns of the three nearest rows. -/
theorem readsOutside_iff (LorR : Bool) (b : Broder) :
    (band LorR).ReadsOutside b ↔ WantsRowSeventy LorR b := by
  unfold Band.ReadsOutside WantsRowSeventy Band.opensLose Band.endsNull
  rw [← Bool.not_eq_true, ← Bool.not_eq_true]
  cases LorR with
  | true =>
    show ¬ (decide (2 ≤ (69 : ℤ)) && decide (b 69 ≤ 3) && decide (b (69 - 1) ≤ 3)) = true ∧
      ¬ (decide (b 69 ≤ 5) && decide (b (69 - 1) ≤ 5) && decide (b (69 - 2) ≤ 5)) = true ∧
      (decide (b 69 ≤ 5) || decide (182 ≤ b 69)) = true ↔ _
    simp only [Bool.and_eq_true, Bool.or_eq_true, decide_eq_true_eq, Int.reduceLE, Int.reduceSub,
      true_and, if_true]
    tauto
  | false =>
    show ¬ (decide (2 ≤ (69 : ℤ)) && decide (182 ≤ b 69) && decide (182 ≤ b (69 - 1))) = true ∧
      ¬ (decide (182 ≤ b 69) && decide (182 ≤ b (69 - 1)) && decide (182 ≤ b (69 - 2))) = true ∧
      (decide (b 69 ≤ 5) || decide (182 ≤ b 69)) = true ↔ _
    simp only [Bool.and_eq_true, Bool.or_eq_true, decide_eq_true_eq, Int.reduceLE, Int.reduceSub,
      true_and, Bool.false_eq_true, if_false]
    tauto

/-- **Rows**: where rows outside the array trap, the run stops at one exactly when the first pass
    copies row 70. -/
theorem Vision_GetSegment_inRows (R : Type) [CFloat R] (junk : ℕ → Uninit) (LorR : Bool)
    (b : Broder) (S : FeatureSide) :
    (∀ i, Vision_GetSegment R .traps junk LorR b S ≠ .error (.row i)) ↔
      ¬ WantsRowSeventy LorR b := by
  rw [← readsOutside_iff]
  constructor
  · intro h hout
    apply h 70
    rw [Vision_GetSegment_split, scan_merge, row_scan_outside hout, error_bind, error_bind]
  · intro hin i
    by_cases hover : (band LorR).Overflows b
    · rw [Vision_GetSegment_overflow R (Or.inr hin) hover junk S]
      exact fun h => by cases h
    · obtain ⟨t, ht, -⟩ := Vision_GetSegment_eq R (Or.inr hin) hover junk S
      rw [ht]
      exact fun h => by cases h

/-- A single row at the left edge, next to the car. -/
def edgeBroder : Broder := fun i => if i = 69 then 4 else 100

theorem Vision_GetSegment_inRows_edge :
    (∀ i, 0 ≤ edgeBroder i ∧ edgeBroder i ≤ 187) ∧
      Vision_GetSegment ℚ .traps (fun _ => .zero) true edgeBroder .cleared
        = .error (.row 70) := by
  refine ⟨fun i => ?_, ?_⟩
  · unfold edgeBroder
    split <;> omega
  · rw [Vision_GetSegment_split, scan_merge,
      row_scan_outside ((readsOutside_iff true edgeBroder).mpr ⟨Or.inl (by decide), by decide⟩),
      error_bind, error_bind]

/-! ## Alternation -/

/-- A spaced list of cuts, each a hit of the label of the segment it ends. -/
structure Labelled (B : Band) (b : Broder) (l : Bool) (cs : List ℕ) : Prop extends Spaced cs where
  hits : ∀ (k : ℕ) (hk : k < cs.length), B.hit b (labelOf l k) cs[k] = true

namespace Band

variable (B : Band) (b : Broder)

theorem cuts_labelled : Labelled B b (B.startsLost b) (B.cuts b) :=
  ⟨B.cuts_spaced b, fun k hk => (hit_getElem_cuts _ rfl k hk).2.2⟩

/-- The cuts that are left after the merge are still hits of the labels between them, as the merge
    drops the first cut and the first label together. -/
theorem finalCuts_labelled : Labelled B b (B.finalLabel b) (B.finalCuts b) := by
  have h := B.cuts_labelled b
  refine ⟨(B.finalCuts_spaced b).toSpaced, ?_⟩
  unfold finalLabel finalCuts mergedLabel mergedCuts
  cases hs : shortFirst (B.cuts b) with
  | false =>
    simp only [Bool.false_eq_true, if_false]
    exact h.hits
  | true =>
    simp only [if_true]
    intro k hk
    rw [List.length_tail] at hk
    rw [labelOf_not, List.getElem_tail]
    exact h.hits (k + 1) (by omega)

/-- The merge removes no cut at row 2. -/
theorem two_mem_finalCuts : 2 ∈ B.finalCuts b ↔ 2 ∈ B.cuts b := by
  unfold finalCuts mergedCuts
  cases hcs : B.cuts b with
  | nil => rfl
  | cons c cs =>
    rw [shortFirst_cons]
    by_cases h63 : 63 ≤ c
    · rw [if_pos (decide_eq_true h63), List.tail_cons, List.mem_cons]
      exact (or_iff_right (by omega)).symm
    · rw [if_neg (by rw [decide_eq_true_iff]; exact h63)]

/-- Row 2 is a cut when it is read as not lost and the last three rows lie at the edge. -/
theorem two_mem_cuts : 2 ∈ B.cuts b ↔ B.labelAt b 2 = (false, 0) ∧ B.endsNull b 2 = true := by
  have hmem : 2 ∈ B.cuts b ↔ 1 ≤ 2 ∧ 2 ≤ 69 ∧ (B.labelAt b 2).2 = 0 ∧
      B.hit b (B.labelAt b 2).1 2 = true := mem_cuts_iff
  rw [hmem]
  constructor
  · rintro ⟨-, -, h0, hhit⟩
    cases hl : B.labelAt b 2 with
    | mk l w =>
      rw [hl] at h0 hhit
      dsimp only at h0 hhit
      subst h0
      cases l with
      | true => exact absurd hhit Bool.false_ne_true
      | false => exact ⟨rfl, hhit⟩
  · rintro ⟨hl, hends⟩
    rw [hl]
    exact ⟨by omega, by omega, rfl, hends⟩

end Band

/-- **Labels and types**: a reported segment is lost when its label says so and it does not begin
    at row 2. -/
theorem Judged.isLose_iff {l : Bool} {cs : List ℕ} {t : Segments}
    (hj : Judged (tableOf l cs) t 0 (cs.length + 1)) {k : ℕ} (hk : k ≤ cs.length) :
    IsLose (t k) = true ↔ labelOf l k = true ∧ beginOf cs k ≠ 2 := by
  have htype : (tableOf l cs k).type = typeOf l cs k := by rw [tableOf_of_le hk]
  unfold IsLose
  rw [decide_eq_true_iff]
  by_cases hl : labelOf l k = true ∧ beginOf cs k ≠ 2
  · rw [typeOf, if_pos hl] at htype
    rw [hj.kept k (Or.inr (Or.inr (by rw [htype]; decide))), htype]
    exact ⟨fun _ => hl, fun _ => rfl⟩
  · rw [typeOf, if_neg hl] at htype
    exact ⟨fun h => absurd h (hj.judged k (Nat.zero_le k) (by omega) htype).ne_lose,
      fun h => absurd h hl⟩

/-- Of two neighbours among the first `N` entries exactly one is lost. -/
def AlternateLose (t : Segments) (N : ℤ) : Prop :=
  ∀ k : ℕ, (k : ℤ) + 1 < N → IsLose (t k) ≠ IsLose (t (k + 1))

namespace Labelled

variable {B : Band} {b : Broder} {l : Bool} {cs : List ℕ} {t : Segments}

/-- The segment that ends at row 3 is not lost. -/
theorem label_of_two (h : Labelled B b l cs) {k : ℕ} (hk : k < cs.length) (h2 : cs[k] = 2) :
    labelOf l k = false := by
  have hhit := h.hits k hk
  rw [h2] at hhit
  cases hl : labelOf l k with
  | false => rfl
  | true =>
    rw [hl] at hhit
    exact absurd hhit Bool.false_ne_true

/-- Only the last segment begins at row 2. -/
theorem beginOf_ne_two (h2 : 2 ∉ cs) {k : ℕ} (hk : k ≤ cs.length) :
    beginOf cs k ≠ 2 := by
  cases k with
  | zero =>
    rw [beginOf_zero]
    omega
  | succ k =>
    rw [beginOf_succ hk]
    intro heq
    have hmem := List.getElem_mem hk
    rw [show cs[k] = 2 by exact_mod_cast heq] at hmem
    exact h2 hmem

/-- Neighbours take turns exactly when no cut is at row 2. -/
theorem alternateLose_iff (h : Labelled B b l cs)
    (hj : Judged (tableOf l cs) t 0 (cs.length + 1)) :
    AlternateLose t ((cs.length : ℤ) + 1) ↔ 2 ∉ cs := by
  constructor
  · intro halt hmem
    obtain ⟨k, hk, h2⟩ := List.getElem_of_mem hmem
    -- the segment above row 2 is not lost, and the one below is not recognised
    have hup : ¬ IsLose (t k) = true := by
      rw [hj.isLose_iff (by omega), h.label_of_two hk h2]
      exact fun hl => Bool.false_ne_true hl.1
    have hdown : ¬ IsLose (t (k + 1)) = true := by
      rw [hj.isLose_iff hk, beginOf_succ hk, h2]
      exact fun hl => hl.2 rfl
    rw [Bool.not_eq_true] at hup hdown
    exact halt k (by omega) (hup.trans hdown.symm)
  · intro h2 k hk heq
    have hk' : k + 1 ≤ cs.length := by omega
    have hlabels : labelOf l k = true ↔ labelOf l (k + 1) = true := by
      rw [← and_iff_left (beginOf_ne_two h2 hk') (a := labelOf l (k + 1) = true),
        ← and_iff_left (beginOf_ne_two h2 (k := k) (by omega)) (a := labelOf l k = true),
        ← hj.isLose_iff (by omega), ← hj.isLose_iff hk', heq]
    rw [labelOf] at hlabels
    cases hl : labelOf l k <;> rw [hl] at hlabels <;> simp at hlabels

end Labelled

/-- **Alternation**: neighbouring segments alternate exactly when the image does not end with three
    edge rows below a segment that is not lost. -/
theorem Vision_GetSegment_alternates (R : Type) [CFloat R] (junk : ℕ → Uninit) {LorR : Bool}
    {b : Broder} (h : AtMostNine LorR b) (S : FeatureSide) :
    ∃ b' S', Vision_GetSegment R .reads junk LorR b S = .ok (b', S') ∧
      (AlternateLose S'.my_segment S'.segment_n ↔
        ¬ ((band LorR).labelAt b 2 = (false, 0) ∧ (band LorR).endsNull b 2 = true)) := by
  obtain ⟨t, ht, hj⟩ := Vision_GetSegment_eq R (Or.inl rfl) h.not_overflows junk S
  refine ⟨_, _, ht, ?_⟩
  rw [← Band.two_mem_cuts, ← Band.two_mem_finalCuts]
  exact ((band LorR).finalCuts_labelled b).alternateLose_iff hj

theorem Vision_GetSegment_alternates_cutOff :
    AtMostNine true cutOffBroder ∧
    ∃ b' S', Vision_GetSegment ℚ .reads (fun _ => .zero) true cutOffBroder .cleared
        = .ok (b', S') ∧
      (AlternateLose S'.my_segment S'.segment_n ↔
        ¬ ((band true).labelAt cutOffBroder 2 = (false, 0) ∧
          (band true).endsNull cutOffBroder 2 = true)) :=
  have h : AtMostNine true cutOffBroder := by decide +kernel
  ⟨h, Vision_GetSegment_alternates ℚ (fun _ => .zero) h .cleared⟩

/-- The last three rows lost. -/
def lastThreeBroder : Broder := fun i => if i ≤ 2 then 0 else 100

/-- Two segments, neither of them lost: rows 69 to 3 and rows 2 to 0. -/
theorem Vision_GetSegment_alternates_lastThree :
    AtMostNine true lastThreeBroder ∧
    ∃ b' S', Vision_GetSegment ℚ .reads (fun _ => .zero) true lastThreeBroder .cleared
        = .ok (b', S') ∧ S'.segment_n = 2 ∧ ¬ AlternateLose S'.my_segment S'.segment_n := by
  have h : AtMostNine true lastThreeBroder := by decide +kernel
  obtain ⟨t, ht, hj⟩ := Vision_GetSegment_eq ℚ (Or.inl rfl) h.not_overflows (fun _ => .zero) .cleared
  have hcuts : (band true).finalCuts lastThreeBroder = [2] := by decide +kernel
  have hlabelled := (band true).finalCuts_labelled lastThreeBroder
  rw [hcuts] at hj hlabelled
  refine ⟨h, _, _, ht, by rw [hcuts]; rfl, ?_⟩
  rw [hcuts]
  exact fun halt => (hlabelled.alternateLose_iff hj).mp halt (by decide)

end Car2025
