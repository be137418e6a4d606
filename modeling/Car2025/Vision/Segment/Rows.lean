/-
  What the rows of a border hold after `Vision_GetSegment`.

  Later code tests rows with `== LEFT_LOSE_VALUE`, so the rows must agree with the table: a row of a
  lost segment holds the lose value, a row of any other segment keeps clear of the lose band.

  1. **Specification (`RowsAgree`)** — the agreement for the rows 3 to 69, the rows the scan judges.

  2. **Result (`Vision_GetSegment_rows`)** — it holds but for two borders that the function writes
     from rows nobody judged.  A first segment that is kept may copy row 70, which lies behind the
     array.  A first segment that is merged is filled from the far end of the second one, and where
     that is the last segment, its far end is row 0, which the scan never looks at.
-/
import Mathlib
import Car2025.Vision.Segment.Partition

namespace Car2025

open segment_type Hysteresis

/-! ## Specification -/

/-- A column outside the lose band of a side. -/
def OutsideBand (LorR : Bool) (v : ℤ) : Prop :=
  if LorR then LEFT_LOSE_VALUE + 5 < v else v < RIGHT_LOSE_VALUE - 5

/-- The rows 3 to 69 agree with the first `N` entries of the table. -/
def RowsAgree (LorR : Bool) (broder : Broder) (t : Segments) (N : ℤ) : Prop :=
  ∀ k : ℕ, (k : ℤ) < N → ∀ r : ℤ, 3 ≤ r → r ≤ 69 → (t k).end ≤ r → r ≤ (t k).begin →
    (IsLose (t k) = true → broder r = lose_value LorR) ∧
      (IsLose (t k) = false → OutsideBand LorR (broder r))

theorem outsideBand_iff (LorR : Bool) (v : ℤ) :
    OutsideBand LorR v ↔ (band LorR).near v = false := by
  unfold OutsideBand
  cases LorR with
  | true =>
    show LEFT_LOSE_VALUE + 5 < v ↔ decide (v ≤ 5) = false
    rw [decide_eq_false_iff_not, not_le, LEFT_LOSE_VALUE, zero_add]
  | false =>
    show v < RIGHT_LOSE_VALUE - 5 ↔ decide (v ≥ RIGHT_LOSE_VALUE - 5) = false
    rw [decide_eq_false_iff_not, ge_iff_le, not_le]

/-- For a row the agreement is `Band.Agrees`, with the row's own label. -/
theorem agrees_iff (LorR : Bool) (l : Bool) (v : ℤ) :
    (band LorR).Agrees l v ↔
      (l = true → v = lose_value LorR) ∧ (l = false → OutsideBand LorR v) := by
  unfold Band.Agrees
  rw [lose_value_eq, outsideBand_iff]
  cases l <;> simp

/-- In the rows from 3 on a segment's label is its type. -/
theorem Judged.isLose_eq {l : Bool} {cs : List ℕ} {t : Segments}
    (hj : Judged (tableOf l cs) t 0 (cs.length + 1)) {k : ℕ} (hk : k ≤ cs.length)
    (h3 : 3 ≤ beginOf cs k) : IsLose (t k) = labelOf l k := by
  rw [Bool.eq_iff_iff, hj.isLose_iff hk]
  exact and_iff_left (by omega)

/-- The agreement with a judged table, in terms of its cuts. -/
theorem Judged.rowsAgree_iff {LorR l : Bool} {cs : List ℕ} {t : Segments} {b' : Broder}
    (hcs : Spaced cs) (hj : Judged (tableOf l cs) t 0 (cs.length + 1)) :
    RowsAgree LorR b' t ((cs.length : ℤ) + 1) ↔
      ∀ k ≤ cs.length, ∀ r : ℤ, 3 ≤ r → endOf cs k ≤ r → r ≤ beginOf cs k →
        (band LorR).Agrees (labelOf l k) (b' r) := by
  have hentry : ∀ k ≤ cs.length, (t k).begin = beginOf cs k ∧ (t k).end = endOf cs k := by
    intro k hk
    rw [hj.begin, hj.end, tableOf_of_le hk]
    exact ⟨rfl, rfl⟩
  constructor
  · intro h k hk r h3 hend hbegin
    have hle := hcs.beginOf_le hk
    have hr := h k (by omega) r h3 (by omega) (by rw [(hentry k hk).2]; exact hend)
      (by rw [(hentry k hk).1]; exact hbegin)
    rw [hj.isLose_eq hk (by omega)] at hr
    exact (agrees_iff LorR _ _).mpr hr
  · intro h k hk r h3 h69 hend hbegin
    have hk' : k ≤ cs.length := by omega
    rw [(hentry k hk').1] at hbegin
    rw [(hentry k hk').2] at hend
    rw [hj.isLose_eq hk' (by omega)]
    exact (agrees_iff LorR _ _).mp (h k hk' r h3 hend hbegin)

/-! ## The rows after the merge -/

namespace Band

variable (B : Band) (b : Broder)

/-- The scan leaves rows that agree with their segments, but for a first segment that copied a lost
    row 70. -/
theorem scan_agrees {k : ℕ} (hk : k ≤ (B.cuts b).length) (hclean : k ≠ 0 ∨ ¬ B.CopiesLost b)
    {r : ℤ} (h3 : 3 ≤ r) (hend : endOf (B.cuts b) k ≤ r) (hbegin : r ≤ beginOf (B.cuts b) k) :
    B.Agrees (labelOf (B.startsLost b) k) ((B.scan b).broder r) := by
  obtain ⟨l, w, h⟩ := B.scan_running b
  exact h.rows.agrees k hk hclean r (by push_cast; omega) h3 hend hbegin

theorem scan_top (h : B.CopiesLost b) : (B.scan b).broder 69 = b 70 := by
  obtain ⟨l, w, hrun⟩ := B.scan_running b
  exact hrun.rows.top h (by omega)

/-- Row 0 is not written where the last segment is long. -/
theorem scan_row_zero (h : 6 ≤ beginOf (B.cuts b) (B.cuts b).length) :
    (B.scan b).broder 0 = b 0 := by
  obtain ⟨l, w, hrun⟩ := B.scan_running b
  have hbrief := hrun.rows.brief
  rw [hrun.ahead 0 (le_refl 0) (by omega), if_neg (by omega)]

/-- The first cut is at row 69 when the first three rows are at the edge and do not start a lost
    segment. -/
theorem first_cut_iff {c : ℕ} {cs : List ℕ} (h : B.cuts b = c :: cs) :
    c = 69 ↔ B.startsLost b = false ∧ B.endsNull b 69 = true := by
  unfold cuts at h
  rw [cuts_eq_sub, cuts_eq_cons_iff] at h
  obtain ⟨-, h69, hhit, hno, -⟩ := h
  constructor
  · rintro rfl
    cases hs : B.startsLost b with
    | true =>
      unfold startState at h69
      rw [hs] at h69
      exact absurd h69 (by decide)
    | false =>
      unfold startState at hhit
      rw [hs] at hhit
      exact ⟨rfl, hhit⟩
  · rintro ⟨hs, hends⟩
    by_contra hne
    have h0 := hno 69 (by omega)
    unfold startState at h0
    rw [hs] at h0
    have hhit : B.hit b false 69 = true := hends
    exact absurd (hhit.symm.trans (h0 (by decide))) (by decide)

/-- The border switches once, early, and the second segment reaches up to row 0, which disagrees
    with it; its value is written to the rows above the switch. -/
def FillsWrong : Prop :=
  B.SwitchesEarly b ∧ ¬ B.Switches b 2 ∧ ¬ (B.startsLost b = false ∧ B.endsNull b 69 = true) ∧
    ¬ B.Agrees (!B.startsLost b) (b 0)

/-- The rows a merge fills, and the rows of the second segment, agree with its label. -/
theorem merged_agrees_iff {c : ℕ} {cs : List ℕ} (hcs : B.cuts b = c :: cs) (h63 : 63 ≤ c) :
    (∀ r : ℤ, 3 ≤ r → endOf (c :: cs) 1 ≤ r → r ≤ 69 →
      B.Agrees (!B.startsLost b)
        (if endOf (c :: cs) 0 ≤ r ∧ r ≤ 69 then (B.scan b).broder (endOf (c :: cs) 1)
          else (B.scan b).broder r)) ↔
      cs ≠ [] ∨ c = 69 ∨ B.Agrees (!B.startsLost b) (b 0) := by
  have hspaced := B.cuts_spaced b
  have hscan : ∀ r : ℤ, 3 ≤ r → endOf (c :: cs) 1 ≤ r → r ≤ c →
      B.Agrees (!B.startsLost b) ((B.scan b).broder r) := by
    intro r h3 hend hr
    refine B.scan_agrees b (k := 1) (by rw [hcs]; simp) (Or.inl one_ne_zero) h3 ?_ ?_
    · rw [hcs]
      exact hend
    · rw [hcs]
      exact hr
  rw [hcs] at hspaced
  have hc69 := hspaced.high c List.mem_cons_self
  have hend0 : endOf (c :: cs) 0 = c + 1 := endOf_of_lt (Nat.succ_pos _)
  rw [hend0]
  cases cs with
  | cons d ds =>
    -- the second segment ends at a row the scan judged
    have hd : endOf (c :: d :: ds) 1 = d + 1 := endOf_of_lt (by simp)
    have hgap := (List.pairwise_cons.mp hspaced.gap).1 d List.mem_cons_self
    have hlow := hspaced.low d (by simp)
    refine ⟨fun _ => Or.inl (List.cons_ne_nil d ds), fun _ r h3 hend hr => ?_⟩
    split_ifs with hfill
    · exact hscan _ (by rw [hd]; omega) (le_refl _) (by rw [hd]; omega)
    · exact hscan r h3 hend (by omega)
  | nil =>
    have hend1 : endOf [c] 1 = 0 := endOf_of_le (le_refl _)
    have hzero : (B.scan b).broder 0 = b 0 := by
      apply B.scan_row_zero b
      rw [hcs]
      show (6 : ℤ) ≤ c
      omega
    rw [hend1, hzero]
    constructor
    · intro h
      by_cases h69 : c = 69
      · exact Or.inr (Or.inl h69)
      · have hr := h 69 (by omega) (by omega) (le_refl _)
        rw [if_pos ⟨by omega, le_refl _⟩] at hr
        exact Or.inr (Or.inr hr)
    · intro h r h3 _ hr
      rcases h with h | h | h
      · exact absurd rfl h
      · rw [if_neg (by omega)]
        exact hscan r h3 (by rw [hend1]; omega) (by omega)
      · split_ifs with hfill
        · exact h
        · exact hscan r h3 (by rw [hend1]; omega) (by omega)

/-- **The rows after the merge** agree with the segments that are reported, unless row 70 or row 0
    was copied where it must not be. -/
theorem final_agrees_iff :
    (∀ k ≤ (B.finalCuts b).length, ∀ r : ℤ, 3 ≤ r → endOf (B.finalCuts b) k ≤ r →
      r ≤ beginOf (B.finalCuts b) k →
        B.Agrees (labelOf (B.finalLabel b) k) (B.finalBroder b r)) ↔
      ¬ (B.CopiesLost b ∧ ¬ B.SwitchesEarly b) ∧ ¬ B.FillsWrong b := by
  unfold FillsWrong
  rw [← shortFirst_iff, ← le_cuts_length_iff]
  cases hs : shortFirst (B.cuts b) with
  | false =>
    -- no merge: the rows are those of the scan
    have hfinal : B.finalCuts b = B.cuts b ∧ B.finalLabel b = B.startsLost b ∧
        B.finalBroder b = (B.scan b).broder := by
      unfold finalCuts finalLabel finalBroder mergedCuts mergedLabel mergedBroder
      rw [hs]
      exact ⟨rfl, rfl, rfl⟩
    obtain ⟨hcuts, hlabel, hbroder⟩ := hfinal
    rw [hcuts, hlabel, hbroder]
    constructor
    · refine fun h => ⟨fun hc => ?_, fun hc => Bool.false_ne_true hc.1⟩
      have h69 : endOf (B.cuts b) 0 ≤ 69 := by
        cases hcs : B.cuts b with
        | nil => decide
        | cons c cs =>
          rw [hcs, shortFirst_cons, decide_eq_false_iff_not] at hs
          rw [endOf_of_lt (Nat.succ_pos _), List.getElem_cons_zero]
          omega
      have hr := h 0 (Nat.zero_le _) 69 (by omega) h69 (le_refl _)
      rw [B.scan_top b hc.1] at hr
      have hstart : B.startsLost b = false := hc.1.1.1
      rw [labelOf, hstart] at hr
      exact absurd (hc.1.2.symm.trans hr) (by decide)
    · intro h k hk r h3 hend hbegin
      exact B.scan_agrees b hk (Or.inr (fun hc => h.1 ⟨hc, Bool.false_ne_true⟩)) h3 hend hbegin
  | true =>
    cases hcs : B.cuts b with
    | nil =>
      rw [hcs] at hs
      exact absurd hs Bool.false_ne_true
    | cons c cs =>
      have h63 : 63 ≤ c := by
        rw [hcs, shortFirst_cons, decide_eq_true_iff] at hs
        exact hs
      have hfinal : B.finalCuts b = cs ∧ B.finalLabel b = (!B.startsLost b) ∧
          B.finalBroder b = fun r => if endOf (c :: cs) 0 ≤ r ∧ r ≤ 69
            then (B.scan b).broder (endOf (c :: cs) 1) else (B.scan b).broder r := by
        unfold finalCuts finalLabel finalBroder mergedCuts mergedLabel mergedBroder
        rw [hs, hcs]
        exact ⟨rfl, rfl, rfl⟩
      obtain ⟨hcuts, hlabel, hbroder⟩ := hfinal
      have hmerged := B.merged_agrees_iff b hcs h63
      have hfirst := B.first_cut_iff b hcs
      have hspaced := B.cuts_spaced b
      rw [hcs] at hspaced
      rw [hcuts, hlabel, hbroder]
      have hwrong : cs ≠ [] ∨ c = 69 ∨ B.Agrees (!B.startsLost b) (b 0) ↔
          ¬ (B.CopiesLost b ∧ ¬ true = true) ∧ ¬ (true = true ∧ ¬ 2 ≤ (c :: cs).length ∧
            ¬ (B.startsLost b = false ∧ B.endsNull b 69 = true) ∧
              ¬ B.Agrees (!B.startsLost b) (b 0)) := by
        rw [← hfirst]
        cases cs with
        | nil => simp [or_iff_not_imp_left]
        | cons d ds => simp
      rw [← hwrong, ← hmerged]
      constructor
      · intro h r h3 hend hr
        exact h 0 (Nat.zero_le _) r h3 (by rw [← endOf_cons_succ c]; exact hend) hr
      · intro h k hk r h3 hend hbegin
        cases k with
        | zero => exact h r h3 (by rw [endOf_cons_succ]; exact hend) hbegin
        | succ k =>
          -- the later segments lie below the rows that were filled
          have hlow := (List.pairwise_cons.mp hspaced.gap).1 _ (List.getElem_mem hk)
          have hb : beginOf cs (k + 1) = cs[k] := beginOf_succ hk
          have hend0 : endOf (c :: cs) 0 = c + 1 := endOf_of_lt (Nat.succ_pos _)
          dsimp only
          rw [hend0, if_neg (by omega), labelOf_not]
          refine B.scan_agrees b (by rw [hcs]; simpa using hk) (Or.inl (Nat.succ_ne_zero _)) h3 ?_ ?_
          · rw [hcs, endOf_cons_succ]
            exact hend
          · rw [hcs]
            exact hbegin

end Band

/-! ## Result -/

/-- **Rows and table agree** exactly when no row was written from row 70 or row 0 wrongly.  The
    scan itself leaves rows that agree; only a copy from outside and the fill of the merge can go
    against it. -/
theorem Vision_GetSegment_rows (R : Type) [CFloat R] (junk : ℕ → Uninit) {LorR : Bool}
    {b : Broder} (h : AtMostNine LorR b) (S : FeatureSide) :
    ∃ b' S', Vision_GetSegment R .reads junk LorR b S = .ok (b', S') ∧
      (RowsAgree LorR b' S'.my_segment S'.segment_n ↔
        ¬ ((band LorR).CopiesLost b ∧ ¬ (band LorR).SwitchesEarly b) ∧
          ¬ (band LorR).FillsWrong b) := by
  obtain ⟨t, ht, hj⟩ := Vision_GetSegment_eq R (Or.inl rfl) h.not_overflows junk S
  refine ⟨_, _, ht, ?_⟩
  rw [← Band.final_agrees_iff]
  exact hj.rowsAgree_iff ((band LorR).finalCuts_spaced b).toSpaced

theorem Vision_GetSegment_rows_cutOff :
    AtMostNine true cutOffBroder ∧
    ∃ b' S', Vision_GetSegment ℚ .reads (fun _ => .zero) true cutOffBroder .cleared
        = .ok (b', S') ∧
      (RowsAgree true b' S'.my_segment S'.segment_n ↔
        ¬ ((band true).CopiesLost cutOffBroder ∧ ¬ (band true).SwitchesEarly cutOffBroder) ∧
          ¬ (band true).FillsWrong cutOffBroder) :=
  have h : AtMostNine true cutOffBroder := by decide +kernel
  ⟨h, Vision_GetSegment_rows ℚ (fun _ => .zero) h .cleared⟩

/-- Lost next to the car and again in row 0. -/
def lostEndsBroder : Broder := fun i => if i = 0 ∨ 67 ≤ i then 0 else 100

/-- One segment that is not lost, from row 69 to row 0, and row 69 holds 0. -/
theorem Vision_GetSegment_rows_lostEnds :
    AtMostNine true lostEndsBroder ∧
    ∃ b' S', Vision_GetSegment ℚ .reads (fun _ => .zero) true lostEndsBroder .cleared
        = .ok (b', S') ∧ S'.segment_n = 1 ∧ ¬ RowsAgree true b' S'.my_segment S'.segment_n := by
  have h : AtMostNine true lostEndsBroder := by decide +kernel
  obtain ⟨t, ht, hj⟩ := Vision_GetSegment_eq ℚ (Or.inl rfl) h.not_overflows (fun _ => .zero) .cleared
  have hcuts : (band true).finalCuts lostEndsBroder = [] := by decide +kernel
  refine ⟨h, _, _, ht, by rw [hcuts]; rfl, ?_⟩
  refine fun hrows => ?_
  have hagrees := (hj.rowsAgree_iff ((band true).finalCuts_spaced lostEndsBroder).toSpaced).mp hrows
  apply ((Band.final_agrees_iff _ _).mp hagrees).2
  refine ⟨?_, ?_, by decide +kernel, by decide +kernel⟩
  · rw [← Band.shortFirst_iff]
    decide +kernel
  · rw [← Band.le_cuts_length_iff]
    decide +kernel

end Car2025
