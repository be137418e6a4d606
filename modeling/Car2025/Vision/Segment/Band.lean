/-
  The row scan without its accesses: both sides of `Vision_GetSegment` as one pure program.

  The two hand-written sides of the scan differ in a column value and in four column tests.  A
  `Band` is that value and those tests, together with the three facts about them the scan relies
  on; `band LorR` is the source's choice for a side.  `Band.rows` is then the scan as a function of
  the border, without checks.

  **The bridge (`row_scan_eq`)** — the faithful scan computes exactly `Band.rows`, stops at
  `entry 10` when more than ten segments are opened, and, where rows outside the array trap, stops
  at row 70 exactly when `Band.ReadsOutside` holds of the border.
-/
import Mathlib
import Car2025.Vision.GetSegment

namespace Car2025

open segment_type

/-! ## The tests of one side -/

/-- The column value and the column tests of one side: `start` gives a new segment the type
    `lose_segment`, `near` is the lose band proper, `edge` are the columns that a kept row copies
    away from. -/
structure Band where
  lose : ℤ
  start : ℤ → Bool
  near : ℤ → Bool
  edge : ℤ → Bool
  /-- What starts a lost segment lies in the band. -/
  near_of_start : ∀ v, start v = true → near v = true
  /-- The band lies at the edge. -/
  edge_of_near : ∀ v, near v = true → edge v = true
  /-- A row that was written as lost starts a lost segment. -/
  start_lose : start lose = true

namespace Band

/-- The rewritten value lies in the band. -/
theorem near_lose (B : Band) : B.near B.lose = true := B.near_of_start _ B.start_lose

theorem not_start_of_not_near (B : Band) {v : ℤ} (h : B.near v = false) : B.start v = false := by
  cases hs : B.start v with
  | false => rfl
  | true => rw [B.near_of_start v hs] at h; exact absurd h (by decide)

end Band

/-- The left side: lost rows hold 0. -/
def leftBand : Band where
  lose := LEFT_LOSE_VALUE
  start v := v ≤ 3
  near v := v ≤ 5
  edge v := v ≤ LEFT_LOSE_VALUE + 5 || v ≥ RIGHT_LOSE_VALUE - 5
  near_of_start v h := by
    rw [decide_eq_true_iff] at h ⊢
    omega
  edge_of_near v h := by
    rw [decide_eq_true_iff] at h
    rw [Bool.or_eq_true, decide_eq_true_iff]
    exact Or.inl h
  start_lose := by decide

/-- The right side: lost rows hold 187. -/
def rightBand : Band where
  lose := RIGHT_LOSE_VALUE
  start v := v ≥ RIGHT_LOSE_VALUE - 5
  near v := v ≥ RIGHT_LOSE_VALUE - 5
  edge v := v ≤ LEFT_LOSE_VALUE + 5 || v ≥ RIGHT_LOSE_VALUE - 5
  near_of_start v h := h
  edge_of_near v h := by
    rw [Bool.or_eq_true]
    exact Or.inr h
  start_lose := by decide

/-- The tests the source uses for a side. -/
def band (LorR : Bool) : Band := if LorR then leftBand else rightBand

theorem lose_value_eq (LorR : Bool) : lose_value LorR = (band LorR).lose := by
  cases LorR <;> rfl

namespace Band

/-! ## The scan as a function -/

/-- Four rows away from the edge. -/
def endsLose (B : Band) (b : Broder) (i : ℤ) : Bool :=
  !B.near (b i) && !B.near (b (i - 1)) && !B.near (b (i - 2)) && !B.near (b (i - 3))

/-- Three rows at the edge. -/
def endsNull (B : Band) (b : Broder) (i : ℤ) : Bool :=
  B.near (b i) && B.near (b (i - 1)) && B.near (b (i - 2))

/-- A segment opened at row `i` is lost. -/
def opensLose (B : Band) (b : Broder) (i : ℤ) : Bool :=
  decide (2 ≤ i) && B.start (b i) && B.start (b (i - 1))

/-- Three rows rewritten. -/
def fill3 (b : Broder) (i v : ℤ) : Broder :=
  Function.update (Function.update (Function.update b i v) (i - 1) v) (i - 2) v

/-- `if(begin_flag)`. -/
def begin (B : Band) (i : ℤ) (s : Scan) : Scan where
  broder := if B.opensLose s.broder i then fill3 s.broder i B.lose else s.broder
  target_segment := Function.update s.target_segment s.segment_n
    { s.target_segment s.segment_n with
      begin := if i = imgRow - 1 then i else i + 1
      type := if B.opensLose s.broder i then lose_segment else NULL_segment }
  segment_n := s.segment_n
  begin_flag := false

/-- The open segment ends at row `i + 1`. -/
def close (i : ℤ) (s : Scan) : Scan where
  broder := s.broder
  target_segment := Function.update s.target_segment s.segment_n
    { s.target_segment s.segment_n with «end» := i + 1 }
  segment_n := s.segment_n + 1
  begin_flag := true

/-- Row `i` of a segment that is not lost keeps its value, or takes that of the row above. -/
def keep (B : Band) (b : Broder) (i : ℤ) : ℤ := if B.edge (b i) then b (i + 1) else b i

/-- The second half of a pass. -/
def finish (B : Band) (i : ℤ) (s : Scan) : Scan :=
  if (s.target_segment s.segment_n).type = lose_segment then
    if 3 ≤ i then
      if B.endsLose s.broder i then close i s
      else { s with broder := Function.update s.broder i B.lose }
    else s
  else if (s.target_segment s.segment_n).type = NULL_segment then
    if 2 ≤ i then
      if B.endsNull s.broder i then close i { s with broder := fill3 s.broder i B.lose }
      else { s with broder := Function.update s.broder i (B.keep s.broder i) }
    else s
  else s

/-- One pass. -/
def row (B : Band) (i : ℤ) (s : Scan) : Scan :=
  B.finish i (if s.begin_flag then B.begin i s else s)

/-- The passes for the rows `n, …, 1`. -/
def rows (B : Band) : ℕ → Scan → Scan
  | 0, s => s
  | n + 1, s => B.rows n (B.row ((n + 1 : ℕ) : ℤ) s)

/-- The whole scan. -/
def scan (B : Band) (b : Broder) : Scan := B.rows 69 (scan_start b)

/-! ## The accesses of a pass -/

/-- Row `i` would copy the row above it. -/
def CopiesUp (B : Band) (i : ℤ) (s : Scan) : Prop :=
  (s.target_segment s.segment_n).type = NULL_segment ∧ 2 ≤ i ∧ B.endsNull s.broder i = false ∧
    B.edge (s.broder i) = true

/-- The first pass reads row 70: the first segment is not lost, row 69 does not end it, and row 69
    lies at the edge. -/
def ReadsOutside (B : Band) (b : Broder) : Prop :=
  B.opensLose b 69 = false ∧ B.endsNull b 69 = false ∧ B.edge (b 69) = true

instance (B : Band) (b : Broder) : Decidable (B.ReadsOutside b) :=
  inferInstanceAs (Decidable (_ ∧ _))

end Band

/-- The checked test for the begin of a lost segment is that of the band: it reads two rows of the
    image. -/
theorem begins_lose_eq {o : Outside} (LorR : Bool) {b : Broder} {i : ℤ} (hi : i ≤ 69) :
    begins_lose o LorR b i = .ok ((band LorR).opensLose b i) := by
  unfold begins_lose Band.opensLose
  by_cases h2 : 2 ≤ i
  · have hrows : ∀ j ∈ [i, i - 1], o.Allows j := by
      intro j hj
      exact o.allows_of_rows (by simp at hj; omega) (by simp at hj; omega)
    rw [if_pos (show i - 2 ≥ 0 by omega)]
    cases LorR with
    | true =>
      rw [if_pos rfl, allRows_eq _ hrows]
      simp [band, leftBand, h2]
    | false =>
      rw [if_neg Bool.false_ne_true, allRows_eq _ hrows]
      simp [band, rightBand, h2]
  · rw [if_neg (show ¬ i - 2 ≥ 0 by omega)]
    simp [h2]

/-- The left test `broder[j] > 5` leaves the band. -/
theorem left_far (v : ℤ) : decide (v > 5) = !leftBand.near v := by
  show decide (v > 5) = !decide (v ≤ 5)
  rw [← decide_not, decide_eq_decide, not_le]

/-- The right test `broder[j] < 182` leaves the band. -/
theorem right_far (v : ℤ) : decide (v < RIGHT_LOSE_VALUE - 5) = !rightBand.near v := by
  show decide (v < RIGHT_LOSE_VALUE - 5) = !decide (v ≥ RIGHT_LOSE_VALUE - 5)
  rw [← decide_not, decide_eq_decide, ge_iff_le, not_le]

/-- The checked test for its end is that of the band: it reads four rows of the image. -/
theorem ends_lose_eq {o : Outside} (LorR : Bool) {b : Broder} {i : ℤ} (h3 : 3 ≤ i) (hi : i ≤ 69) :
    ends_lose o LorR b i = .ok ((band LorR).endsLose b i) := by
  unfold ends_lose Band.endsLose
  have hrows : ∀ j ∈ [i, i - 1, i - 2, i - 3], o.Allows j := by
    intro j hj
    exact o.allows_of_rows (by simp at hj; omega) (by simp at hj; omega)
  cases LorR with
  | true =>
    rw [if_pos rfl, allRows_eq _ hrows]
    simp only [left_far, List.all_cons, List.all_nil, Bool.and_true, Bool.and_assoc]
    rfl
  | false =>
    rw [if_neg Bool.false_ne_true, allRows_eq _ hrows]
    simp only [right_far, List.all_cons, List.all_nil, Bool.and_true, Bool.and_assoc]
    rfl

theorem ends_null_eq {o : Outside} (LorR : Bool) {b : Broder} {i : ℤ} (h2 : 2 ≤ i) (hi : i ≤ 69) :
    ends_null o LorR b i = .ok ((band LorR).endsNull b i) := by
  unfold ends_null Band.endsNull
  have hrows : ∀ j ∈ [i, i - 1, i - 2], o.Allows j := by
    intro j hj
    exact o.allows_of_rows (by simp at hj; omega) (by simp at hj; omega)
  cases LorR with
  | true =>
    rw [if_pos rfl, allRows_eq _ hrows]
    simp [band, leftBand, Bool.and_assoc]
  | false =>
    rw [if_neg Bool.false_ne_true, allRows_eq _ hrows]
    simp [band, rightBand, Bool.and_assoc]

theorem wr3_eq {o : Outside} {b : Broder} {i v : ℤ} (h2 : 2 ≤ i) (hi : i ≤ 69) :
    wr3 o b i v = .ok (Band.fill3 b i v) := by
  unfold wr3
  rw [wr_of_allows (o.allows_of_rows (by omega) hi), ok_bind,
    wr_of_allows (o.allows_of_rows (by omega) (by omega)), ok_bind,
    wr_of_allows (o.allows_of_rows (by omega) (by omega))]
  rfl

/-- Both tests of the copy are the test `edge` of either side. -/
theorem edge_iff (LorR : Bool) (v : ℤ) :
    (v ≤ LEFT_LOSE_VALUE + 5 ∨ v ≥ RIGHT_LOSE_VALUE - 5) ↔ (band LorR).edge v = true := by
  cases LorR <;> simp [band, leftBand, rightBand]

/-- **Opening**: the checked first half of a pass is `Band.begin`; with room in the table it reads
    and writes what exists, so no check fails here. -/
theorem scan_begin_eq {o : Outside} (LorR : Bool) {i : ℤ} {s : Scan} (hi : i ≤ 69)
    (hn : s.segment_n ≤ 9) : scan_begin o LorR i s = .ok ((band LorR).begin i s) := by
  unfold scan_begin Band.begin
  rw [entry_of_le hn, ok_bind]
  dsimp only
  rw [begins_lose_eq LorR hi, ok_bind]
  cases hl : (band LorR).opensLose s.broder i with
  | true =>
    have h2 : 2 ≤ i := by
      unfold Band.opensLose at hl
      simp only [Bool.and_eq_true, decide_eq_true_iff] at hl
      exact hl.1.1
    rw [if_pos rfl, setEntry_of_le hn, ok_bind, wr3_eq h2 hi, ok_bind, lose_value_eq]
    simp
  | false =>
    rw [if_neg Bool.false_ne_true, setEntry_of_le hn, ok_bind]
    simp

/-- **Closing**: the checked second half of a pass is `Band.finish`, unless it reads row 70: the
    row above the first is the one place where a check can fail. -/
theorem scan_end_eq {o : Outside} (LorR : Bool) {i : ℤ} {s : Scan} (h1 : 1 ≤ i) (hi : i ≤ 69)
    (hn : s.segment_n ≤ 9) (hup : o.Allows (i + 1) ∨ ¬ (band LorR).CopiesUp i s) :
    scan_end o LorR i s = .ok ((band LorR).finish i s) := by
  unfold scan_end Band.finish
  rw [entry_of_le hn, ok_bind]
  by_cases ht : (s.target_segment s.segment_n).type = lose_segment
  · rw [if_pos ht, if_pos ht]
    by_cases h3 : 3 ≤ i
    · rw [if_pos h3, if_pos h3, ends_lose_eq LorR h3 hi, ok_bind]
      by_cases he : (band LorR).endsLose s.broder i
      · rw [if_pos he, if_pos he, setEntry_of_le hn, ok_bind]
        rfl
      · rw [if_neg he, if_neg he, wr_of_allows (o.allows_of_rows (by omega) hi), ok_bind,
          lose_value_eq]
        rfl
    · rw [if_neg h3, if_neg h3]
      rfl
  rw [if_neg ht, if_neg ht]
  by_cases ht' : (s.target_segment s.segment_n).type = NULL_segment
  · rw [if_pos ht', if_pos ht']
    by_cases h2 : 2 ≤ i
    · rw [if_pos h2, if_pos h2, ends_null_eq LorR h2 hi, ok_bind]
      by_cases he : (band LorR).endsNull s.broder i
      · rw [if_pos he, if_pos he, wr3_eq h2 hi, ok_bind, setEntry_of_le hn, ok_bind, lose_value_eq]
        rfl
      · rw [if_neg he, if_neg he, rd_of_allows (o.allows_of_rows (by omega) hi), ok_bind]
        unfold Band.keep
        by_cases hedge : (band LorR).edge (s.broder i) = true
        · have hallow : o.Allows (i + 1) :=
            hup.resolve_right (fun h => h ⟨ht', h2, by simpa using he, hedge⟩)
          rw [if_pos ((edge_iff LorR _).mpr hedge), if_pos hedge, rd_of_allows hallow, ok_bind]
          dsimp only
          rw [wr_of_allows (o.allows_of_rows (by omega) hi), ok_bind]
          rfl
        · rw [if_neg (fun h => hedge ((edge_iff LorR _).mp h)), if_neg hedge, ok_bind]
          dsimp only
          rw [wr_of_allows (o.allows_of_rows (by omega) hi), ok_bind]
          rfl
    · rw [if_neg h2, if_neg h2]
      rfl
  · rw [if_neg ht', if_neg ht']
    rfl

/-! ## How many segments a pass opens -/

namespace Band

variable (B : Band)

theorem begin_segment_n (i : ℤ) (s : Scan) : (B.begin i s).segment_n = s.segment_n := rfl

@[simp] theorem begin_begin_flag (i : ℤ) (s : Scan) : (B.begin i s).begin_flag = false := rfl

/-- **A pass closes at most one segment**, never at row 1, and then asks for a new one.  So the
    table grows by one entry at most with every row. -/
theorem finish_cases (i : ℤ) (s : Scan) :
    ((B.finish i s).segment_n = s.segment_n ∧ (B.finish i s).begin_flag = s.begin_flag) ∨
      (2 ≤ i ∧ (B.finish i s).segment_n = s.segment_n + 1 ∧ (B.finish i s).begin_flag = true) := by
  unfold finish
  split
  · split
    · split
      · exact Or.inr ⟨by omega, rfl, rfl⟩
      · exact Or.inl ⟨rfl, rfl⟩
    · exact Or.inl ⟨rfl, rfl⟩
  · split
    · split
      · split
        · exact Or.inr ⟨by omega, rfl, rfl⟩
        · exact Or.inl ⟨rfl, rfl⟩
      · exact Or.inl ⟨rfl, rfl⟩
    · exact Or.inl ⟨rfl, rfl⟩

theorem le_row_segment_n (i : ℤ) (s : Scan) : s.segment_n ≤ (B.row i s).segment_n := by
  have hbegin : (if s.begin_flag then B.begin i s else s).segment_n = s.segment_n := by
    split <;> rfl
  unfold row
  rcases B.finish_cases i (if s.begin_flag then B.begin i s else s) with ⟨h, -⟩ | ⟨-, h, -⟩ <;> omega

theorem le_rows_segment_n : ∀ (n : ℕ) (s : Scan), s.segment_n ≤ (B.rows n s).segment_n
  | 0, _ => le_refl _
  | n + 1, s => le_trans (B.le_row_segment_n _ s) (le_rows_segment_n n _)

end Band

/-! ## The bridge -/

/-- One checked pass is one pass of `Band.row`. -/
theorem scan_row_eq {o : Outside} (LorR : Bool) {i : ℤ} {s : Scan} (h1 : 1 ≤ i) (hi : i ≤ 69)
    (hn : s.segment_n ≤ 9)
    (hup : o.Allows (i + 1) ∨
      ¬ (band LorR).CopiesUp i (if s.begin_flag then (band LorR).begin i s else s)) :
    scan_row o LorR i s = .ok ((band LorR).row i s) := by
  unfold scan_row Band.row
  cases hf : s.begin_flag with
  | true =>
    rw [hf, if_pos rfl] at hup
    rw [if_pos rfl, scan_begin_eq LorR hi hn, ok_bind]
    exact scan_end_eq LorR h1 hi hn hup
  | false =>
    rw [hf, if_neg Bool.false_ne_true] at hup
    rw [if_neg Bool.false_ne_true, pure_ok, ok_bind]
    exact scan_end_eq LorR h1 hi hn hup

/-- The eleventh segment is opened in an entry that does not exist. -/
theorem scan_rows_entry {o : Outside} (LorR : Bool) {n : ℕ} {s : Scan} (hn : s.segment_n = 10)
    (hf : s.begin_flag = true) : scan_rows o LorR (n + 1) s = .error (.entry 10) := by
  have hentry : entry s.target_segment s.segment_n = .error (.entry 10) := by
    rw [hn]
    rfl
  rw [scan_rows, scan_row, hf, if_pos rfl, scan_begin, hentry]
  rfl

/-- Below row 69 the checked scan is the scan, up to the eleventh segment. -/
theorem scan_rows_eq {o : Outside} (LorR : Bool) : ∀ (n : ℕ) (s : Scan), n ≤ 68 →
    s.segment_n ≤ 9 → scan_rows o LorR n s =
      if ((band LorR).rows n s).segment_n ≤ 9 then .ok ((band LorR).rows n s)
      else .error (.entry 10)
  | 0, s, _, hn => (if_pos hn).symm
  | n + 1, s, hrow, hn => by
    have hpass : scan_row o LorR ((n + 1 : ℕ) : ℤ) s = .ok ((band LorR).row ((n + 1 : ℕ) : ℤ) s) :=
      scan_row_eq LorR (by omega) (by omega) hn
        (Or.inl (o.allows_of_rows (by omega) (by omega)))
    show scan_rows o LorR (n + 1) s =
      if ((band LorR).rows n ((band LorR).row ((n + 1 : ℕ) : ℤ) s)).segment_n ≤ 9 then _ else _
    rw [scan_rows, hpass, ok_bind]
    by_cases hlt : ((band LorR).row ((n + 1 : ℕ) : ℤ) s).segment_n ≤ 9
    · exact scan_rows_eq LorR n _ (by omega) hlt
    · -- the pass closed a tenth segment, so a further row exists and opens the eleventh
      have hmono := (band LorR).le_rows_segment_n n ((band LorR).row ((n + 1 : ℕ) : ℤ) s)
      rw [if_neg (by omega)]
      have hbegin : (if s.begin_flag then (band LorR).begin ((n + 1 : ℕ) : ℤ) s else s).segment_n
          = s.segment_n := by
        split <;> rfl
      rcases (band LorR).finish_cases ((n + 1 : ℕ) : ℤ)
        (if s.begin_flag then (band LorR).begin ((n + 1 : ℕ) : ℤ) s else s) with
        ⟨hsame, -⟩ | ⟨hi, hsucc, hflag⟩
      · unfold Band.row at hlt
        omega
      · obtain ⟨m, rfl⟩ := Nat.exists_eq_succ_of_ne_zero (show n ≠ 0 by omega)
        refine scan_rows_entry LorR ?_ hflag
        unfold Band.row at hlt ⊢
        omega

/-- Row 70 is wanted in the first pass exactly when `ReadsOutside` says so. -/
theorem copiesUp_start_iff (B : Band) (b : Broder) :
    B.CopiesUp 69 (B.begin 69 (scan_start b)) ↔ B.ReadsOutside b := by
  unfold Band.CopiesUp Band.ReadsOutside
  cases hl : B.opensLose b 69 with
  | true => simp [Band.begin, scan_start, hl]
  | false => simp [Band.begin, scan_start, hl]

/-- **The bridge**: the checked scan computes `Band.scan`, unless it opens more than ten segments
    or wants row 70. -/
theorem row_scan_eq {o : Outside} {LorR : Bool} {b : Broder}
    (h : o = .reads ∨ ¬ (band LorR).ReadsOutside b) :
    row_scan o LorR b =
      if ((band LorR).scan b).segment_n ≤ 9 then .ok ((band LorR).scan b)
      else .error (.entry 10) := by
  have hup : o.Allows (69 + 1) ∨ ¬ (band LorR).CopiesUp 69
      (if (scan_start b).begin_flag then (band LorR).begin 69 (scan_start b) else scan_start b) := by
    rcases h with rfl | h
    · exact Or.inl (Outside.reads_allows _)
    · exact Or.inr (fun hc => h ((copiesUp_start_iff _ b).mp hc))
  have hpass := scan_row_eq (o := o) LorR (s := scan_start b) (by omega) (le_refl 69)
    (Nat.zero_le 9) hup
  have hle : ((band LorR).row 69 (scan_start b)).segment_n ≤ 9 := by
    unfold Band.row
    rw [show (scan_start b).begin_flag = true from rfl, if_pos rfl]
    rcases (band LorR).finish_cases 69 ((band LorR).begin 69 (scan_start b)) with
      ⟨h, -⟩ | ⟨-, h, -⟩ <;> rw [h, Band.begin_segment_n] <;> simp [scan_start]
  show (scan_row o LorR 69 (scan_start b) >>= fun s => scan_rows o LorR 68 s) = _
  rw [hpass, ok_bind]
  exact scan_rows_eq LorR 68 _ (le_refl 68) hle

/-- Where rows outside the array trap, the scan stops at row 70 as soon as it wants it. -/
theorem row_scan_outside {LorR : Bool} {b : Broder} (h : (band LorR).ReadsOutside b) :
    row_scan .traps LorR b = .error (.row 70) := by
  obtain ⟨ht, -, hnull, hedge⟩ := (copiesUp_start_iff (band LorR) b).mpr h
  have hrow : rd .traps ((band LorR).begin 69 (scan_start b)).broder (69 + 1)
      = .error (.row 70) := rfl
  have hend : scan_end .traps LorR 69 ((band LorR).begin 69 (scan_start b)) = .error (.row 70) := by
    unfold scan_end
    rw [entry_of_le (by rw [Band.begin_segment_n]; exact Nat.zero_le 9), ok_bind,
      if_neg (by rw [ht]; decide), if_pos ht,
      if_pos (by omega), ends_null_eq LorR (by omega) (le_refl 69), ok_bind, hnull,
      if_neg Bool.false_ne_true,
      rd_of_allows (Outside.traps.allows_of_rows (by omega) (le_refl 69)), ok_bind,
      if_pos ((edge_iff LorR _).mpr hedge), hrow, error_bind]
  show (scan_row .traps LorR 69 (scan_start b) >>= fun s => scan_rows .traps LorR 68 s) = _
  rw [scan_row, show (scan_start b).begin_flag = true from rfl, if_pos rfl,
    scan_begin_eq LorR (le_refl 69) (Nat.zero_le 9), ok_bind]
  dsimp only
  rw [hend, error_bind]

end Car2025
