/-
  The table `Vision_GetSegment` leaves: a partition of the rows, and when it stays in bounds.

  1. **The cuts** of a border are at least four rows apart (`Spaced`): four rows away from the edge
     and three rows at the edge have no row in common.

  2. **The merge** of a short first segment drops the first cut and starts with the other label:
     the merged table is `tableOf` of the shorter list (`merge_first_eq`).  It moves entry `i + 1`
     to entry `i` up to one past the last segment, so ten segments are one too many for it.

  3. **The classification** changes types only (`Judged`).

  4. **Result (`Vision_GetSegment_eq`, `Vision_GetSegment_overflow`)** — the function reports the
     segments between the final cuts, unless there are too many of them for the table.
-/
import Mathlib
import Car2025.Lib.Fill
import Car2025.Vision.Segment.Scan

namespace Car2025

open segment_type Hysteresis

/-! ## Gaps between cuts -/

/-- Cuts as the scan makes them: at least four rows apart, and none in the last two rows.  All that
    is said of the reported table, its rows and their lengths, follows from this. -/
structure Spaced (cs : List ℕ) : Prop where
  gap : cs.Pairwise (fun c d => d + 4 ≤ c)
  low : ∀ c ∈ cs, 2 ≤ c
  high : ∀ c ∈ cs, c ≤ 69

namespace Band

variable (B : Band) (b : Broder)

theorem two_le_of_hit {l : Bool} {c : ℕ} (h : B.hit b l c = true) : 2 ≤ c := by
  cases l with
  | true =>
    rw [hit, Bool.and_eq_true, decide_eq_true_iff] at h
    omega
  | false =>
    rw [hit, Bool.and_eq_true, decide_eq_true_iff] at h
    exact h.1

/-- **Gaps**: the next segment is at least four rows long.  A lost one skips three rows after the
    cut; and one that is not lost begins with four rows away from the edge, where no row can end
    it. -/
theorem hit_gap (l : Bool) (c j : ℕ) (hc : B.hit b l c = true) (hj : B.hit b (!l) j = true)
    (hlt : j + hold l < c) : j + 4 ≤ c := by
  cases l with
  | false =>
    have hhold : hold false = 3 := rfl
    omega
  | true =>
    -- row `j` is at the edge, the four rows below `c` are not
    by_contra hle
    have hfar := B.near_of_endsLose b hc (r := (j : ℤ)) (by omega)
      (by have : hold true = 0 := rfl; omega)
    rw [B.near_of_endsNull b hj (by omega) (le_refl _)] at hfar
    exact absurd hfar (by decide)

theorem cuts_spaced : Spaced (B.cuts b) where
  gap := pairwise_cuts (B.hit_gap b) _ rfl
  low c hc := by
    obtain ⟨k, hk, rfl⟩ := List.getElem_of_mem hc
    exact B.two_le_of_hit b (hit_getElem_cuts _ rfl k hk).2.2
  high c hc := by
    obtain ⟨k, hk, rfl⟩ := List.getElem_of_mem hc
    have := (hit_getElem_cuts (B.cuts b) rfl k hk).2.1
    omega

end Band

/-! ## The rows of a spaced table -/

/-- Cuts that leave the first segment at least three rows, too.  The scan alone does not see to
    that, as the first segment may end at once; the merge does. -/
structure SpacedBelow (cs : List ℕ) : Prop extends Spaced cs where
  first : ∀ c ∈ cs, c ≤ 65

theorem beginOf_zero (cs : List ℕ) : beginOf cs 0 = 69 := rfl

theorem beginOf_succ {cs : List ℕ} {k : ℕ} (h : k < cs.length) : beginOf cs (k + 1) = cs[k] := by
  rw [beginOf, List.getD_eq_getElem _ _ h]

theorem endOf_of_lt {cs : List ℕ} {k : ℕ} (h : k < cs.length) : endOf cs k = cs[k] + 1 := by
  rw [endOf, if_pos h, List.getD_eq_getElem _ _ h]

/-- The next segment begins below the last one's end. -/
theorem beginOf_succ_eq {cs : List ℕ} {k : ℕ} (h : k < cs.length) :
    beginOf cs (k + 1) = endOf cs k - 1 := by
  rw [beginOf_succ h, endOf_of_lt h]
  omega

namespace Spaced

variable {cs : List ℕ}

theorem getElem_gap (h : Spaced cs) {k : ℕ} (hk : k + 1 < cs.length) :
    cs[k + 1] + 4 ≤ cs[k] :=
  List.pairwise_iff_getElem.mp h.gap k (k + 1) (by omega) hk (by omega)

theorem getElem_low (h : Spaced cs) {k : ℕ} (hk : k < cs.length) : 2 ≤ cs[k] :=
  h.low _ (List.getElem_mem hk)

theorem getElem_high (h : Spaced cs) {k : ℕ} (hk : k < cs.length) : cs[k] ≤ 69 :=
  h.high _ (List.getElem_mem hk)

theorem tail {c : ℕ} (h : Spaced (c :: cs)) : SpacedBelow cs where
  gap := (List.pairwise_cons.mp h.gap).2
  low d hd := h.low d (List.mem_cons_of_mem c hd)
  high d hd := h.high d (List.mem_cons_of_mem c hd)
  first d hd := by
    have h1 := (List.pairwise_cons.mp h.gap).1 d hd
    have h2 := h.high c List.mem_cons_self
    omega

theorem endOf_nonneg (k : ℕ) : 0 ≤ endOf cs k := by
  rcases Nat.lt_or_ge k cs.length with hk | hk
  · rw [endOf_of_lt hk]
    omega
  · rw [endOf_of_le hk]

theorem beginOf_le (h : Spaced cs) {k : ℕ} (hk : k ≤ cs.length) : beginOf cs k ≤ 69 := by
  cases k with
  | zero => exact le_refl _
  | succ k =>
    rw [beginOf_succ hk]
    exact_mod_cast h.getElem_high hk

/-- **Length** of a segment after the first: three rows at least, by the gap to the next cut, and
    the last one as no cut lies below row 2. -/
theorem long (h : Spaced cs) {k : ℕ} (hk : k < cs.length) :
    endOf cs (k + 1) + 2 ≤ beginOf cs (k + 1) := by
  rw [beginOf_succ hk]
  rcases Nat.lt_or_ge (k + 1) cs.length with hk' | hk'
  · rw [endOf_of_lt hk']
    have := h.getElem_gap hk'
    omega
  · rw [endOf_of_le hk']
    have := h.getElem_low hk
    omega

end Spaced

/-- **Length** of any segment, the first one included.  So every segment has two different rows for
    a chord, and three for the search for a corner. -/
theorem SpacedBelow.long {cs : List ℕ} (h : SpacedBelow cs) {k : ℕ} (hk : k ≤ cs.length) :
    endOf cs k + 2 ≤ beginOf cs k := by
  cases k with
  | succ k => exact h.toSpaced.long hk
  | zero =>
    rw [beginOf]
    cases cs with
    | nil => decide
    | cons c cs =>
      have := h.first c List.mem_cons_self
      rw [endOf_of_lt (Nat.succ_pos _), List.getElem_cons_zero]
      omega

/-! ## The merge -/

/-- `n` rows from row `i` down take the value of row `src`, which lies below them. -/
theorem fill_rows_eq {o : Outside} {src : ℤ} (h0 : 0 ≤ src) : ∀ (n : ℕ) (i : ℤ) (b : Broder),
    i ≤ 69 → src + n ≤ i → fill_rows o src n i b =
      .ok (fun r => if i - n < r ∧ r ≤ i then b src else b r)
  | 0, i, b, _, _ => by
    rw [fill_rows, pure_ok]
    exact congrArg Except.ok (Fill.down_zero _ b i).symm
  | n + 1, i, b, hi, hsrc => by
    rw [fill_rows, rd_of_allows (o.allows_of_rows h0 (by omega)), ok_bind,
      wr_of_allows (o.allows_of_rows (by omega) hi), ok_bind,
      fill_rows_eq h0 n (i - 1) _ (by omega) (by push_cast at hsrc; omega),
      Function.update_of_ne (by omega)]
    exact congrArg Except.ok (Fill.down_succ (fun _ => b src) b i n)

/-- The entries `i, …, i + n - 1` take the place, and keep the `position`, of their successors. -/
theorem shift_entries_eq : ∀ (n i : ℕ) (t : Segments), i + n ≤ 9 → shift_entries n i t =
    .ok (fun k => if i ≤ k ∧ k < i + n then
      { t k with begin := (t (k + 1)).begin, «end» := (t (k + 1)).end, type := (t (k + 1)).type }
      else t k)
  | 0, i, t, _ => by
    rw [shift_entries, pure_ok]
    congr 1
    funext k
    rw [if_neg (by omega)]
  | n + 1, i, t, h => by
    rw [shift_entries, entry_of_le (by omega), ok_bind, entry_of_le (by omega), ok_bind,
      setEntry_of_le (by omega), ok_bind, shift_entries_eq n (i + 1) _ (by omega)]
    congr 1
    funext k
    rcases Nat.lt_trichotomy k i with hlt | rfl | hgt
    · rw [if_neg (by omega), if_neg (by omega), Function.update_of_ne (by omega)]
    · rw [if_neg (by omega), if_pos (by omega), Function.update_self]
    · rw [Function.update_of_ne (by omega), Function.update_of_ne (by omega)]
      split_ifs <;> first | rfl | omega

/-- Past the ninth entry the shift reads an entry that does not exist. -/
theorem shift_entries_entry : ∀ (n i : ℕ) (t : Segments), i + (n + 1) = 10 →
    shift_entries (n + 1) i t = .error (.entry 10)
  | 0, i, t, h => by
    have hi : i = 9 := by omega
    subst hi
    rfl
  | n + 1, i, t, h => by
    rw [shift_entries, entry_of_le (by omega), ok_bind, entry_of_le (by omega), ok_bind,
      setEntry_of_le (by omega), ok_bind, shift_entries_entry n (i + 1) _ (by omega)]

/-- The first segment is short enough to be merged: it ends above row 63. -/
def shortFirst : List ℕ → Bool
  | [] => false
  | c :: _ => 63 ≤ c

theorem shortFirst_cons (c : ℕ) (cs : List ℕ) : shortFirst (c :: cs) = decide (63 ≤ c) := rfl

/-- The cuts after the merge. -/
def mergedCuts (cs : List ℕ) : List ℕ := if shortFirst cs then cs.tail else cs

/-- The label of the first segment after the merge. -/
def mergedLabel (l : Bool) (cs : List ℕ) : Bool := if shortFirst cs then !l else l

/-- The border after the merge. -/
def mergedBroder (cs : List ℕ) (b : Broder) : Broder :=
  if shortFirst cs then fun r => if endOf cs 0 ≤ r ∧ r ≤ 69 then b (endOf cs 1) else b r else b

theorem Spaced.mergedCuts {cs : List ℕ} (h : Spaced cs) : SpacedBelow (mergedCuts cs) := by
  unfold Car2025.mergedCuts
  cases cs with
  | nil => exact ⟨h, fun c hc => by cases hc⟩
  | cons c cs =>
    by_cases hc : 63 ≤ c
    · rw [shortFirst_cons, if_pos (decide_eq_true hc)]
      exact h.tail
    · rw [shortFirst_cons, if_neg (by rw [decide_eq_true_iff]; exact hc)]
      refine ⟨h, fun d hd => ?_⟩
      rcases List.mem_cons.mp hd with rfl | hd
      · omega
      · exact h.tail.first d hd

theorem endOf_cons_succ (c : ℕ) (cs : List ℕ) (k : ℕ) :
    endOf (c :: cs) (k + 1) = endOf cs k := by
  unfold endOf
  rw [List.length_cons, List.getD_cons_succ]
  split_ifs <;> first | rfl | omega

/-- The table of the tail is the table, one entry further. -/
theorem tableOf_tail (l : Bool) {c : ℕ} (cs : List ℕ) (hc : c ≠ 2) (k : ℕ) :
    tableOf (!l) cs k =
      if k = 0 then { tableOf l (c :: cs) 1 with begin := 69 } else tableOf l (c :: cs) (k + 1) := by
  cases k with
  | zero =>
    rw [if_pos rfl, tableOf_of_le (Nat.zero_le _), tableOf_of_le (by simp), endOf_cons_succ, typeOf,
      typeOf,
      labelOf_not, beginOf, beginOf, List.getD_cons_zero]
    have hc' : (c : ℤ) ≠ 2 := by exact_mod_cast hc
    simp [hc']
  | succ k =>
    rw [if_neg (Nat.succ_ne_zero k)]
    rcases Nat.lt_or_ge cs.length (k + 1) with hlt | hle
    · rw [tableOf_of_lt hlt, tableOf_of_lt (by simpa using hlt)]
    · rw [tableOf_of_le hle, tableOf_of_le (by simpa using hle), endOf_cons_succ, typeOf, typeOf,
        labelOf_not]
      rfl

theorem tableOf_position (l : Bool) (cs : List ℕ) (k : ℕ) : (tableOf l cs k).position = NEAR := by
  unfold tableOf
  split <;> rfl

/-- **The merge**: one cut less and the other label, or nothing; with ten segments it is stopped
    by the table's end. -/
theorem merge_first_eq {o : Outside} {s : Scan} {l : Bool} {cs : List ℕ} (hcs : Spaced cs)
    (hn : s.segment_n = cs.length) (ht : s.target_segment = tableOf l cs) (h9 : cs.length ≤ 9) :
    merge_first o s =
      if shortFirst cs = true ∧ cs.length = 9 then .error (.entry 10)
      else .ok ⟨mergedBroder cs s.broder, tableOf (mergedLabel l cs) (mergedCuts cs),
        ((mergedCuts cs).length : ℤ)⟩ := by
  unfold merge_first
  rw [ht, hn, entry_of_le (Nat.zero_le 9), ok_bind, tableOf_of_le (Nat.zero_le _)]
  dsimp only
  cases cs with
  | nil =>
    rw [if_neg (by simp [beginOf, endOf]), if_neg (by simp [shortFirst])]
    rfl
  | cons c cs =>
    have hend0 : endOf (c :: cs) 0 = c + 1 := endOf_of_lt (Nat.succ_pos _)
    have hc : c ≤ 69 := hcs.high c List.mem_cons_self
    -- the first segment is merged if it has six rows at most
    by_cases h63 : 63 ≤ c
    · have hshort : shortFirst (c :: cs) = true := decide_eq_true h63
      have hlong : endOf (c :: cs) 1 + 2 ≤ c := hcs.long (Nat.succ_pos _)
      have hnonneg : 0 ≤ endOf (c :: cs) 1 := Spaced.endOf_nonneg 1
      rw [if_pos (by rw [hend0]; show (69 : ℤ) - _ ≤ 5; omega), entry_of_le (by omega), ok_bind,
        tableOf_of_le (by simp)]
      dsimp only
      rw [hend0, beginOf_zero, fill_rows_eq hnonneg _ _ _ (le_refl 69) (by omega), ok_bind,
        setEntry_of_le (Nat.zero_le 9), ok_bind]
      -- with ten segments the shift of the entries reads entry 10
      by_cases h10 : (c :: cs).length = 9
      · rw [if_pos ⟨hshort, h10⟩, h10, shift_entries_entry 8 1 _ rfl, error_bind]
      · rw [if_neg (fun h => h10 h.2), shift_entries_eq _ _ _ (by omega), ok_bind, pure_ok]
        congr 1
        unfold mergedBroder mergedLabel mergedCuts
        rw [if_pos hshort, if_pos hshort, if_pos hshort, List.tail_cons, hend0]
        congr 1
        · funext r
          split_ifs <;> first | rfl | omega
        · funext k
          -- entry `k` takes the rows of entry `k + 1`; the first one begins at row 69 now
          rw [tableOf_tail l cs (show c ≠ 2 by omega)]
          rcases Nat.eq_zero_or_pos k with rfl | hk
          · rw [if_pos rfl, if_neg (by omega), Function.update_self, tableOf_of_le (k := 1) (by simp)]
          · have hk0 : k ≠ 0 := by omega
            rw [if_neg hk0, Function.update_of_ne hk0, Function.update_of_ne (Nat.succ_ne_zero k)]
            dsimp only
            rw [tableOf_position]
            by_cases hlen : k < 1 + (c :: cs).length
            · rw [if_pos ⟨hk, hlen⟩, ← tableOf_position l (c :: cs) (k + 1)]
            · rw [if_neg (fun h => hlen h.2), tableOf_of_lt (by omega), tableOf_of_lt (by omega)]
        · simp
    · have hshort : shortFirst (c :: cs) = false := decide_eq_false h63
      rw [if_neg (by rw [hend0]; show ¬ (69 : ℤ) - _ ≤ 5; omega),
        if_neg (by rw [hshort]; exact fun h => Bool.false_ne_true h.1)]
      unfold mergedBroder mergedLabel mergedCuts
      rw [hshort]
      rfl

/-! ## The classification -/

/-- A type that the classification gives. -/
def IsJudged (type : segment_type) : Prop :=
  type = straight_segment ∨ type = corner_segment ∨ type = arc_segment

theorem IsJudged.ne_NULL {type : segment_type} (h : IsJudged type) : type ≠ NULL_segment := by
  rcases h with rfl | rfl | rfl <;> decide

theorem IsJudged.ne_lose {type : segment_type} (h : IsJudged type) : type ≠ lose_segment := by
  rcases h with rfl | rfl | rfl <;> decide

/-- Of the entries `i, …, i + n - 1` those of type `NULL_segment` got a type; nothing else changed.
    What the table says of the rows outlives the classification. -/
structure Judged (t t' : Segments) (i n : ℕ) : Prop where
  begin : ∀ k, (t' k).begin = (t k).begin
  «end» : ∀ k, (t' k).end = (t k).end
  position : ∀ k, (t' k).position = (t k).position
  judged : ∀ k, i ≤ k → k < i + n → (t k).type = NULL_segment → IsJudged (t' k).type
  kept : ∀ k, (k < i ∨ i + n ≤ k ∨ (t k).type ≠ NULL_segment) → (t' k).type = (t k).type

theorem Judged.refl (t : Segments) (i : ℕ) : Judged t t i 0 :=
  ⟨fun _ => rfl, fun _ => rfl, fun _ => rfl, fun _ h1 h2 => absurd h1 (by omega), fun _ _ => rfl⟩

section

variable {R : Type} [CFloat R] {o : Outside} {broder : Broder}

/-- A segment of at least two rows is classified. -/
theorem classify_segment_ok (junk : Uninit) {seg : segment_t} (hlt : seg.end < seg.begin)
    (h0 : 0 ≤ seg.end) (h69 : seg.begin ≤ 69) :
    ∃ type, classify_segment R o junk broder seg = .ok type ∧ IsJudged type := by
  obtain ⟨straight, hs⟩ : ∃ v, Line_IsStraight R o broder seg.begin seg.end = .ok v :=
    Line_IsStraight_ok (by omega) (by omega) h69 h0 (by omega)
  obtain ⟨mono, hm⟩ : ∃ v, Line_IsMonotonous o junk broder seg.begin seg.end = .ok v :=
    Line_IsMonotonous_ok junk (by omega) h69 h0 (by omega)
  unfold classify_segment
  rw [hs, ok_bind]
  cases straight with
  | true => exact ⟨_, rfl, Or.inl rfl⟩
  | false =>
    rw [if_neg Bool.false_ne_true, hm, ok_bind]
    cases mono with
    | true => exact ⟨_, rfl, Or.inr (Or.inl rfl)⟩
    | false => exact ⟨_, rfl, Or.inr (Or.inr rfl)⟩

/-- **The classification returns**, and changes types only: each segment has at least two rows, all
    of them in the image, which is all that the two tests of a line need. -/
theorem classify_ok (junk : ℕ → Uninit) : ∀ (n i : ℕ) (t : Segments), i + n ≤ 10 →
    (∀ k, i ≤ k → k < i + n → (t k).end < (t k).begin ∧ 0 ≤ (t k).end ∧ (t k).begin ≤ 69) →
    ∃ t', classify R o junk broder n i t = .ok t' ∧ Judged t t' i n
  | 0, i, t, _, _ => ⟨t, rfl, Judged.refl t i⟩
  | n + 1, i, t, hi, hrows => by
    rw [classify, entry_of_le (by omega), ok_bind]
    by_cases hnull : (t i).type = NULL_segment
    · obtain ⟨h1, h2, h3⟩ := hrows i (le_refl i) (by omega)
      obtain ⟨type, htype, hjudged⟩ :
          ∃ type, classify_segment R o (junk i) broder (t i) = .ok type ∧ IsJudged type :=
        classify_segment_ok (junk i) h1 h2 h3
      have hrows' : ∀ k, i + 1 ≤ k → k < i + 1 + n →
          (Function.update t i { t i with type } k).end <
            (Function.update t i { t i with type } k).begin ∧
          0 ≤ (Function.update t i { t i with type } k).end ∧
          (Function.update t i { t i with type } k).begin ≤ 69 := by
        intro k h1 h2
        rw [Function.update_of_ne (by omega)]
        exact hrows k (by omega) (by omega)
      obtain ⟨t', ht', hj⟩ := classify_ok junk n (i + 1) _ (by omega) hrows'
      refine ⟨t', ?_, ?_⟩
      · rw [if_pos hnull, htype, ok_bind, setEntry_of_le (by omega), ok_bind, ht']
      -- entry `i` was set before the rest, which leaves it alone
      have hself : ∀ k, (Function.update t i { t i with type } k).begin = (t k).begin ∧
          (Function.update t i { t i with type } k).end = (t k).end ∧
          (Function.update t i { t i with type } k).position = (t k).position := by
        intro k
        rw [Function.update_apply]
        split_ifs with hk
        · subst hk
          exact ⟨rfl, rfl, rfl⟩
        · exact ⟨rfl, rfl, rfl⟩
      refine ⟨fun k => (hj.begin k).trans (hself k).1, fun k => (hj.end k).trans (hself k).2.1,
        fun k => (hj.position k).trans (hself k).2.2, fun k h1 h2 hk => ?_, fun k hk => ?_⟩
      · rcases Nat.eq_or_lt_of_le h1 with rfl | hlt
        · rw [hj.kept i (Or.inl (Nat.lt_succ_self i)), Function.update_self]
          exact hjudged
        · apply hj.judged k hlt (by omega)
          rw [Function.update_of_ne (by omega)]
          exact hk
      · have hki : k ≠ i := by
          rintro rfl
          rcases hk with h | h | h
          · omega
          · omega
          · exact h hnull
        rw [hj.kept k, Function.update_of_ne hki]
        rw [Function.update_of_ne hki]
        rcases hk with h | h | h
        · exact Or.inl (by omega)
        · exact Or.inr (Or.inl (by omega))
        · exact Or.inr (Or.inr h)
    · obtain ⟨t', ht', hj⟩ := classify_ok junk n (i + 1) t (by omega)
        (fun k h1 h2 => hrows k (by omega) (by omega))
      refine ⟨t', by rw [if_neg hnull, ht'], hj.begin, hj.end, hj.position,
        fun k h1 h2 hk => ?_, fun k hk => hj.kept k ?_⟩
      · have hki : k ≠ i := by
          rintro rfl
          exact hnull hk
        exact hj.judged k (by omega) (by omega) hk
      · rcases hk with h | h | h
        · exact Or.inl (by omega)
        · exact Or.inr (Or.inl (by omega))
        · exact Or.inr (Or.inr h)

end

/-! ## The whole function -/

/-- The scan and the merge of `Vision_GetSegment`. -/
def scan_merge (o : Outside) (LorR : Bool) (broder : Broder) : Except Stop Merged := do
  merge_first o (← row_scan o LorR broder)

/-- `Vision_GetSegment` is the scan, the merge and the classification. -/
theorem Vision_GetSegment_split (R : Type) [CFloat R] (o : Outside) (junk : ℕ → Uninit)
    (LorR : Bool) (broder : Broder) (S : FeatureSide) :
    Vision_GetSegment R o junk LorR broder S = (do
      let m ← scan_merge o LorR broder
      let t ← classify R o junk m.broder (m.segment_n + 1).toNat 0 m.target_segment
      pure (m.broder, { S with my_segment := t, segment_n := m.segment_n + 1 })) := by
  unfold Vision_GetSegment scan_merge
  cases row_scan o LorR broder <;> rfl

namespace Band

variable (B : Band) (b : Broder)

/-- The cuts between the segments that are reported. -/
def finalCuts : List ℕ := mergedCuts (B.cuts b)

/-- The label of the first segment that is reported. -/
def finalLabel : Bool := mergedLabel (B.startsLost b) (B.cuts b)

/-- The border that is left. -/
def finalBroder : Broder := mergedBroder (B.cuts b) (B.scan b).broder

/-- More entries are wanted than the table has. -/
def Overflows : Prop := 10 ≤ (B.cuts b).length ∨ 9 = (B.cuts b).length ∧ shortFirst (B.cuts b) = true

instance : Decidable (B.Overflows b) := inferInstanceAs (Decidable (_ ∨ _))

theorem finalCuts_spaced : SpacedBelow (B.finalCuts b) := (B.cuts_spaced b).mergedCuts

theorem finalCuts_length_le : (B.finalCuts b).length ≤ (B.cuts b).length := by
  unfold finalCuts mergedCuts
  split
  · rw [List.length_tail]
    omega
  · exact le_refl _

end Band

section

variable {o : Outside} {LorR : Bool} {b : Broder}

theorem scan_merge_ok (ho : o = .reads ∨ ¬ (band LorR).ReadsOutside b)
    (hb : ¬ (band LorR).Overflows b) :
    scan_merge o LorR b = .ok ⟨(band LorR).finalBroder b,
      tableOf ((band LorR).finalLabel b) ((band LorR).finalCuts b),
      (((band LorR).finalCuts b).length : ℤ)⟩ := by
  unfold Band.Overflows at hb
  unfold scan_merge
  rw [row_scan_eq ho, Band.scan_segment_n, if_pos (by omega), ok_bind,
    merge_first_eq ((band LorR).cuts_spaced b) (by simp) ((band LorR).scan_table b) (by omega),
    if_neg (fun h => hb (Or.inr ⟨h.2.symm, h.1⟩))]
  rfl

/-- Otherwise an eleventh entry is wanted. -/
theorem scan_merge_overflow (ho : o = .reads ∨ ¬ (band LorR).ReadsOutside b)
    (hb : (band LorR).Overflows b) : scan_merge o LorR b = .error (.entry 10) := by
  unfold scan_merge
  rw [row_scan_eq ho, Band.scan_segment_n]
  rcases hb with h10 | ⟨h9, hshort⟩
  · rw [if_neg (by omega), error_bind]
  · rw [if_pos (by omega), ok_bind,
      merge_first_eq ((band LorR).cuts_spaced b) (by simp) ((band LorR).scan_table b) (by omega),
      if_pos ⟨hshort, h9.symm⟩]

variable (R : Type) [CFloat R]

/-- **What `Vision_GetSegment` computes**: the segments between the final cuts, with the types of
    the scan where they are lost. -/
theorem Vision_GetSegment_eq (ho : o = .reads ∨ ¬ (band LorR).ReadsOutside b)
    (hb : ¬ (band LorR).Overflows b) (junk : ℕ → Uninit) (S : FeatureSide) :
    ∃ t, Vision_GetSegment R o junk LorR b S = .ok ((band LorR).finalBroder b,
        { S with my_segment := t, segment_n := ((band LorR).finalCuts b).length + 1 }) ∧
      Judged (tableOf ((band LorR).finalLabel b) ((band LorR).finalCuts b)) t 0
        (((band LorR).finalCuts b).length + 1) := by
  have hspaced := (band LorR).finalCuts_spaced b
  have hlen := (band LorR).finalCuts_length_le b
  have h9 : ((band LorR).finalCuts b).length ≤ 9 := by
    unfold Band.Overflows at hb
    omega
  -- Every entry lies on rows of the image, so the classification cannot fail.
  have hrows : ∀ k, 0 ≤ k → k < 0 + (((band LorR).finalCuts b).length + 1) →
      (tableOf ((band LorR).finalLabel b) ((band LorR).finalCuts b) k).end <
        (tableOf ((band LorR).finalLabel b) ((band LorR).finalCuts b) k).begin ∧
      0 ≤ (tableOf ((band LorR).finalLabel b) ((band LorR).finalCuts b) k).end ∧
      (tableOf ((band LorR).finalLabel b) ((band LorR).finalCuts b) k).begin ≤ 69 := by
    intro k _ hk
    have hk' : k ≤ ((band LorR).finalCuts b).length := by omega
    rw [tableOf_of_le hk']
    have hlong := hspaced.long hk'
    exact ⟨by dsimp only; omega, Spaced.endOf_nonneg k, hspaced.beginOf_le hk'⟩
  obtain ⟨t, ht, hj⟩ : ∃ t, classify R o junk ((band LorR).finalBroder b)
      (((band LorR).finalCuts b).length + 1) 0 _ = .ok t ∧ Judged _ t 0 _ :=
    classify_ok junk _ 0 _ (by omega) hrows
  refine ⟨t, ?_, hj⟩
  rw [Vision_GetSegment_split, scan_merge_ok ho hb, ok_bind]
  dsimp only
  have hnat : (((band LorR).finalCuts b).length + 1 : ℤ).toNat =
      ((band LorR).finalCuts b).length + 1 := by omega
  rw [hnat, ht, ok_bind, pure_ok]

theorem Vision_GetSegment_overflow (ho : o = .reads ∨ ¬ (band LorR).ReadsOutside b)
    (hb : (band LorR).Overflows b) (junk : ℕ → Uninit) (S : FeatureSide) :
    Vision_GetSegment R o junk LorR b S = .error (.entry 10) := by
  rw [Vision_GetSegment_split, scan_merge_overflow ho hb, error_bind]

end

/-! ## At most nine segments -/

/-- The scan opens at most nine segments. -/
def AtMostNine (LorR : Bool) (b : Broder) : Prop :=
  ∃ s, row_scan .reads LorR b = .ok s ∧ s.segment_n + 1 ≤ 9

/-- Nine segments are eight cuts. -/
theorem atMostNine_iff {LorR : Bool} {b : Broder} :
    AtMostNine LorR b ↔ ((band LorR).cuts b).length ≤ 8 := by
  unfold AtMostNine
  rw [row_scan_eq (Or.inl rfl), Band.scan_segment_n]
  constructor
  · rintro ⟨s, hs, h9⟩
    by_cases hle : ((band LorR).cuts b).length ≤ 9
    · rw [if_pos hle, Except.ok.injEq] at hs
      rw [← hs, Band.scan_segment_n] at h9
      omega
    · rw [if_neg hle] at hs
      exact absurd hs (by simp)
  · intro h
    exact ⟨_, if_pos (by omega), by rw [Band.scan_segment_n]; omega⟩

instance (LorR : Bool) (b : Broder) : Decidable (AtMostNine LorR b) :=
  decidable_of_iff _ atMostNine_iff.symm

/-- The scan opens at most nine segments and reads rows `0 … 69` only. -/
def InBounds (LorR : Bool) (b : Broder) : Prop :=
  ∃ s, row_scan .traps LorR b = .ok s ∧ s.segment_n + 1 ≤ 9

theorem inBounds_iff {LorR : Bool} {b : Broder} :
    InBounds LorR b ↔ ¬ (band LorR).ReadsOutside b ∧ ((band LorR).cuts b).length ≤ 8 := by
  unfold InBounds
  by_cases hout : (band LorR).ReadsOutside b
  · rw [row_scan_outside hout]
    exact ⟨fun ⟨s, hs, _⟩ => absurd hs (by simp), fun h => absurd hout h.1⟩
  · rw [← atMostNine_iff]
    unfold AtMostNine
    rw [row_scan_eq (Or.inr hout), row_scan_eq (Or.inl rfl)]
    exact (and_iff_right hout).symm

instance (LorR : Bool) (b : Broder) : Decidable (InBounds LorR b) :=
  decidable_of_iff _ inBounds_iff.symm

/-- Nine segments fit, and leave room for the shift. -/
theorem AtMostNine.not_overflows {LorR : Bool} {b : Broder} (h : AtMostNine LorR b) :
    ¬ (band LorR).Overflows b := by
  rw [atMostNine_iff] at h
  unfold Band.Overflows
  omega

end Car2025
