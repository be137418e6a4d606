/-
  What the row scan computes, read off the ORIGINAL border.

  The scan rewrites the border it is still to read, so its tests seem to depend on what it wrote.
  They do not: the rows it writes ahead of itself are exactly the rows the next segment must take
  anyway.  On the border as it was before the scan, the ends of the segments are the cuts of a
  hysteresis (`Lib.Hysteresis`): a lost stretch ends at the first four rows away from the edge, at
  least four rows after it was entered, any other stretch ends at the first three rows at the edge.

  1. **Specification** — `Band.cuts b`, the rows where segments end, and `tableOf`, the table those
     rows describe: the first segment begins at row 69, each next one at a cut, the last one ends
     at row 0.

  2. **The invariant (`Running`)** — after row `i + 1` the scan has made the cuts above `i`, its
     table is the table of these cuts, and the rows still to be read are the original ones, but for
     the next `w` rows, which already hold the lose value.  `RowsRead` is its part about the rows
     already read: they agree with the label of their segment.

  3. **Result (`scan_running`)** — the scan of every border ends in that shape with all its cuts
     made.
-/
import Mathlib
import Car2025.Lib.Hysteresis
import Car2025.Vision.Segment.Band

namespace Car2025

open segment_type Hysteresis

namespace Band

variable (B : Band) (b : Broder)

/-! ## The cuts of a border -/

/-- The row ends the current stretch: `true` for a lost one. -/
def hit : Bool → ℕ → Bool
  | true, j => decide (3 ≤ j) && B.endsLose b j
  | false, j => decide (2 ≤ j) && B.endsNull b j

/-- Below a row that ends a lost segment, four rows away from the edge. -/
theorem near_of_endsLose {c : ℕ} (h : B.hit b true c = true) {r : ℤ} (h0 : (c : ℤ) - 3 ≤ r)
    (h1 : r ≤ c) : B.near (b r) = false := by
  rw [hit, Bool.and_eq_true] at h
  have hends := h.2
  unfold endsLose at hends
  simp only [Bool.and_eq_true, Bool.not_eq_true'] at hends
  obtain ⟨⟨⟨g0, g1⟩, g2⟩, g3⟩ := hends
  have hr : r = c ∨ r = (c : ℤ) - 1 ∨ r = (c : ℤ) - 2 ∨ r = (c : ℤ) - 3 := by omega
  rcases hr with rfl | rfl | rfl | rfl <;> assumption

/-- Below a row that ends a segment that is not lost, three rows at the edge. -/
theorem near_of_endsNull {c : ℕ} (h : B.hit b false c = true) {r : ℤ} (h0 : (c : ℤ) - 2 ≤ r)
    (h1 : r ≤ c) : B.near (b r) = true := by
  rw [hit, Bool.and_eq_true] at h
  have hends := h.2
  unfold endsNull at hends
  simp only [Bool.and_eq_true] at hends
  obtain ⟨⟨g0, g1⟩, g2⟩ := hends
  have hr : r = c ∨ r = (c : ℤ) - 1 ∨ r = (c : ℤ) - 2 := by omega
  rcases hr with rfl | rfl | rfl <;> assumption

/-- A lost stretch takes three more rows after the one it was entered at. -/
def hold (l : Bool) : ℕ := if l then 0 else 3

/-- The first segment is lost. -/
def startsLost : Bool := B.opensLose b 69

/-- Label and rows to skip at row 69. -/
def startState : Bool × ℕ := (B.startsLost b, if B.startsLost b then 3 else 0)

/-- The rows where a segment ends (its `end` is the row above). -/
def cuts : List ℕ := Hysteresis.cuts (B.hit b) hold (B.startState b).1 (B.startState b).2 69

/-- The label of the ORIGINAL border at row `i`, the rows above it read. -/
def labelAt (i : ℕ) : Bool × ℕ := track (B.hit b) hold (B.startState b) 69 (69 - i)

end Band

/-! ## The table of a list of cuts -/

/-- The row where segment `k` begins. -/
def beginOf (cs : List ℕ) : ℕ → ℤ
  | 0 => 69
  | k + 1 => (cs.getD k 0 : ℕ)

/-- The row where segment `k` ends. -/
def endOf (cs : List ℕ) (k : ℕ) : ℤ := if k < cs.length then (cs.getD k 0 : ℕ) + 1 else 0

/-- The type the scan gives to segment `k`: a lost stretch entered at row 2 is not recognised. -/
def typeOf (l : Bool) (cs : List ℕ) (k : ℕ) : segment_type :=
  if labelOf l k = true ∧ beginOf cs k ≠ 2 then lose_segment else NULL_segment

/-- The table of the scan. -/
def tableOf (l : Bool) (cs : List ℕ) (k : ℕ) : segment_t :=
  if k ≤ cs.length then ⟨beginOf cs k, endOf cs k, typeOf l cs k, NEAR⟩ else segment_t.cleared

theorem beginOf_append {cs : List ℕ} {c k : ℕ} (h : k ≤ cs.length) :
    beginOf (cs ++ [c]) k = beginOf cs k := by
  cases k with
  | zero => rfl
  | succ k => rw [beginOf, beginOf, List.getD_append _ _ _ _ h]

theorem beginOf_append_last (cs : List ℕ) (c : ℕ) : beginOf (cs ++ [c]) (cs.length + 1) = c := by
  rw [beginOf, List.getD_append_right _ _ _ _ (le_refl _), Nat.sub_self]
  rfl

theorem endOf_append {cs : List ℕ} {c k : ℕ} (h : k < cs.length) :
    endOf (cs ++ [c]) k = endOf cs k := by
  have h' : k < (cs ++ [c]).length := by
    rw [List.length_append]
    omega
  rw [endOf, endOf, if_pos h, if_pos h', List.getD_append _ _ _ _ h]

theorem endOf_append_length (cs : List ℕ) (c : ℕ) : endOf (cs ++ [c]) cs.length = c + 1 := by
  have h' : cs.length < (cs ++ [c]).length := by simp
  rw [endOf, if_pos h', List.getD_append_right _ _ _ _ (le_refl _), Nat.sub_self]
  rfl

theorem endOf_of_le {cs : List ℕ} {k : ℕ} (h : cs.length ≤ k) : endOf cs k = 0 := by
  rw [endOf, if_neg (by omega)]

theorem typeOf_append {l : Bool} {cs : List ℕ} {c k : ℕ} (h : k ≤ cs.length) :
    typeOf l (cs ++ [c]) k = typeOf l cs k := by
  rw [typeOf, typeOf, beginOf_append h]

theorem tableOf_of_le {l : Bool} {cs : List ℕ} {k : ℕ} (h : k ≤ cs.length) :
    tableOf l cs k = ⟨beginOf cs k, endOf cs k, typeOf l cs k, NEAR⟩ :=
  if_pos h

theorem tableOf_of_lt {l : Bool} {cs : List ℕ} {k : ℕ} (h : cs.length < k) :
    tableOf l cs k = segment_t.cleared :=
  if_neg (by omega)

/-- **A new cut** closes the last entry and opens one after it; nothing else changes.  So the table
    can be told from the cuts alone, without the scan that wrote it. -/
theorem tableOf_append (l : Bool) (cs : List ℕ) (c : ℕ) :
    tableOf l (cs ++ [c]) =
      Function.update
        (Function.update (tableOf l cs) cs.length
          { tableOf l cs cs.length with «end» := (c : ℤ) + 1 })
        (cs.length + 1)
        ⟨c, 0, if labelOf l (cs.length + 1) = true ∧ (c : ℤ) ≠ 2 then lose_segment else NULL_segment,
          NEAR⟩ := by
  have hlen : (cs ++ [c]).length = cs.length + 1 := by simp
  funext k
  rcases Nat.lt_trichotomy k cs.length with hlt | heq | hgt
  · rw [Function.update_of_ne (by omega), Function.update_of_ne (by omega),
      tableOf_of_le (by omega), tableOf_of_le (by omega), beginOf_append (by omega),
      endOf_append hlt, typeOf_append (by omega)]
  · subst heq
    rw [Function.update_of_ne (by omega), Function.update_self, tableOf_of_le (by omega),
      tableOf_of_le (le_refl _), beginOf_append (le_refl _), endOf_append_length,
      typeOf_append (le_refl _)]
  · rcases Nat.lt_or_ge (cs.length + 1) k with hgt' | hle
    · rw [Function.update_of_ne (by omega), Function.update_of_ne (by omega),
        tableOf_of_lt (by omega), tableOf_of_lt (by omega)]
    · have hk : k = cs.length + 1 := by omega
      subst hk
      rw [Function.update_self, tableOf_of_le (by omega), beginOf_append_last,
        endOf_of_le (by omega), typeOf, beginOf_append_last]

/-! ## One row at a time, with the next segment opened at once -/

namespace Band

variable (B : Band)

/-- Row `i + 1` is read, and if it closed a segment the next one is opened at row `i`. -/
def pass (i : ℕ) (s : Scan) : Scan :=
  let s1 := B.finish ((i + 1 : ℕ) : ℤ) s
  if s1.begin_flag then B.begin i s1 else s1

theorem pass_eq_finish {i : ℕ} {s s' : Scan} (h : B.finish ((i + 1 : ℕ) : ℤ) s = s')
    (hf : s'.begin_flag = false) : B.pass i s = s' := by
  unfold pass
  rw [h]
  dsimp only
  rw [hf, if_neg Bool.false_ne_true]

theorem pass_eq_begin {i : ℕ} {s s' : Scan} (h : B.finish ((i + 1 : ℕ) : ℤ) s = s')
    (hf : s'.begin_flag = true) : B.pass i s = B.begin i s' := by
  unfold pass
  rw [h]
  dsimp only
  rw [hf, if_pos rfl]

/-- With a segment open, the scan of the rows `i + 1, …, 1` is `pass` and the scan of the rest. -/
theorem rows_pass {i : ℕ} {s : Scan} (hi : 1 ≤ i) (hf : s.begin_flag = false) :
    B.rows (i + 1) s = B.rows i (B.pass i s) := by
  obtain ⟨j, rfl⟩ := Nat.exists_eq_succ_of_ne_zero (show i ≠ 0 by omega)
  have hrow : B.row ((j + 1 + 1 : ℕ) : ℤ) s = B.finish ((j + 1 + 1 : ℕ) : ℤ) s := by
    rw [row, hf, if_neg Bool.false_ne_true]
  show B.rows (j + 1) (B.row ((j + 1 + 1 : ℕ) : ℤ) s) = _
  rw [hrow, pass]
  cases hf1 : (B.finish ((j + 1 + 1 : ℕ) : ℤ) s).begin_flag with
  | true =>
    -- opening the segment in this pass or at the head of the next one is the same
    show B.rows j (B.row ((j + 1 : ℕ) : ℤ) _) = B.rows j (B.row ((j + 1 : ℕ) : ℤ) _)
    simp only [if_true]
    rw [row, hf1, if_pos rfl, row, begin_begin_flag, if_neg Bool.false_ne_true]
  | false => simp only [Bool.false_eq_true, if_false]

end Band

/-! ## The rows already read -/

namespace Band

variable (B : Band)

/-- A row that is not lost keeps clear of the band, one that is lost holds the lose value. -/
def Agrees (l : Bool) (v : ℤ) : Prop := if l then v = B.lose else B.near v = false

instance (l : Bool) (v : ℤ) : Decidable (B.Agrees l v) :=
  inferInstanceAs (Decidable (if l then v = B.lose else B.near v = false))

/-- Row 69 is not lost to begin with and copies a row 70 that lies in the band: the one way in
    which a row comes to disagree with its label. -/
def CopiesLost (b : Broder) : Prop := B.ReadsOutside b ∧ B.near (b 70) = true

instance (b : Broder) : Decidable (B.CopiesLost b) := inferInstanceAs (Decidable (_ ∧ _))

end Band

/-- The rows above `i`, as they are in `b'`: each agrees with the label of its segment (rows 2 to 0
    apart, and the first segment if row 69 copied a lost row 70). -/
structure RowsRead (B : Band) (b : Broder) (i : ℕ) (b' : Broder) (cs : List ℕ) (w : ℕ) : Prop where
  agrees : ∀ k ≤ cs.length, k ≠ 0 ∨ ¬ B.CopiesLost b → ∀ r : ℤ, i < r → 3 ≤ r → endOf cs k ≤ r →
    r ≤ beginOf cs k → B.Agrees (labelOf (B.startsLost b) k) (b' r)
  outside : b' 70 = b 70
  top : B.CopiesLost b → i < 69 → b' 69 = b 70
  /-- No row is skipped once three of a segment were. -/
  brief : w = 0 ∨ (w : ℤ) + beginOf cs cs.length ≤ i + 4

namespace RowsRead

variable {B : Band} {b b' b'' : Broder} {i w w' : ℕ} {cs : List ℕ}

/-- Row `i + 1` joins the open segment; the rows above it are those of the scan before. -/
theorem join (h : RowsRead B b (i + 1) b' cs w) (habove : ∀ c ∈ cs, i + 1 < c)
    (hsame : ∀ r : ℤ, ((i + 1 : ℕ) : ℤ) < r → b'' r = b' r) (hw : w' = 0 ∨ w = w' + 1)
    (hrow : 2 ≤ i → cs.length ≠ 0 ∨ ¬ B.CopiesLost b →
      B.Agrees (labelOf (B.startsLost b) cs.length) (b'' ((i + 1 : ℕ) : ℤ)))
    (htop : B.CopiesLost b → i + 1 = 69 → b'' 69 = b 70) (h69 : i + 1 ≤ 69) :
    RowsRead B b i b'' cs w' where
  agrees k hk hclean r hi h3 hend hbegin := by
    by_cases hr : r = ((i + 1 : ℕ) : ℤ)
    · subst hr
      rcases Nat.eq_or_lt_of_le hk with rfl | hlt
      · exact hrow (by omega) hclean
      · -- the closed segments end above row `i + 1`
        have hc := habove _ (List.getElem_mem hlt)
        rw [endOf, if_pos hlt, List.getD_eq_getElem _ _ hlt] at hend
        omega
    · rw [hsame r (by omega)]
      exact h.agrees k hk hclean r (by omega) h3 hend hbegin
  outside := by rw [hsame 70 (by omega), h.outside]
  top hc hi := by
    rcases Nat.eq_or_lt_of_le h69 with heq | hlt
    · exact htop hc heq
    · rw [hsame 69 (by omega), h.top hc hlt]
  brief := by
    have hbrief := h.brief
    omega

/-- Row `i + 1` begins a new segment, and the one before it ends one row above. -/
theorem cut (h : RowsRead B b (i + 1) b' cs w) (habove : ∀ c ∈ cs, i + 1 < c)
    (hsame : ∀ r : ℤ, ((i + 1 : ℕ) : ℤ) < r → b'' r = b' r) (hw : w' ≤ 3)
    (hrow : B.Agrees (labelOf (B.startsLost b) (cs.length + 1)) (b'' ((i + 1 : ℕ) : ℤ)))
    (htop : B.CopiesLost b → i + 1 ≠ 69) (h69 : i + 1 ≤ 69) :
    RowsRead B b i b'' (cs ++ [i + 1]) w' where
  agrees k hk hclean r hi h3 hend hbegin := by
    rw [List.length_append, List.length_singleton] at hk
    rcases Nat.eq_or_lt_of_le hk with rfl | hlt
    · rw [beginOf_append_last] at hbegin
      have hr : r = ((i + 1 : ℕ) : ℤ) := by omega
      rw [hr]
      exact hrow
    · rw [beginOf_append (by omega)] at hbegin
      have hend' : ((i + 1 : ℕ) : ℤ) < r ∧ endOf cs k ≤ r := by
        rcases Nat.eq_or_lt_of_le (Nat.le_of_lt_succ hlt) with rfl | hlt
        · rw [endOf_append_length] at hend
          rw [endOf_of_le (le_refl _)]
          omega
        · -- the closed segments end above row `i + 1`
          have hc := habove _ (List.getElem_mem hlt)
          rw [endOf_append hlt] at hend
          refine ⟨?_, hend⟩
          rw [endOf, if_pos hlt, List.getD_eq_getElem _ _ hlt] at hend
          omega
      rw [hsame r hend'.1]
      exact h.agrees k (by omega) hclean r hend'.1 h3 hend'.2 hbegin
  outside := by rw [hsame 70 (by omega), h.outside]
  top hc hi := by rw [hsame 69 (by have := htop hc; omega), h.top hc (by have := htop hc; omega)]
  brief := by
    rw [List.length_append, List.length_singleton, beginOf_append_last]
    push_cast
    omega

end RowsRead

/-! ## The invariant of the scan -/

/-- The scan has read the rows above `i`: `cs` are the cuts it made, `l` the label of the open
    segment, `w` the number of rows it has already rewritten. -/
structure Running (B : Band) (b : Broder) (i : ℕ) (s : Scan) (cs : List ℕ) (l : Bool) (w : ℕ) :
    Prop where
  /-- The cuts still to come complete the list. -/
  cuts : cs ++ Hysteresis.cuts (B.hit b) Band.hold l w i = B.cuts b
  track : (l, w) = B.labelAt b i
  label : l = labelOf (B.startsLost b) cs.length
  skip : l = false → w = 0
  above : ∀ c ∈ cs, i < c
  segment_n : s.segment_n = cs.length
  begin_flag : s.begin_flag = false
  table : s.target_segment = tableOf (B.startsLost b) cs
  /-- The rows to come: the original ones, but for the next `w`. -/
  ahead : ∀ r : ℤ, 0 ≤ r → r ≤ i → s.broder r = if (i : ℤ) < r + w then B.lose else b r
  rows : RowsRead B b i s.broder cs w

namespace Running

variable {B : Band} {b : Broder} {i : ℕ} {s : Scan} {cs : List ℕ} {l : Bool} {w : ℕ}

/-- The open segment began above row `i`, the first one at row 69. -/
theorem lt_beginOf (h : Running B b i s cs l w) :
    (i : ℤ) < beginOf cs cs.length ∨ cs = [] ∧ beginOf cs cs.length = 69 := by
  rcases List.eq_nil_or_concat cs with rfl | ⟨cs, c, rfl⟩
  · exact Or.inr ⟨rfl, rfl⟩
  · have hc := h.above c (by simp)
    rw [List.concat_eq_append, List.length_append, List.length_singleton, beginOf_append_last]
    exact Or.inl (by exact_mod_cast hc)

/-- The type of the open segment is its label, as long as rows are left to judge it by. -/
theorem type (h : Running B b (i + 1) s cs l w) (hi : 1 ≤ i) :
    (s.target_segment s.segment_n).type = if l then lose_segment else NULL_segment := by
  have hbegin : beginOf cs cs.length ≠ 2 := by
    have := h.lt_beginOf
    omega
  rw [h.segment_n, h.table, tableOf_of_le (le_refl _), typeOf, ← h.label]
  cases l <;> simp [hbegin]

/-- Without rewritten rows ahead, the border is still the original one wherever the scan is to
    read. -/
theorem fresh (h : Running B b i s cs l 0) {r : ℤ} (h0 : 0 ≤ r) (hr : r ≤ i) :
    s.broder r = b r := by
  rw [h.ahead r h0 hr, if_neg (by omega)]

end Running

namespace Band

variable {B : Band} {b : Broder} {i : ℕ} {s : Scan} {cs : List ℕ} {l : Bool} {w : ℕ}

/-- **A lost segment goes on**: the row is rewritten (the last two rows are left alone).  A row
    that is rewritten already ends nothing, as it lies in the band. -/
theorem pass_lost (h : Running B b (i + 1) s cs true w) (hi : 1 ≤ i)
    (hcut : w = 0 → B.hit b true (i + 1) = false) :
    B.pass i s =
      if 2 ≤ i then { s with broder := Function.update s.broder ((i + 1 : ℕ) : ℤ) B.lose }
      else s := by
  have htype : (s.target_segment s.segment_n).type = lose_segment := h.type hi
  have hends : 2 ≤ i → B.endsLose s.broder ((i + 1 : ℕ) : ℤ) = false := by
    intro h2
    -- `w` rows to come are rewritten already: such a row lies in the band, and ends nothing.
    cases w with
    | zero =>
      have hno := hcut rfl
      rw [hit, decide_eq_true (show 3 ≤ i + 1 by omega), Bool.true_and] at hno
      rw [← hno]
      unfold endsLose
      rw [h.fresh (by omega) (by omega), h.fresh (by omega) (by omega),
        h.fresh (by omega) (by omega), h.fresh (by omega) (by omega)]
    | succ w =>
      have hrow : s.broder ((i + 1 : ℕ) : ℤ) = B.lose := by
        rw [h.ahead _ (by omega) (le_refl _), if_pos (by omega)]
      unfold endsLose
      rw [hrow, B.near_lose]
      rfl
  by_cases h2 : 2 ≤ i
  · rw [if_pos h2]
    refine B.pass_eq_finish ?_ h.begin_flag
    rw [finish, if_pos htype, if_pos (show (3 : ℤ) ≤ ((i + 1 : ℕ) : ℤ) by omega), hends h2,
      if_neg Bool.false_ne_true]
  · rw [if_neg h2]
    refine B.pass_eq_finish ?_ h.begin_flag
    rw [finish, if_pos htype, if_neg (show ¬ (3 : ℤ) ≤ ((i + 1 : ℕ) : ℤ) by omega)]

/-- **A segment ends and the next one is opened**: the cut is appended, the new segment begins at
    it.  Both happen before the next row is read, which is why `pass` takes them together. -/
theorem begin_close (h : Running B b (i + 1) s cs l w) (h69 : i + 1 ≤ 69) (b' : Broder) :
    B.begin (i : ℤ) (close ((i + 1 : ℕ) : ℤ) { s with broder := b' }) =
      ⟨if B.opensLose b' i then fill3 b' i B.lose else b',
        Function.update
          (Function.update (tableOf (B.startsLost b) cs) cs.length
            { tableOf (B.startsLost b) cs cs.length with «end» := ((i + 1 : ℕ) : ℤ) + 1 })
          (cs.length + 1)
          ⟨((i + 1 : ℕ) : ℤ), 0, if B.opensLose b' i then lose_segment else NULL_segment, NEAR⟩,
        cs.length + 1, false⟩ := by
  have hrow : (if (i : ℤ) = imgRow - 1 then (i : ℤ) else (i : ℤ) + 1) = ((i + 1 : ℕ) : ℤ) := by
    rw [if_neg (by unfold imgRow; omega)]
    omega
  simp only [begin, close, h.segment_n, h.table]
  rw [Function.update_of_ne (by omega), tableOf_of_lt (Nat.lt_succ_self _), hrow]
  rfl

/-- **A lost segment ends**: the rows are far from the edge, so the next segment is not lost.
    Among the four rows that end it are the ones that would have to lie at the edge for that. -/
theorem pass_leave (h : Running B b (i + 1) s cs true 0) (hi : 1 ≤ i) (h69 : i + 1 ≤ 69)
    (hcut : B.hit b true (i + 1) = true) :
    B.pass i s =
      ⟨s.broder, tableOf (B.startsLost b) (cs ++ [i + 1]), cs.length + 1, false⟩ := by
  have htype : (s.target_segment s.segment_n).type = lose_segment := h.type hi
  rw [hit, Bool.and_eq_true, decide_eq_true_iff] at hcut
  obtain ⟨h3, hends⟩ := hcut
  have hends' : B.endsLose s.broder ((i + 1 : ℕ) : ℤ) = true := by
    rw [← hends]
    unfold endsLose
    rw [h.fresh (by omega) (by omega), h.fresh (by omega) (by omega),
      h.fresh (by omega) (by omega), h.fresh (by omega) (by omega)]
  -- The row that would start a lost segment is one of those just found to be off the edge.
  have hopens : B.opensLose s.broder (i : ℤ) = false := by
    unfold endsLose at hends'
    simp only [Bool.and_eq_true, Bool.not_eq_true'] at hends'
    have hrow : ((i + 1 : ℕ) : ℤ) - 1 = i := by omega
    rw [hrow] at hends'
    unfold opensLose
    rw [B.not_start_of_not_near hends'.1.1.2, Bool.and_false, Bool.false_and]
  have hlabel : labelOf (B.startsLost b) (cs.length + 1) = false := by
    rw [labelOf, ← h.label]
    rfl
  have hfinish : B.finish ((i + 1 : ℕ) : ℤ) s = close ((i + 1 : ℕ) : ℤ) s := by
    unfold finish
    rw [if_pos htype, if_pos (show (3 : ℤ) ≤ ((i + 1 : ℕ) : ℤ) by omega), if_pos hends']
  rw [B.pass_eq_begin hfinish rfl]
  apply (begin_close h h69 s.broder).trans
  rw [hopens, tableOf_append, hlabel]
  rfl

/-- The two openings in a row rewrite four rows: the three of the cut and one more. -/
theorem fill3_fill3 (b' : Broder) (c v r : ℤ) :
    fill3 (fill3 b' c v) (c - 1) v r = if c - 3 ≤ r ∧ r ≤ c then v else b' r := by
  unfold fill3
  simp only [Function.update_apply]
  split_ifs <;> first | rfl | omega

/-- **A segment that is not lost ends**: the three rows at the edge are rewritten, and unless the
    image ends there the next segment is recognised as lost and rewrites one row more. -/
theorem pass_enter (h : Running B b (i + 1) s cs false w) (hi : 1 ≤ i) (h69 : i + 1 ≤ 69)
    (hcut : B.hit b false (i + 1) = true) :
    B.pass i s =
      ⟨if 2 ≤ i then fill3 (fill3 s.broder ((i + 1 : ℕ) : ℤ) B.lose) i B.lose
        else fill3 s.broder ((i + 1 : ℕ) : ℤ) B.lose,
        tableOf (B.startsLost b) (cs ++ [i + 1]), cs.length + 1, false⟩ := by
  have hw : w = 0 := h.skip rfl
  subst hw
  have htype : (s.target_segment s.segment_n).type = NULL_segment := h.type hi
  rw [hit, Bool.and_eq_true, decide_eq_true_iff] at hcut
  obtain ⟨-, hends⟩ := hcut
  have hends' : B.endsNull s.broder ((i + 1 : ℕ) : ℤ) = true := by
    rw [← hends]
    unfold endsNull
    rw [h.fresh (by omega) (by omega), h.fresh (by omega) (by omega),
      h.fresh (by omega) (by omega)]
  have hopens : B.opensLose (fill3 s.broder ((i + 1 : ℕ) : ℤ) B.lose) i = decide (2 ≤ i) := by
    have hrow : ((i + 1 : ℕ) : ℤ) - 1 = i := by omega
    have hrow' : ((i + 1 : ℕ) : ℤ) - 2 = (i : ℤ) - 1 := by omega
    unfold opensLose fill3
    rw [hrow, hrow', Function.update_self, Function.update_of_ne (by omega), Function.update_self,
      B.start_lose, Bool.and_true, Bool.and_true, decide_eq_decide]
    omega
  have hfinish : B.finish ((i + 1 : ℕ) : ℤ) s =
      close ((i + 1 : ℕ) : ℤ) { s with broder := fill3 s.broder ((i + 1 : ℕ) : ℤ) B.lose } := by
    unfold finish
    rw [if_neg (by rw [htype]; decide), if_pos htype,
      if_pos (show (2 : ℤ) ≤ ((i + 1 : ℕ) : ℤ) by omega), if_pos hends']
  have hlabel : labelOf (B.startsLost b) (cs.length + 1) = true := by
    rw [labelOf, ← h.label]
    rfl
  -- the type is the label except at row 2, and that is where no lost segment is opened
  have htypes : (if true = true ∧ ((i + 1 : ℕ) : ℤ) ≠ 2 then lose_segment else NULL_segment) =
      if 2 ≤ i then lose_segment else NULL_segment := by
    by_cases h2 : 2 ≤ i
    · rw [if_pos h2, if_pos ⟨rfl, by omega⟩]
    · rw [if_neg h2, if_neg (by omega)]
  rw [B.pass_eq_begin hfinish rfl, begin_close h h69, hopens, tableOf_append, hlabel, htypes]
  simp only [decide_eq_true_eq]

/-- **A segment that is not lost goes on**: the row keeps its value or copies the row above.  The
    row above was read before it, so what it copies agrees with the label; at row 69 it is row 70. -/
theorem pass_keep (h : Running B b (i + 1) s cs false w) (hi : 1 ≤ i)
    (hcut : B.hit b false (i + 1) = false) :
    B.pass i s =
      { s with broder :=
          Function.update s.broder ((i + 1 : ℕ) : ℤ) (B.keep s.broder ((i + 1 : ℕ) : ℤ)) } := by
  have hw : w = 0 := h.skip rfl
  subst hw
  have htype : (s.target_segment s.segment_n).type = NULL_segment := h.type hi
  rw [hit, decide_eq_true (show 2 ≤ i + 1 by omega), Bool.true_and] at hcut
  have hends' : B.endsNull s.broder ((i + 1 : ℕ) : ℤ) = false := by
    rw [← hcut]
    unfold endsNull
    rw [h.fresh (by omega) (by omega), h.fresh (by omega) (by omega),
      h.fresh (by omega) (by omega)]
  refine B.pass_eq_finish ?_ h.begin_flag
  rw [finish, if_neg (by rw [htype]; exact fun h => segment_type.noConfusion h), if_pos htype,
    if_pos (show (2 : ℤ) ≤ ((i + 1 : ℕ) : ℤ) by omega), hends', if_neg Bool.false_ne_true]

theorem labelAt_succ (B : Band) (b : Broder) {i : ℕ} (h69 : i + 1 ≤ 69) :
    B.labelAt b i = advance (B.hit b) hold (i + 1) (B.labelAt b (i + 1)) := by
  unfold labelAt
  rw [show 69 - i = 69 - (i + 1) + 1 by omega, track, show 69 - (69 - (i + 1)) = i + 1 by omega]

end Band

/-! ## The run -/

namespace Running

variable {B : Band} {b : Broder} {i : ℕ} {s : Scan} {cs : List ℕ} {l : Bool} {w : ℕ}

theorem above_append (h : Running B b (i + 1) s cs l w) : ∀ c ∈ cs ++ [i + 1], i < c := by
  intro c hc
  rcases List.mem_append.mp hc with hc | hc
  · exact Nat.lt_of_succ_lt (h.above c hc)
  · rw [List.mem_singleton.mp hc]
    exact Nat.lt_succ_self i

theorem label_append (h : Running B b (i + 1) s cs l w) :
    (!l) = labelOf (B.startsLost b) (cs ++ [i + 1]).length := by
  rw [List.length_append, List.length_singleton, labelOf, h.label]

/-- No cut lies above row 69. -/
theorem eq_nil (h : Running B b 69 s cs l w) : cs = [] := by
  by_contra hne
  obtain ⟨c, hc⟩ := List.exists_mem_of_ne_nil cs hne
  have hmem : c ∈ B.cuts b := by
    rw [← h.cuts]
    exact List.mem_append_left _ hc
  have habove := h.above c hc
  obtain ⟨k, hk, rfl⟩ := List.getElem_of_mem hmem
  have := (hit_getElem_cuts (B.cuts b) rfl k hk).2.1
  omega

/-- A first segment that copies row 70 is not lost. -/
theorem not_copiesLost (h : Running B b (i + 1) s cs true w) (hi : i + 1 = 69) :
    ¬ B.CopiesLost b := by
  rintro ⟨⟨hopens, -⟩, -⟩
  rw [hi] at h
  have hlabel := h.label
  rw [h.eq_nil] at hlabel
  have hstart : B.startsLost b = true := hlabel.symm
  unfold Band.startsLost at hstart
  rw [hopens] at hstart
  exact Bool.false_ne_true hstart

/-- **A row of a lost segment**: one row fewer is rewritten ahead, or none was and none is; the
    segment stays open. -/
theorem goes (h : Running B b (i + 1) s cs true w) (hi : 1 ≤ i) (h69 : i + 1 ≤ 69) {w' : ℕ}
    (hw : w = w' + 1 ∨ w = 0 ∧ w' = 0) (hcut : w = 0 → B.hit b true (i + 1) = false)
    (hcuts : cs ++ Hysteresis.cuts (B.hit b) Band.hold true w' i = B.cuts b)
    (htrack : (true, w') = B.labelAt b i) : Running B b i (B.pass i s) cs true w' := by
  have hahead : ∀ r : ℤ, 0 ≤ r → r ≤ i →
      s.broder r = if (i : ℤ) < r + w' then B.lose else b r := by
    intro r h0 hr
    rw [h.ahead r h0 (by omega)]
    by_cases hlt : (i : ℤ) < r + w'
    · rw [if_pos hlt, if_pos (by omega)]
    · rw [if_neg hlt, if_neg (by omega)]
  have habove : ∀ c ∈ cs, i < c := fun c hc => Nat.lt_of_succ_lt (h.above c hc)
  have htop : B.CopiesLost b → i + 1 = 69 → ∀ v : ℤ, v = b 70 :=
    fun hc hi => absurd hc (h.not_copiesLost hi)
  rw [Band.pass_lost h hi hcut]
  by_cases h2 : 2 ≤ i
  · rw [if_pos h2]
    refine ⟨hcuts, htrack, h.label, nofun, habove, h.segment_n, h.begin_flag, h.table, ?_, ?_⟩
    · intro r h0 hr
      show Function.update s.broder _ _ r = _
      rw [Function.update_of_ne (by omega), hahead r h0 hr]
    · refine h.rows.join h.above (fun r hr => Function.update_of_ne (by omega) _ _) (by omega)
        (fun _ _ => ?_) (fun hc hi => htop hc hi _) h69
      rw [← h.label]
      exact Function.update_self _ _ _
  · rw [if_neg h2]
    exact ⟨hcuts, htrack, h.label, nofun, habove, h.segment_n, h.begin_flag, h.table, hahead,
      h.rows.join h.above (fun _ _ => rfl) (by omega) (fun h2' => absurd h2' h2)
        (fun hc hi => htop hc hi _) h69⟩

/-- **The first row below a lost segment**: no row ahead is rewritten, so from here on the border
    is the original one. -/
theorem leaves (h : Running B b (i + 1) s cs true 0) (hi : 1 ≤ i) (h69 : i + 1 ≤ 69)
    (hcut : B.hit b true (i + 1) = true)
    (hcuts : cs ++ (i + 1) :: Hysteresis.cuts (B.hit b) Band.hold false 0 i = B.cuts b)
    (htrack : (false, 0) = B.labelAt b i) :
    Running B b i (B.pass i s) (cs ++ [i + 1]) false 0 := by
  rw [Band.pass_leave h hi h69 hcut]
  refine ⟨by rw [List.append_assoc]; exact hcuts, htrack, h.label_append, fun _ => rfl,
    h.above_append, by simp, rfl, rfl, ?_, ?_⟩
  · intro r h0 hr
    rw [if_neg (by omega)]
    exact h.fresh h0 (by omega)
  · refine h.rows.cut h.above (fun _ _ => rfl) (Nat.zero_le 3) ?_
      (fun hc hi => h.not_copiesLost hi hc) h69
    rw [labelOf, ← h.label]
    show B.near (s.broder _) = false
    rw [h.fresh (by omega) (le_refl _)]
    exact B.near_of_endsLose b hcut (by omega) (le_refl _)

/-- **The first row of a lost segment**: it and the next three rows hold the lose value, as far as
    they are in the image, and these three are the rows that the hysteresis skips. -/
theorem enters (h : Running B b (i + 1) s cs false 0) (hi : 1 ≤ i) (h69 : i + 1 ≤ 69)
    (hcut : B.hit b false (i + 1) = true)
    (hcuts : cs ++ (i + 1) :: Hysteresis.cuts (B.hit b) Band.hold true 3 i = B.cuts b)
    (htrack : (true, 3) = B.labelAt b i) :
    Running B b i (B.pass i s) (cs ++ [i + 1]) true 3 := by
  -- the rows `i + 1`, `i`, `i - 1` and `i - 2` were rewritten, as far as they exist
  have hrows : ∀ r : ℤ, 0 ≤ r ∨ (i : ℤ) < r → (if 2 ≤ i
      then Band.fill3 (Band.fill3 s.broder ((i + 1 : ℕ) : ℤ) B.lose) i B.lose
      else Band.fill3 s.broder ((i + 1 : ℕ) : ℤ) B.lose : Broder) r =
        if (i : ℤ) - 2 ≤ r ∧ r ≤ (i : ℤ) + 1 then B.lose else s.broder r := by
    intro r hr
    by_cases h2 : 2 ≤ i
    · rw [if_pos h2, show (i : ℤ) = ((i + 1 : ℕ) : ℤ) - 1 by omega, Band.fill3_fill3]
      split_ifs <;> first | rfl | omega
    · rw [if_neg h2]
      unfold Band.fill3
      simp only [Function.update_apply]
      split_ifs <;> first | rfl | omega
  rw [Band.pass_enter h hi h69 hcut]
  refine ⟨by rw [List.append_assoc]; exact hcuts, htrack, h.label_append, nofun,
    h.above_append, by simp, rfl, rfl, ?_, ?_⟩
  · intro r h0 hr
    apply (hrows r (Or.inl h0)).trans
    by_cases hlt : (i : ℤ) < r + (3 : ℕ)
    · rw [if_pos (by omega), if_pos hlt]
    · rw [if_neg (by omega), if_neg hlt]
      exact h.fresh h0 (by omega)
  · refine h.rows.cut h.above (fun r hr => (hrows r (Or.inr (by omega))).trans (if_neg (by omega)))
      (le_refl 3) ?_ ?_ h69
    · rw [labelOf, ← h.label]
      exact (hrows _ (Or.inl (by omega))).trans (if_pos (by omega))
    · rintro ⟨⟨-, hends, -⟩, -⟩ hi
      rw [hi] at hcut
      exact absurd (hcut.symm.trans hends) (by decide)

/-- **A row of a segment that is not lost** is judged on the original border, as nothing is
    rewritten ahead of such a segment. -/
theorem keeps (h : Running B b (i + 1) s cs false 0) (hi : 1 ≤ i) (h69 : i + 1 ≤ 69)
    (hcut : B.hit b false (i + 1) = false)
    (hcuts : cs ++ Hysteresis.cuts (B.hit b) Band.hold false 0 i = B.cuts b)
    (htrack : (false, 0) = B.labelAt b i) : Running B b i (B.pass i s) cs false 0 := by
  have hrow : s.broder ((i + 1 : ℕ) : ℤ) = b ((i + 1 : ℕ) : ℤ) := h.fresh (by omega) (le_refl _)
  have hends : i + 1 = 69 → B.endsNull b 69 = false := by
    intro hi
    rw [hi] at hcut
    exact hcut
  rw [Band.pass_keep h hi hcut]
  refine ⟨hcuts, htrack, h.label, fun _ => rfl,
    fun c hc => Nat.lt_of_succ_lt (h.above c hc), h.segment_n, h.begin_flag, h.table, ?_, ?_⟩
  · intro r h0 hr
    show Function.update s.broder _ _ r = _
    rw [Function.update_of_ne (by omega), if_neg (by omega)]
    exact h.fresh h0 (by omega)
  refine h.rows.join h.above (fun r hr => Function.update_of_ne (by omega) _ _) (Or.inl rfl)
    (fun h2 hclean => ?_) (fun hc hi => ?_) h69
  · rw [← h.label]
    show B.near (Function.update s.broder _ _ _) = false
    rw [Function.update_self]
    unfold Band.keep
    by_cases hedge : B.edge (s.broder ((i + 1 : ℕ) : ℤ)) = true
    · rw [if_pos hedge]
      by_cases hlt : ((i + 1 : ℕ) : ℤ) < beginOf cs cs.length
      · have hup := h.rows.agrees cs.length (le_refl _) hclean (((i + 1 : ℕ) : ℤ) + 1)
          (by omega) (by omega) (by rw [endOf_of_le (le_refl _)]; omega) (by omega)
        rw [← h.label] at hup
        exact hup
      · -- row 69 copies row 70, which does not lie in the band
        obtain ⟨hnil, h69'⟩ := h.lt_beginOf.resolve_left hlt
        have hi69 : i + 1 = 69 := by omega
        have hno : ¬ B.CopiesLost b := hclean.resolve_left (by rw [hnil]; exact fun h => h rfl)
        have hopens : B.startsLost b = false := by
          have hlabel := h.label
          rw [hnil] at hlabel
          exact hlabel.symm
        have h70 : ((i + 1 : ℕ) : ℤ) + 1 = 70 := by omega
        rw [h70, h.rows.outside]
        cases hn : B.near (b 70) with
        | false => rfl
        | true =>
          rw [hrow, hi69] at hedge
          exact absurd ⟨⟨hopens, hends hi69, hedge⟩, hn⟩ hno
    · rw [if_neg hedge]
      cases hn : B.near (s.broder ((i + 1 : ℕ) : ℤ)) with
      | false => rfl
      | true => exact absurd (B.edge_of_near _ hn) hedge
  · have hi69 : ((i + 1 : ℕ) : ℤ) = 69 := by omega
    show Function.update s.broder _ (B.keep s.broder _) 69 = b 70
    rw [hi69] at hrow ⊢
    rw [Function.update_self]
    unfold Band.keep
    rw [hrow, if_pos hc.1.2.2]
    exact h.rows.outside

/-- **One row**: the invariant moves from row `i + 1` to row `i`, with the label and the skip count
    the original border gives there. -/
theorem step (h : Running B b (i + 1) s cs l w) (hi : 1 ≤ i) (h69 : i + 1 ≤ 69) :
    ∃ cs', Running B b i (B.pass i s) cs' (advance (B.hit b) Band.hold (i + 1) (l, w)).1
      (advance (B.hit b) Band.hold (i + 1) (l, w)).2 := by
  have htrack : advance (B.hit b) Band.hold (i + 1) (l, w) = B.labelAt b i := by
    rw [Band.labelAt_succ B b h69, h.track]
  have hcuts := h.cuts
  cases w with
  | succ w =>
    cases l with
    | true => exact ⟨cs, h.goes hi h69 (Or.inl rfl) nofun hcuts htrack⟩
    | false => exact absurd (h.skip rfl) (Nat.succ_ne_zero w)
  | zero =>
    cases hcut : B.hit b l (i + 1) with
    | true =>
      rw [cuts_of_hit hcut] at hcuts
      rw [advance, if_pos hcut] at htrack ⊢
      cases l with
      | true => exact ⟨_, h.leaves hi h69 hcut hcuts htrack⟩
      | false => exact ⟨_, h.enters hi h69 hcut hcuts htrack⟩
    | false =>
      rw [cuts_of_not_hit hcut] at hcuts
      rw [advance, if_neg (by rw [hcut]; exact Bool.false_ne_true)] at htrack ⊢
      cases l with
      | true => exact ⟨_, h.goes hi h69 (Or.inr ⟨rfl, rfl⟩) (fun _ => hcut) hcuts htrack⟩
      | false => exact ⟨_, h.keeps hi h69 hcut hcuts htrack⟩

end Running

namespace Band

variable (B : Band) (b : Broder)

/-- **The start**: the first segment is open at row 69, and if it was opened as a lost one its
    first rows are rewritten. -/
theorem running_start : Running B b 69 (B.begin 69 (scan_start b)) []
    (B.startState b).1 (B.startState b).2 where
  cuts := rfl
  track := rfl
  label := rfl
  skip h := by
    unfold startState at h ⊢
    dsimp only at h ⊢
    rw [h, if_neg Bool.false_ne_true]
  above c hc := absurd hc List.not_mem_nil
  segment_n := rfl
  begin_flag := rfl
  table := by
    funext k
    unfold tableOf typeOf beginOf endOf startsLost begin scan_start segment_t.cleared imgRow labelOf
    cases k with
    | zero => simp
    | succ k => simp
  ahead r h0 hr := by
    -- the three rows that the opening rewrites are the row itself and the two to be skipped
    show (if B.opensLose b 69 then fill3 b 69 B.lose else b) r = _
    unfold startState startsLost
    cases hl : B.opensLose b 69 with
    | true =>
      simp only [if_true]
      unfold fill3
      simp only [Function.update_apply]
      push_cast
      split_ifs <;> first | rfl | omega
    | false =>
      simp only [Bool.false_eq_true, if_false]
      rw [if_neg (by omega)]
  rows := by
    refine ⟨fun k hk _ r hr _ _ hbegin => ?_, ?_, fun _ h => absurd h (by omega), ?_⟩
    · rw [Nat.le_zero.mp hk, beginOf] at hbegin
      omega
    · show (if B.opensLose b 69 then fill3 b 69 B.lose else b) 70 = b 70
      split
      · rfl
      · rfl
    · unfold startState
      show _ ∨ _ + (69 : ℤ) ≤ _
      cases B.startsLost b <;> simp

/-- Row 1 is left alone: both tests for an end ask for more rows than there are. -/
theorem rows_one {s : Scan} (hf : s.begin_flag = false) : B.rows 1 s = s := by
  show B.row ((0 + 1 : ℕ) : ℤ) s = s
  rw [row, hf, if_neg Bool.false_ne_true]
  unfold finish
  split
  · exact if_neg (by omega)
  · split
    · exact if_neg (by omega)
    · rfl

/-- The first segment may as well be opened before the first pass. -/
theorem scan_eq : B.scan b = B.rows 69 (B.begin 69 (scan_start b)) := by
  show B.rows 68 (B.row 69 (scan_start b)) = B.rows 68 (B.row 69 (B.begin 69 (scan_start b)))
  rfl

/-- **The run**: the scan of any border passes through every row with the invariant, by induction
    on the rows read; the cuts made so far are those of the original border above this row. -/
theorem running_at : ∀ k : ℕ, k ≤ 68 →
    ∃ s cs l w, Running B b (69 - k) s cs l w ∧ B.scan b = B.rows (69 - k) s
  | 0, _ => ⟨_, _, _, _, B.running_start b, B.scan_eq b⟩
  | k + 1, hk => by
    obtain ⟨s, cs, l, w, h, hscan⟩ := running_at k (by omega)
    rw [show 69 - k = 69 - (k + 1) + 1 by omega] at h hscan
    obtain ⟨cs', h'⟩ := h.step (by omega) (by omega)
    rw [B.rows_pass (by omega) h.begin_flag] at hscan
    exact ⟨_, _, _, _, h', hscan⟩

/-- **The result**: the scan of any border makes all its cuts.  Rows 1 and 0 make none, as a
    segment is not ended by rows beyond row 0. -/
theorem scan_running : ∃ l w, Running B b 1 (B.scan b) (B.cuts b) l w := by
  obtain ⟨s, cs, l, w, h, hscan⟩ := B.running_at b 68 (le_refl 68)
  rw [B.rows_one h.begin_flag] at hscan
  have hlow : Hysteresis.cuts (B.hit b) hold l w 1 = [] := by
    cases w with
    | zero =>
      refine cuts_eq_nil_iff.mpr (fun j h1 hj => ?_)
      have hj1 : j = 1 := by omega
      subst hj1
      cases l <;> rfl
    | succ w => exact (cuts_skip l w 0).trans (cuts_zero l w)
  have hcs : cs = B.cuts b := by
    rw [← h.cuts, hlow, List.append_nil]
  rw [hscan]
  subst hcs
  exact ⟨l, w, h⟩

@[simp] theorem scan_segment_n : (B.scan b).segment_n = (B.cuts b).length := by
  obtain ⟨l, w, h⟩ := B.scan_running b
  exact h.segment_n

theorem scan_table : (B.scan b).target_segment = tableOf (B.startsLost b) (B.cuts b) := by
  obtain ⟨l, w, h⟩ := B.scan_running b
  exact h.table

end Band

end Car2025
