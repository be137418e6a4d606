/-
  The pixels that `Camera_FindMyLine` reads.

  1. **Reads** — for every search the columns it reads, in the order of the source: `&&` reads its
     second pixel only where the first one passes, and the loops differ in which pixel comes first.

  2. **Nothing else is read (`Camera_FindMyLine_congr`)** — images that agree on these pixels have the
     same borders.

  3. **Result (`Camera_FindMyLine_reads_iff`)** — all of them are pixels of the image unless a search
     starts at column 0 on a dark pixel.
-/
import Mathlib
import Car2025.Vision.Borders

namespace Car2025

/-! ## Reads -/

section

variable (Threshold : ℤ) (row : ℤ → ℤ)

/-- `my_image[i][j] > Threshold && my_image[i][j-1] < Threshold` -/
def left_reads (j : ℤ) : List ℤ := if row j > Threshold then [j, j - 1] else [j]

/-- `my_image[i][j] < Threshold && my_image[i][j-1] > Threshold` -/
def right_reads (j : ℤ) : List ℤ := if row j < Threshold then [j, j - 1] else [j]

/-- `my_image[i][j-1] > Threshold && my_image[i][j] < Threshold` -/
def right_reads_behind (j : ℤ) : List ℤ :=
  if row (j - 1) > Threshold then [j - 1, j] else [j - 1]

/-- The reads of `seek_down`, with those of one pass; it goes on where the search does. -/
def seek_down_reads (reads : ℤ → List ℤ) (hit : ℤ → Bool) (low : ℤ) : ℕ → ℤ → List ℤ
  | 0, _ => []
  | n + 1, j =>
    reads j ++
      if hit j then [] else if j ≤ low then [] else seek_down_reads reads hit low n (j - 1)

/-- The reads of `seek_up`. -/
def seek_up_reads (reads : ℤ → List ℤ) (hit : ℤ → Bool) : ℕ → ℤ → List ℤ
  | 0, _ => []
  | n + 1, j => reads j ++ if hit j then [] else seek_up_reads reads hit n (j + 1)

def first_white_reads : List ℤ :=
  seek_down_reads (left_reads Threshold row) (left_edge Threshold row) 0 (MID_COL - 1).toNat
    (MID_COL - 1) ++
  seek_up_reads (right_reads Threshold row) (right_edge Threshold row)
    (imgCol - (MID_COL - 1)).toNat (MID_COL - 1)

/-- The second search begins at the edge that the first one has found, so its reads depend on it. -/
def black_right_reads (r : Row) : List ℤ :=
  let s := seek_up (left_edge Threshold row) (imgCol - (MID_COL - 1)).toNat (MID_COL - 1)
  let r := if s.2 then { r with leftBroder := s.1 - 1 } else r
  seek_up_reads (left_reads Threshold row) (left_edge Threshold row)
    (imgCol - (MID_COL - 1)).toNat (MID_COL - 1) ++
  if s.1 ≠ imgCol then
    let w := r.leftBroder + 1
    seek_up_reads (right_reads Threshold row) (right_edge Threshold row) (imgCol - w).toNat w
  else []

def black_left_reads (r : Row) : List ℤ :=
  let s := seek_down (right_edge Threshold row) 0 (MID_COL - 1).toNat (MID_COL - 1)
  let r := if s.2 then { r with rightBroder := s.1 } else r
  seek_down_reads (right_reads_behind Threshold row) (right_edge Threshold row) 0
    (MID_COL - 1).toNat (MID_COL - 1) ++
  if s.1 ≠ 0 then
    let w := r.rightBroder - 1
    seek_down_reads (left_reads Threshold row) (left_edge Threshold row) 0 w.toNat w
  else []

def first_row_reads : List ℤ :=
  (MID_COL - 1) ::
    if row (MID_COL - 1) ≥ Threshold then first_white_reads Threshold row
    else black_right_reads Threshold row Row.cleared ++
      black_left_reads Threshold row (black_right Threshold row Row.cleared)

/-- All three searches for a left border read the column itself first, so one list serves them all. -/
def trace_left_reads (below : Row) : List ℤ :=
  seek_down_reads (left_reads Threshold row) (left_edge Threshold row) (left_search below).1
    (left_search below).2.toNat (left_search below).2

def trace_right_reads (below : Row) : List ℤ :=
  if below.right_add_flag = false then
    let j := if below.rightBroder - range_line ≤ 1 then 1 else below.rightBroder - range_line
    seek_up_reads (right_reads_behind Threshold row) (right_edge Threshold row)
      (imgCol - 1 - j).toNat j
  else if below.left_add_flag = false then
    let j := below.leftBroder
    seek_up_reads (right_reads Threshold row) (right_edge Threshold row) (imgCol - j).toNat j
  else
    let j := MID_COL - 1
    seek_up_reads (right_reads_behind Threshold row) (right_edge Threshold row)
      (imgCol - j).toNat j

/-- The reads of `set_limit`, for the row that was found. -/
def set_limit_reads (r : Row) (s : Tracer) : List ℤ :=
  if r.leftBroder ≤ r.rightBroder ∧ r.rightBroder ≤ 10 ∧ s.Limit_Broder0 = 0 then []
  else if r.rightBroder ≥ r.leftBroder ∧ r.leftBroder ≥ 150 ∧ s.Limit_Broder1 = 0 then []
  else if r.left_add_flag = true ∧ r.right_add_flag = true then
    if row 25 = 0 then [25, 135] else [25]
  else []

end

/-- The columns that the pass on row `i` reads, all of them in that row. -/
def FindMyLine_row_reads (Threshold : ℤ) (my_image : ℤ → ℤ) (i : ℤ) (s : Tracer) : List ℤ :=
  (if i = imgRow - 1 then first_row_reads Threshold (pixel my_image i)
    else trace_left_reads Threshold (pixel my_image i) (s.rows (i + 1)) ++
      trace_right_reads Threshold (pixel my_image i) (s.rows (i + 1))) ++
  set_limit_reads (pixel my_image i) (found_row Threshold my_image i s) s

/-- The pixels that the passes for the rows `n - 1, …, 0` read. -/
def FindMyLine_rows_reads (Threshold : ℤ) (my_image : ℤ → ℤ) : ℕ → Tracer → List (ℤ × ℤ)
  | 0, _ => []
  | n + 1, s =>
    if s.Open then
      (FindMyLine_row_reads Threshold my_image n s).map (fun c => ((n : ℤ), c)) ++
        FindMyLine_rows_reads Threshold my_image n (FindMyLine_row Threshold my_image n s)
    else []

/-- The pixels `my_image[r][c]` that `Camera_FindMyLine` reads. -/
def Camera_FindMyLine_reads (Threshold : ℤ) (my_image : ℤ → ℤ) : List (ℤ × ℤ) :=
  FindMyLine_rows_reads Threshold my_image 70 Tracer.start

/-! ## Nothing else is read -/

section

variable {Threshold : ℤ} {row row' : ℤ → ℤ} {reads : ℤ → List ℤ} {hit hit' : ℤ → Bool} {r : Row}

/-- Two rows agree on the columns of a list.  The second row is any other one: the first is the one
    that the reads are listed for. -/
def Agree (row row' : ℤ → ℤ) (cs : List ℤ) : Prop := ∀ c ∈ cs, row' c = row c

/-- Reads come in sequence, so what agrees on all of them agrees on the first ones. -/
theorem Agree.left {cs cs' : List ℤ} (h : Agree row row' (cs ++ cs')) : Agree row row' cs :=
  fun c hc => h c (List.mem_append_left cs' hc)

/-- The later reads likewise. -/
theorem Agree.right {cs cs' : List ℤ} (h : Agree row row' (cs ++ cs')) : Agree row row' cs' :=
  fun c hc => h c (List.mem_append_right cs hc)

/-- What a test reads decides it: on a row that agrees on these columns it comes out the same. -/
def Decides (row row' : ℤ → ℤ) (reads : ℤ → List ℤ) (hit hit' : ℤ → Bool) : Prop :=
  ∀ j, Agree row row' (reads j) → hit' j = hit j

/-- `P && Q` with the second pixel read only where the first one passes. -/
theorem agree_and {P Q : ℤ → Prop} [DecidablePred P] [DecidablePred Q] {a b : ℤ}
    (h : Agree row row' (if P (row a) then [a, b] else [a])) :
    (decide (P (row' a)) && decide (Q (row' b))) = (decide (P (row a)) && decide (Q (row b))) := by
  by_cases ha : P (row a)
  · rw [if_pos ha] at h
    rw [h a List.mem_cons_self, h b (List.mem_cons_of_mem a List.mem_cons_self)]
  · rw [if_neg ha] at h
    rw [h a List.mem_cons_self, decide_eq_false ha, Bool.false_and, Bool.false_and]

theorem left_reads_decide :
    Decides row row' (left_reads Threshold row) (left_edge Threshold row)
      (left_edge Threshold row') := by
  intro j h
  rw [left_edge, left_edge]
  exact agree_and (P := (· > Threshold)) (Q := (· < Threshold)) h

theorem right_reads_decide :
    Decides row row' (right_reads Threshold row) (right_edge Threshold row)
      (right_edge Threshold row') := by
  intro j h
  rw [right_edge, right_edge]
  exact agree_and (P := (· < Threshold)) (Q := (· > Threshold)) h

theorem right_reads_behind_decide :
    Decides row row' (right_reads_behind Threshold row) (right_edge Threshold row)
      (right_edge Threshold row') := by
  intro j h
  rw [right_edge, right_edge, Bool.and_comm, Bool.and_comm (decide (row j < Threshold))]
  exact agree_and (P := (· > Threshold)) (Q := (· < Threshold)) h

/-- **A search depends on its reads only**: the pixels read at a column decide whether it is a hit,
    and only where it is none does the search come to the next column.  By induction on the columns
    that are left. -/
theorem seek_down_congr (hdec : Decides row row' reads hit hit') (low : ℤ) : ∀ (n : ℕ) (j : ℤ),
    Agree row row' (seek_down_reads reads hit low n j) →
      seek_down hit' low n j = seek_down hit low n j := by
  intro n
  induction n with
  | zero => exact fun j _ => rfl
  | succ n ih =>
    intro j h
    rw [seek_down_reads] at h
    rw [seek_down, seek_down, hdec j h.left]
    have hrest := h.right
    -- a hit ends both searches here; otherwise both go on, unless they are at `low`
    cases hhit : hit j with
    | true => rfl
    | false =>
      rw [hhit, if_neg Bool.false_ne_true] at hrest
      rw [if_neg Bool.false_ne_true, if_neg Bool.false_ne_true]
      by_cases hlow : j ≤ low
      · rw [if_pos hlow, if_pos hlow]
      · rw [if_neg hlow] at hrest
        rw [if_neg hlow, if_neg hlow]
        exact ih (j - 1) hrest

/-- A search that finds the same at every column it reads ends at the same column. -/
theorem seek_up_congr (hdec : Decides row row' reads hit hit') : ∀ (n : ℕ) (j : ℤ),
    Agree row row' (seek_up_reads reads hit n j) → seek_up hit' n j = seek_up hit n j := by
  intro n
  induction n with
  | zero => exact fun j _ => rfl
  | succ n ih =>
    intro j h
    rw [seek_up_reads] at h
    rw [seek_up, seek_up, hdec j h.left]
    have hrest := h.right
    cases hhit : hit j with
    | true => rfl
    | false =>
      rw [hhit, if_neg Bool.false_ne_true] at hrest
      rw [if_neg Bool.false_ne_true, if_neg Bool.false_ne_true]
      exact ih (j + 1) hrest

theorem black_right_congr (h : Agree row row' (black_right_reads Threshold row r)) :
    black_right Threshold row' r = black_right Threshold row r := by
  rw [black_right_reads] at h
  have hs := seek_up_congr left_reads_decide _ _ h.left
  have hrest := h.right
  simp only [black_right, hs]
  by_cases hend : (seek_up (left_edge Threshold row) (imgCol - (MID_COL - 1)).toNat
      (MID_COL - 1)).1 = imgCol
  · simp only [hend, ne_eq, not_true_eq_false, if_false]
  · rw [if_pos hend] at hrest
    rw [if_pos hend, if_pos hend, seek_up_congr right_reads_decide _ _ hrest]

theorem black_left_congr (h : Agree row row' (black_left_reads Threshold row r)) :
    black_left Threshold row' r = black_left Threshold row r := by
  rw [black_left_reads] at h
  have hs := seek_down_congr right_reads_behind_decide _ _ _ h.left
  have hrest := h.right
  simp only [black_left, hs]
  by_cases hend : (seek_down (right_edge Threshold row) 0 (MID_COL - 1).toNat (MID_COL - 1)).1 = 0
  · simp only [hend, ne_eq, not_true_eq_false, if_false]
  · rw [if_pos hend] at hrest
    rw [if_pos hend, if_pos hend, seek_down_congr left_reads_decide _ _ _ hrest]

/-- **The first row** depends on its reads only: the pixel in the middle chooses the searches, and
    each of them is decided by what it reads. -/
theorem first_row_congr (h : Agree row row' (first_row_reads Threshold row)) :
    first_row Threshold row' = first_row Threshold row := by
  rw [first_row_reads] at h
  have hmid : row' (MID_COL - 1) = row (MID_COL - 1) := h _ List.mem_cons_self
  have hrest : Agree row row' _ := fun c hc => h c (List.mem_cons_of_mem _ hc)
  rw [first_row, first_row, hmid]
  by_cases hbright : row (MID_COL - 1) ≥ Threshold
  · rw [if_pos hbright] at hrest
    rw [first_white_reads] at hrest
    rw [if_pos hbright, if_pos hbright, first_white, first_white,
      seek_down_congr left_reads_decide _ _ _ hrest.left,
      seek_up_congr right_reads_decide _ _ hrest.right]
  · rw [if_neg hbright] at hrest
    rw [if_neg hbright, if_neg hbright]
    simp only [first_black]
    rw [black_right_congr hrest.left, black_left_congr hrest.right]

/-- **A row above the first** likewise; which searches are made is settled by the row below. -/
theorem trace_row_congr {below : Row} (hl : Agree row row' (trace_left_reads Threshold row below))
    (hr : Agree row row' (trace_right_reads Threshold row below)) :
    trace_row Threshold row' below = trace_row Threshold row below := by
  have hleft : ∀ r, trace_left Threshold row' below r = trace_left Threshold row below r := by
    intro r
    rw [trace_left_eq, trace_left_eq, seek_down_congr left_reads_decide _ _ _ hl]
  rw [trace_row, trace_row, hleft, trace_right, trace_right]
  rw [trace_right_reads] at hr
  by_cases hright : below.right_add_flag = false
  · rw [if_pos hright] at hr
    rw [if_pos hright, if_pos hright]
    dsimp only
    rw [seek_up_congr right_reads_behind_decide _ _ hr]
  · rw [if_neg hright] at hr
    rw [if_neg hright, if_neg hright]
    by_cases hleft : below.left_add_flag = false
    · rw [if_pos hleft] at hr
      rw [if_pos hleft, if_pos hleft]
      dsimp only
      rw [seek_up_congr right_reads_decide _ _ hr]
    · rw [if_neg hleft] at hr
      rw [if_neg hleft, if_neg hleft]
      dsimp only
      rw [seek_up_congr right_reads_behind_decide _ _ hr]

/-- **The limit** looks at the image only where both borders are lost, and at column 135 only where
    column 25 is black. -/
theorem set_limit_congr {i : ℤ} {s : Tracer} (h : Agree row row' (set_limit_reads row (s.rows i) s)) :
    set_limit row' i s = set_limit row i s := by
  rw [set_limit_reads] at h
  simp only [set_limit]
  by_cases hl : (s.rows i).leftBroder ≤ (s.rows i).rightBroder ∧ (s.rows i).rightBroder ≤ 10 ∧
      s.Limit_Broder0 = 0
  · rw [if_pos hl, if_pos hl]
  · rw [if_neg hl] at h
    rw [if_neg hl, if_neg hl]
    by_cases hr : (s.rows i).rightBroder ≥ (s.rows i).leftBroder ∧ (s.rows i).leftBroder ≥ 150 ∧
        s.Limit_Broder1 = 0
    · rw [if_pos hr, if_pos hr]
    · rw [if_neg hr] at h
      rw [if_neg hr, if_neg hr]
      have hground : ((s.rows i).left_add_flag = true ∧ (s.rows i).right_add_flag = true ∧
          row' 25 = 0 ∧ row' 135 = 0) ↔ ((s.rows i).left_add_flag = true ∧
            (s.rows i).right_add_flag = true ∧ row 25 = 0 ∧ row 135 = 0) := by
        refine and_congr_right fun hl => and_congr_right fun hr => ?_
        rw [if_pos ⟨hl, hr⟩] at h
        by_cases h25 : row 25 = 0
        · rw [if_pos h25] at h
          rw [h 25 List.mem_cons_self, h 135 (List.mem_cons_of_mem 25 List.mem_cons_self)]
        · rw [if_neg h25] at h
          rw [h 25 List.mem_cons_self]
          exact and_congr_right fun h0 => absurd h0 h25
      simp only [hground]

end

section

variable {Threshold : ℤ} {my_image my_image' : ℤ → ℤ} {i : ℤ} {s : Tracer}

/-- **A pass** depends on its reads only.  The row must be found the same before `set_limit` can be
    compared, as its reads depend on the row. -/
theorem FindMyLine_row_congr (h : Agree (pixel my_image i) (pixel my_image' i)
    (FindMyLine_row_reads Threshold my_image i s)) :
    FindMyLine_row Threshold my_image' i s = FindMyLine_row Threshold my_image i s := by
  rw [FindMyLine_row_reads] at h
  have hfound : found_row Threshold my_image' i s = found_row Threshold my_image i s := by
    have hrow := h.left
    rw [found_row, found_row]
    by_cases hi : i = imgRow - 1
    · rw [if_pos hi] at hrow
      rw [if_pos hi, if_pos hi, first_row_congr hrow]
    · rw [if_neg hi] at hrow
      rw [if_neg hi, if_neg hi, trace_row_congr hrow.left hrow.right]
  -- what `set_limit` looks at is the row that has just been found
  have hself : Function.update s.rows i (found_row Threshold my_image i s) i =
      found_row Threshold my_image i s := Function.update_self ..
  have hpass : ∀ img, FindMyLine_row Threshold img i s =
      set_limit (pixel img i) i (s.found Threshold img i) := fun _ => rfl
  rw [hpass, hpass, Tracer.found, Tracer.found, hfound]
  apply set_limit_congr
  dsimp only
  rw [hself]
  exact h.right

/-- Images agree on a list of pixels. -/
def SamePixels (my_image my_image' : ℤ → ℤ) (reads : List (ℤ × ℤ)) : Prop :=
  ∀ a ∈ reads, pixel my_image' a.1 a.2 = pixel my_image a.1 a.2

/-- **A trace** depends on its reads only, by induction on the rows that are left; the reads of the
    later ones are listed from the state that the earlier ones leave. -/
theorem FindMyLine_rows_congr : ∀ (n : ℕ) (s : Tracer),
    SamePixels my_image my_image' (FindMyLine_rows_reads Threshold my_image n s) →
      FindMyLine_rows Threshold my_image' n s = FindMyLine_rows Threshold my_image n s := by
  intro n
  induction n with
  | zero => exact fun s _ => rfl
  | succ n ih =>
    intro s h
    rw [FindMyLine_rows_reads] at h
    rw [FindMyLine_rows, FindMyLine_rows]
    by_cases hopen : s.Open
    · rw [if_pos hopen] at h
      have hrow : FindMyLine_row Threshold my_image' n s = FindMyLine_row Threshold my_image n s :=
        FindMyLine_row_congr fun c hc =>
          h (n, c) (List.mem_append_left _ (List.mem_map_of_mem hc))
      rw [if_pos hopen, if_pos hopen, hrow]
      exact ih _ fun a ha => h a (List.mem_append_right _ ha)
    · rw [if_neg hopen, if_neg hopen]

/-- **Nothing else is read**: images that agree on the pixels read have the same borders.  So the
    list of reads is complete: were a pixel missing that the borders depend on, a change of it
    alone would refute this. -/
theorem Camera_FindMyLine_congr
    (h : SamePixels my_image my_image' (Camera_FindMyLine_reads Threshold my_image)) :
    Camera_FindMyLine Threshold my_image' = Camera_FindMyLine Threshold my_image := by
  simp only [Camera_FindMyLine]
  rw [FindMyLine_rows_congr 70 Tracer.start h]

/-! ## The runs of the trace -/

/-- What is read from a state that the trace reaches is among the reads of the whole trace, by
    induction on the way to it. -/
theorem Reaches.reads_sublist (h : Reaches Threshold my_image i s) :
    ∀ a ∈ FindMyLine_rows_reads Threshold my_image (i + 1).toNat s,
      a ∈ Camera_FindMyLine_reads Threshold my_image := by
  induction h with
  | first => exact fun a ha => ha
  | @next i s h hi hopen ih =>
    intro a ha
    apply ih
    -- the pass on row `i` comes first among the reads of what was left, and these are behind it
    have hsucc : (i + 1).toNat = (i - 1 + 1).toNat + 1 := by omega
    have hcast : (((i - 1 + 1).toNat : ℕ) : ℤ) = i := by omega
    rw [hsucc, FindMyLine_rows_reads, if_pos h.open, hcast]
    exact List.mem_append_right _ ha

/-- The other way: what is read at all is read by a pass on a row that the trace comes to, as it
    comes to the next row only while no limit is set. -/
theorem FindMyLine_rows_reads_reached : ∀ (n : ℕ) (s : Tracer),
    (s.Open → 1 ≤ n → Reaches Threshold my_image (n - 1) s) →
    ∀ a ∈ FindMyLine_rows_reads Threshold my_image n s,
      ∃ s, Reaches Threshold my_image a.1 s ∧
        a.2 ∈ FindMyLine_row_reads Threshold my_image a.1 s := by
  intro n
  induction n with
  | zero => exact fun s _ a ha => absurd ha List.not_mem_nil
  | succ n ih =>
    intro s hreach a ha
    rw [FindMyLine_rows_reads] at ha
    by_cases hopen : s.Open
    · have h := hreach hopen (by omega)
      push_cast at h
      rw [add_sub_cancel_right] at h
      rw [if_pos hopen, List.mem_append] at ha
      rcases ha with ha | ha
      · obtain ⟨c, hc, rfl⟩ := List.mem_map.mp ha
        exact ⟨s, h, hc⟩
      · exact ih _ (fun hnext hn => h.next (by omega) hnext) a ha
    · rw [if_neg hopen] at ha
      exact absurd ha List.not_mem_nil

/-- **The pixels read** are those of the passes on the rows that the trace comes to.  From here on
    a statement about all reads is one about a single pass, from any state that a trace reaches. -/
theorem mem_Camera_FindMyLine_reads (a : ℤ × ℤ) :
    a ∈ Camera_FindMyLine_reads Threshold my_image ↔
      ∃ s, Reaches Threshold my_image a.1 s ∧
        a.2 ∈ FindMyLine_row_reads Threshold my_image a.1 s := by
  constructor
  · exact FindMyLine_rows_reads_reached 70 Tracer.start (fun _ _ => Reaches.first) a
  · rintro ⟨s, h, hc⟩
    have hrange := h.range
    have hsucc : (a.1 + 1).toNat = a.1.toNat + 1 := by omega
    have hcast : ((a.1.toNat : ℕ) : ℤ) = a.1 := by omega
    -- the pass on this row is the first of those from its state on
    apply h.reads_sublist
    rw [hsucc, FindMyLine_rows_reads, if_pos h.open, hcast]
    exact List.mem_append_left _ (List.mem_map.mpr ⟨a.2, hc, rfl⟩)

end

/-! ## The reads of a pass -/

section

variable {Threshold : ℤ} {row : ℤ → ℤ} {reads : ℤ → List ℤ} {hit : ℤ → Bool} {r below : Row}

/-- Columns of the image. -/
def InRow (cs : List ℤ) : Prop := ∀ c ∈ cs, 0 ≤ c ∧ c ≤ 187

theorem InRow.append {cs cs' : List ℤ} : InRow (cs ++ cs') ↔ InRow cs ∧ InRow cs' :=
  List.forall_mem_append

theorem inRow_nil : InRow [] := fun _ hc => absurd hc List.not_mem_nil

/-- A test that reads a column and the one before it, or only one of the two. -/
def ReadsPair (reads : ℤ → List ℤ) : Prop := ∀ j, ∀ c ∈ reads j, c = j ∨ c = j - 1

theorem mem_pair_of_ite {p : Prop} [Decidable p] {a b c : ℤ}
    (h : c ∈ if p then [a, b] else [a]) : c = a ∨ c = b := by
  split_ifs at h
  · rcases List.mem_cons.mp h with heq | hb
    · exact Or.inl heq
    · exact Or.inr (List.mem_singleton.mp hb)
  · exact Or.inl (List.mem_singleton.mp h)

theorem left_reads_pair : ReadsPair (left_reads Threshold row) := fun _ _ => mem_pair_of_ite

theorem right_reads_pair : ReadsPair (right_reads Threshold row) := fun _ _ => mem_pair_of_ite

theorem right_reads_behind_pair : ReadsPair (right_reads_behind Threshold row) :=
  fun _ _ hc => (mem_pair_of_ite hc).symm

/-- From column 1 on both columns of a pair are in the image. -/
theorem ReadsPair.inRow (h : ReadsPair reads) {j : ℤ} (h1 : 1 ≤ j) (h187 : j ≤ 187) :
    InRow (reads j) := by
  intro c hc
  rcases h j c hc with rfl | rfl <;> omega

/-- **A search down** reads columns of the image, whatever it finds: it has as many columns left as
    lie between it and column 0, and the last one it comes to is column 1. -/
theorem seek_down_inRow (h : ReadsPair reads) (low : ℤ) : ∀ (n : ℕ) (j : ℤ), n ≤ j → j ≤ 187 →
    InRow (seek_down_reads reads hit low n j) := by
  intro n
  induction n with
  | zero => exact fun j _ _ => inRow_nil
  | succ n ih =>
    intro j hn hj
    push_cast at hn
    rw [seek_down_reads, InRow.append]
    refine ⟨h.inRow (by omega) hj, ?_⟩
    split_ifs
    · exact inRow_nil
    · exact inRow_nil
    · exact ih (j - 1) (by omega) (by omega)

/-- **A search up** does so from column 1 on.  At column 0 the pair of a test has column -1 in it,
    which is all that can go wrong. -/
theorem seek_up_inRow (h : ReadsPair reads) : ∀ (n : ℕ) (j : ℤ), 1 ≤ j → j + n ≤ 188 →
    InRow (seek_up_reads reads hit n j) := by
  intro n
  induction n with
  | zero => exact fun j _ _ => inRow_nil
  | succ n ih =>
    intro j h1 hn
    push_cast at hn
    rw [seek_up_reads, InRow.append]
    refine ⟨h.inRow h1 (by omega), ?_⟩
    split_ifs
    · exact inRow_nil
    · exact ih (j + 1) (by omega) (by omega)

theorem first_white_inRow : InRow (first_white_reads Threshold row) :=
  InRow.append.mpr ⟨seek_down_inRow left_reads_pair 0 _ _ (by decide) (by decide),
    seek_up_inRow right_reads_pair _ _ (by decide) (by decide)⟩

/-- The search for the other end of a strip starts where its first edge is, right of the middle. -/
theorem black_right_inRow : InRow (black_right_reads Threshold row r) := by
  obtain ⟨hge, hle, hhit⟩ := seek_up_range (left_edge Threshold row)
    (imgCol - (MID_COL - 1)).toNat (MID_COL - 1)
  have hend : MID_COL - 1 + ((imgCol - (MID_COL - 1)).toNat : ℤ) = imgCol := by decide
  have hmid : MID_COL - 1 = 93 := by decide
  rw [black_right_reads, InRow.append]
  refine ⟨seek_up_inRow left_reads_pair _ _ (by decide) (by decide), ?_⟩
  rw [hend] at hle hhit
  generalize seek_up (left_edge Threshold row) (imgCol - (MID_COL - 1)).toNat (MID_COL - 1) = s
    at hge hle hhit ⊢
  by_cases hs : s.1 ≠ imgCol
  · -- the first search has found a left edge, and the second one goes on from it
    rw [if_pos hs, if_pos (hhit.mpr hs)]
    dsimp only
    unfold imgCol at hle ⊢
    exact seek_up_inRow right_reads_pair _ _ (by omega) (by omega)
  · rw [if_neg hs]
    exact inRow_nil

/-- Here it starts left of an edge that is not in column 0, as the loop stops there without one. -/
theorem black_left_inRow : InRow (black_left_reads Threshold row r) := by
  obtain ⟨hge, hle, -⟩ := seek_down_range (right_edge Threshold row) 0 (MID_COL - 1).toNat
    (MID_COL - 1) (by decide)
  have hhit := seek_down_hit (right_edge Threshold row) (MID_COL - 1).toNat (MID_COL - 1)
    (by decide)
  have hmid : MID_COL - 1 = 93 := by decide
  rw [black_left_reads, InRow.append]
  refine ⟨seek_down_inRow right_reads_behind_pair 0 _ _ (by decide) (by decide), ?_⟩
  generalize seek_down (right_edge Threshold row) 0 (MID_COL - 1).toNat (MID_COL - 1) = s
    at hge hle hhit ⊢
  by_cases hs : s.1 ≠ 0
  · rw [if_pos hs, if_pos (hhit.mpr hs)]
    exact seek_down_inRow left_reads_pair 0 _ _ (by dsimp only; omega) (by dsimp only; omega)
  · rw [if_neg hs]
    exact inRow_nil

/-- **The first row** reads columns of the image: all its searches begin at the middle or behind an
    edge. -/
theorem first_row_inRow : InRow (first_row_reads Threshold row) := by
  have hmid : 0 ≤ MID_COL - 1 ∧ MID_COL - 1 ≤ 187 := by decide
  refine List.forall_mem_cons.mpr ⟨hmid, ?_⟩
  split_ifs
  · exact first_white_inRow
  · exact InRow.append.mpr ⟨black_right_inRow, black_left_inRow⟩

/-- The limit reads columns 25 and 135 only. -/
theorem set_limit_inRow {s : Tracer} : InRow (set_limit_reads row r s) := by
  have h25 : InRow [25] := by
    intro c hc
    rw [List.mem_singleton.mp hc]
    omega
  have h135 : InRow [25, 135] := by
    refine List.forall_mem_cons.mpr ⟨by omega, fun c hc => ?_⟩
    rw [List.mem_singleton.mp hc]
    omega
  rw [set_limit_reads]
  split_ifs
  · exact inRow_nil
  · exact inRow_nil
  · exact h135
  · exact h25
  · exact inRow_nil

/-- **The search for a left border** always reads columns of the image, as it ends at column 1. -/
theorem trace_left_inRow (h : below.InImage) : InRow (trace_left_reads Threshold row below) := by
  obtain ⟨h0, h1, h187⟩ := left_search_range h
  exact seek_down_inRow left_reads_pair _ _ _ (by omega) h187

/-- **The search that starts at column 0** reads column -1 exactly when column 0 is dark: a bright
    pixel fails the first half of `&&`, and from column 1 on nothing can go wrong. -/
theorem seek_up_zero_inRow {n : ℕ} (hn : n ≤ 187) :
    InRow (seek_up_reads (right_reads Threshold row) (right_edge Threshold row) (n + 1) 0) ↔
      ¬ row 0 < Threshold := by
  rw [seek_up_reads, InRow.append, right_reads]
  by_cases hdark : row 0 < Threshold
  · rw [if_pos hdark]
    refine iff_of_false (fun h => ?_) (not_not.mpr hdark)
    have hneg := (h.1 (0 - 1) (List.mem_cons_of_mem 0 List.mem_cons_self)).1
    omega
  · rw [if_neg hdark]
    refine iff_of_true ⟨?_, ?_⟩ hdark
    · intro c hc
      rw [List.mem_singleton.mp hc]
      omega
    · split_ifs
      · exact inRow_nil
      · exact seek_up_inRow right_reads_pair n 1 (le_refl 1) (by omega)

/-- **The search for a right border** reads columns of the image unless it starts there.  Of its
    three starts two are column 1 or more; the third is the left border of the row below, which is
    column 0 where the track leaves the image. -/
theorem trace_right_inRow (h : below.InImage) :
    InRow (trace_right_reads Threshold row below) ↔ ¬ Dangling Threshold row below := by
  have hl := h.left
  have hr := h.right
  rw [trace_right_reads]
  by_cases hright : below.right_add_flag = false
  · rw [if_pos hright]
    refine iff_of_true ?_ (fun hd => Bool.noConfusion (hright.symm.trans hd.2.2.1))
    simp only [range_line, imgCol]
    refine seek_up_inRow right_reads_behind_pair _ _ ?_ ?_
    · split_ifs <;> omega
    · split_ifs <;> omega
  · rw [if_neg hright]
    by_cases hleft : below.left_add_flag = false
    · rw [if_pos hleft]
      dsimp only
      -- the only start that can be column 0
      by_cases hzero : below.leftBroder = 0
      · have hlost : below.right_add_flag = true := (Bool.not_eq_false _).mp hright
        have hn : (imgCol - 0).toNat = 187 + 1 := by decide
        rw [hzero, hn, seek_up_zero_inRow (le_refl 187)]
        exact not_congr ⟨fun hdark => ⟨hzero, hleft, hlost, hdark⟩, fun hd => hd.2.2.2⟩
      · refine iff_of_true ?_ (fun hd => hzero hd.1)
        simp only [imgCol]
        exact seek_up_inRow right_reads_pair _ _ (by omega) (by omega)
    · rw [if_neg hleft]
      refine iff_of_true ?_ (fun hd => hleft hd.2.1)
      exact seek_up_inRow right_reads_behind_pair _ _ (by decide) (by decide)

end

/-- **One pass** reads pixels of the image unless it is on a row above the first and its search for the
    right border starts at column 0 on a dark pixel. -/
theorem FindMyLine_row_inRow {Threshold : ℤ} {my_image : ℤ → ℤ} {i : ℤ} {s : Tracer}
    (h : s.InImage) :
    InRow (FindMyLine_row_reads Threshold my_image i s) ↔
      (i ≠ 69 → ¬ Dangling Threshold (pixel my_image i) (s.rows (i + 1))) := by
  rw [FindMyLine_row_reads, InRow.append, and_iff_left set_limit_inRow]
  have h69 : imgRow - 1 = 69 := by decide
  rw [h69]
  by_cases hi : i = 69
  · rw [if_pos hi]
    exact iff_of_true first_row_inRow (fun hne => absurd hi hne)
  · rw [if_neg hi, InRow.append, and_iff_right (trace_left_inRow (h (i + 1))),
      trace_right_inRow (h (i + 1))]
    exact ⟨fun hd _ => hd, fun hd => hd hi⟩

/-- **Reads** — every pixel read is one of the image exactly when no search for a right border starts at
    column 0 on a dark pixel. -/
theorem Camera_FindMyLine_reads_iff (Threshold : ℤ) (my_image : ℤ → ℤ) :
    (∀ a ∈ Camera_FindMyLine_reads Threshold my_image,
      0 ≤ a.1 ∧ a.1 ≤ 69 ∧ 0 ≤ a.2 ∧ a.2 ≤ 187) ↔
    ∀ i s, Reaches Threshold my_image i s → i ≠ 69 →
      ¬ Dangling Threshold (pixel my_image i) (s.rows (i + 1)) := by
  constructor
  · intro h i s hs
    apply (FindMyLine_row_inRow hs.inImage).mp
    intro c hc
    exact (h (i, c) ((mem_Camera_FindMyLine_reads (i, c)).mpr ⟨s, hs, hc⟩)).2.2
  · intro h a ha
    obtain ⟨s, hs, hc⟩ := (mem_Camera_FindMyLine_reads a).mp ha
    have hrow := (FindMyLine_row_inRow hs.inImage).mpr (h a.1 s hs)
    exact ⟨hs.range.1, hs.range.2, hrow a.2 hc⟩

/-- Track everywhere but in column 0. -/
def columnImage (k : ℤ) : ℤ := if k % imgCol = 0 then 0 else 200

/-- The pass on row 68 reads its column -1. -/
theorem Camera_FindMyLine_reads_column :
    ¬ ∀ a ∈ Camera_FindMyLine_reads 100 columnImage,
      0 ≤ a.1 ∧ a.1 ≤ 69 ∧ 0 ≤ a.2 ∧ a.2 ≤ 187 := by
  intro h
  have hread : ((68, -1) : ℤ × ℤ) ∈ Camera_FindMyLine_reads 100 columnImage := by decide +kernel
  exact absurd (h (68, -1) hread).2.2.1 (by decide)

end Car2025
