/-
  `Camera_FindMyLine`: the borders of an image, traced from row to row.

  1. **Data** — an image is memory seen through its pointer: `my_image[i][j]` is the cell
     `i * imgCol + j`, so column -1 of a row is column 187 of the row before, and column -1 of row 0
     lies before the array.  A row carries its two border columns and its two flags to the next one.

  2. **Program** — every search for an edge is a loop with a `break`; it is `seek_down` or `seek_up`
     with the test of its edge, and what a search sets is `set_left` or `set_right`.  The column
     bounds that the source computes and does not use are left out, and so is `MID_Table`, which
     `Vision_Handle` computes anew.

  3. **Image** — `Camera_PreProcess` writes the binary image; the threshold is a parameter.

  4. **Result (`Camera_FindMyLine_pixels`)** — the borders are columns of the image.
-/
import Mathlib
import Car2025.Vision.Corner
import Car2025.Vision.FeatureRows

namespace Car2025

/-- `MID_COL` -/
def MID_COL : ℤ := 94

/-- `range_line` -/
def range_line : ℤ := 10

/-- The pixel `my_image[i][j]`. -/
def pixel (my_image : ℤ → ℤ) (i j : ℤ) : ℤ := my_image (i * imgCol + j)

/-! ## Searches -/

/-- `my_image[i][j] > Threshold && my_image[i][j-1] < Threshold`: the track begins at column `j`. -/
def left_edge (Threshold : ℤ) (row : ℤ → ℤ) (j : ℤ) : Bool :=
  decide (row j > Threshold) && decide (row (j - 1) < Threshold)

/-- `my_image[i][j] < Threshold && my_image[i][j-1] > Threshold`: the track ends before column `j`. -/
def right_edge (Threshold : ℤ) (row : ℤ → ℤ) (j : ℤ) : Bool :=
  decide (row j < Threshold) && decide (row (j - 1) > Threshold)

/-- `for(;j>0;j--){ if(hit) break; if(j<=low) break; }` with `j` passes left: the column at the end,
    and whether it is a hit.  With `low = 0` the second test never breaks. -/
def seek_down (hit : ℤ → Bool) (low : ℤ) : ℕ → ℤ → ℤ × Bool
  | 0, j => (j, false)
  | n + 1, j =>
    if hit j then (j, true)
    else if j ≤ low then (j, false)
    else seek_down hit low n (j - 1)

/-- `for(;j<bound;j++){ if(hit) break; }` with `bound - j` passes left. -/
def seek_up (hit : ℤ → Bool) : ℕ → ℤ → ℤ × Bool
  | 0, j => (j, false)
  | n + 1, j => if hit j then (j, true) else seek_up hit n (j + 1)

/-! ## Rows -/

/-- What is kept of a row: `Image_S.leftBroder[i]`, `Image_S.rightBroder[i]` and the flags. -/
@[ext] structure Row where
  leftBroder : ℤ
  rightBroder : ℤ
  left_add_flag : Bool
  right_add_flag : Bool
  deriving DecidableEq, Repr

/-- A row as the first loop clears it. -/
def Row.cleared : Row := ⟨0, imgCol - 1, false, false⟩

/-- What a search for the left border sets: the column before a hit; nothing is left of it where the
    search ends at `last`. -/
def set_left (last : ℤ) (s : ℤ × Bool) (row : Row) : Row :=
  let row := if s.2 then { row with leftBroder := s.1 - 1, left_add_flag := false } else row
  if s.1 = last then { row with leftBroder := 0, left_add_flag := true } else row

/-- What a search for the right border sets. -/
def set_right (last : ℤ) (s : ℤ × Bool) (row : Row) : Row :=
  let row := if s.2 then { row with rightBroder := s.1, right_add_flag := false } else row
  if s.1 = last then { row with rightBroder := imgCol - 1, right_add_flag := true } else row

section

variable (Threshold : ℤ) (row : ℤ → ℤ)

/-- The first row, with a white pixel in the middle. -/
def first_white : Row :=
  set_right imgCol
    (seek_up (right_edge Threshold row) (imgCol - (MID_COL - 1)).toNat (MID_COL - 1))
    (set_left 0 (seek_down (left_edge Threshold row) 0 (MID_COL - 1).toNat (MID_COL - 1))
      Row.cleared)

/-- The scan to the right of a black middle: a strip of track, and where it ends. -/
def black_right (r : Row) : Row :=
  let s := seek_up (left_edge Threshold row) (imgCol - (MID_COL - 1)).toNat (MID_COL - 1)
  let r := if s.2 then { r with leftBroder := s.1 - 1 } else r
  if s.1 ≠ imgCol then
    let w := r.leftBroder + 1
    let s := seek_up (right_edge Threshold row) (imgCol - w).toNat w
    let r := if s.2 then { r with rightBroder := s.1 } else r
    if s.1 = imgCol then { r with rightBroder := imgCol - 1, right_add_flag := true } else r
  else r

/-- The scan to the left of a black middle, which is kept where both find a strip. -/
def black_left (r : Row) : Row :=
  let s := seek_down (right_edge Threshold row) 0 (MID_COL - 1).toNat (MID_COL - 1)
  let r := if s.2 then { r with rightBroder := s.1 } else r
  if s.1 ≠ 0 then
    let w := r.rightBroder - 1
    let s := seek_down (left_edge Threshold row) 0 w.toNat w
    let r := if s.2 then { r with leftBroder := s.1 } else r
    if s.1 = 0 then { r with leftBroder := 1, left_add_flag := true } else r
  else r

/-- The first row, with a black pixel in the middle. -/
def first_black : Row :=
  let r := black_left Threshold row (black_right Threshold row Row.cleared)
  let r := if r.leftBroder = 0 then { r with left_add_flag := true } else r
  if r.rightBroder = 0 then { r with right_add_flag := true } else r

/-- The row next to the car. -/
def first_row : Row :=
  if row (MID_COL - 1) ≥ Threshold then first_white Threshold row else first_black Threshold row

/-- The left border of the next row. -/
def trace_left (below r : Row) : Row :=
  if below.left_add_flag = false then
    let j := if below.leftBroder + range_line > imgCol - 1 then imgCol - 1
      else below.leftBroder + range_line
    set_left 3 (seek_down (left_edge Threshold row) 3 j.toNat j) r
  else if below.right_add_flag = false then
    let j := below.rightBroder
    set_left 0 (seek_down (left_edge Threshold row) 0 j.toNat j) r
  else
    let j := MID_COL - 1
    set_left 3 (seek_down (left_edge Threshold row) 3 j.toNat j) r

/-- The right border of the next row. -/
def trace_right (below r : Row) : Row :=
  if below.right_add_flag = false then
    let j := if below.rightBroder - range_line ≤ 1 then 1 else below.rightBroder - range_line
    set_right (imgCol - 1) (seek_up (right_edge Threshold row) (imgCol - 1 - j).toNat j) r
  else if below.left_add_flag = false then
    let j := below.leftBroder
    set_right imgCol (seek_up (right_edge Threshold row) (imgCol - j).toNat j) r
  else
    let j := MID_COL - 1
    set_right imgCol (seek_up (right_edge Threshold row) (imgCol - j).toNat j) r

/-- The next row. -/
def trace_row (below : Row) : Row :=
  trace_right Threshold row below (trace_left Threshold row below Row.cleared)

end

/-! ## The image -/

/-- The variables of the trace; row `r` of `Image_S` and of the flags is `rows r`. -/
structure Tracer where
  rows : ℤ → Row
  Limit_Broder0 : ℤ
  Limit_Broder1 : ℤ
  Limit_Broder2 : ℤ

/-- The variables after the first loop. -/
def Tracer.start : Tracer := ⟨fun _ => Row.cleared, 0, 0, 0⟩

/-- `Limit_Broder[0]==0 && Limit_Broder[1]==0 && Limit_Broder[2]==0` -/
def Tracer.Open (s : Tracer) : Prop :=
  s.Limit_Broder0 = 0 ∧ s.Limit_Broder1 = 0 ∧ s.Limit_Broder2 = 0

instance (s : Tracer) : Decidable s.Open := inferInstanceAs (Decidable (_ ∧ _))

/-- The limits after row `i`: the track leaves the image to the left or to the right, or it is lost
    on black ground or closes. -/
def set_limit (row : ℤ → ℤ) (i : ℤ) (s : Tracer) : Tracer :=
  let r := s.rows i
  if r.leftBroder ≤ r.rightBroder ∧ r.rightBroder ≤ 10 ∧ s.Limit_Broder0 = 0 then
    { s with Limit_Broder0 := i }
  else if r.rightBroder ≥ r.leftBroder ∧ r.leftBroder ≥ 150 ∧ s.Limit_Broder1 = 0 then
    { s with Limit_Broder1 := i }
  else if (r.left_add_flag = true ∧ r.right_add_flag = true ∧ row 25 = 0 ∧ row 135 = 0) ∨
      r.leftBroder > r.rightBroder - 6 then
    { s with Limit_Broder2 := i }
  else s

/-- One pass of the trace, on row `i`. -/
def FindMyLine_row (Threshold : ℤ) (my_image : ℤ → ℤ) (i : ℤ) (s : Tracer) : Tracer :=
  let r := if i = imgRow - 1 then first_row Threshold (pixel my_image i)
    else trace_row Threshold (pixel my_image i) (s.rows (i + 1))
  set_limit (pixel my_image i) i { s with rows := Function.update s.rows i r }

/-- `for(i=limit;i>=0;i--)`: nothing is seen from row `limit` on; `n` rows from row `i` down. -/
def lose_far : ℕ → ℤ → (ℤ → Row) → ℤ → Row
  | 0, _, rows => rows
  | n + 1, i, rows =>
    lose_far n (i - 1)
      (Function.update rows i { rows i with leftBroder := 0, rightBroder := imgCol - 1 })

/-- The rows from each limit on are given up. -/
def Tracer.give_up (s : Tracer) : Tracer :=
  let rows := lose_far (s.Limit_Broder0 + 1).toNat s.Limit_Broder0 s.rows
  let rows := lose_far (s.Limit_Broder1 + 1).toNat s.Limit_Broder1 rows
  { s with rows := lose_far (s.Limit_Broder2 + 1).toNat s.Limit_Broder2 rows }

/-- The passes for the rows `n - 1, …, 0`.  Giving up leaves the row counter below 0. -/
def FindMyLine_rows (Threshold : ℤ) (my_image : ℤ → ℤ) : ℕ → Tracer → Tracer
  | 0, s => s
  | n + 1, s =>
    if s.Open then
      FindMyLine_rows Threshold my_image n (FindMyLine_row Threshold my_image n s)
    else s.give_up

/-- `Camera_FindMyLine` -/
def Camera_FindMyLine (Threshold : ℤ) (my_image : ℤ → ℤ) : Image :=
  let s := FindMyLine_rows Threshold my_image 70 Tracer.start
  ⟨fun r => (s.rows r).leftBroder, fun r => (s.rows r).rightBroder⟩

/-- `my_image_BW` after `Camera_PreProcess`; `memory` is what lies around the array. -/
def Camera_PreProcess (Threshold : ℤ) (my_image memory : ℤ → ℤ) (k : ℤ) : ℤ :=
  if 0 ≤ k ∧ k < imgRow * imgCol then (if my_image k > Threshold then 255 else 0) else memory k

/-! ## The borders are columns of the image -/

/-- The columns that a search down can end at. -/
theorem seek_down_range (hit : ℤ → Bool) (low : ℤ) : ∀ (n : ℕ) (j : ℤ), n ≤ j →
    0 ≤ (seek_down hit low n j).1 ∧ (seek_down hit low n j).1 ≤ j ∧
      ((seek_down hit low n j).2 = true → 1 ≤ (seek_down hit low n j).1) := by
  intro n
  induction n with
  | zero =>
    intro j hj
    exact ⟨hj, le_refl j, fun h => Bool.noConfusion h⟩
  | succ n ih =>
    intro j hj
    push_cast at hj
    rw [seek_down]
    by_cases hhit : hit j = true
    · rw [if_pos hhit]
      exact ⟨by dsimp only; omega, le_refl j, fun _ => by dsimp only; omega⟩
    · rw [if_neg hhit]
      by_cases hlow : j ≤ low
      · rw [if_pos hlow]
        exact ⟨by dsimp only; omega, le_refl j, fun _ => by dsimp only; omega⟩
      · rw [if_neg hlow]
        obtain ⟨h0, h1, h2⟩ := ih (j - 1) (by omega)
        exact ⟨h0, by omega, h2⟩

/-- A search down to column 1 ends at column 0 exactly when it has no hit. -/
theorem seek_down_hit (hit : ℤ → Bool) : ∀ (n : ℕ) (j : ℤ), j = n →
    ((seek_down hit 0 n j).2 = true ↔ (seek_down hit 0 n j).1 ≠ 0) := by
  intro n
  induction n with
  | zero =>
    intro j hj
    exact ⟨fun h => Bool.noConfusion h, fun h => absurd hj h⟩
  | succ n ih =>
    intro j hj
    push_cast at hj
    rw [seek_down]
    by_cases hhit : hit j = true
    · rw [if_pos hhit]
      exact ⟨fun _ => by dsimp only; omega, fun _ => rfl⟩
    · rw [if_neg hhit, if_neg (by omega)]
      exact ih (j - 1) (by omega)

/-- The columns that a search up can end at; where it ends before the last one it has a hit. -/
theorem seek_up_range (hit : ℤ → Bool) : ∀ (n : ℕ) (j : ℤ),
    j ≤ (seek_up hit n j).1 ∧ (seek_up hit n j).1 ≤ j + n ∧
      ((seek_up hit n j).2 = true ↔ (seek_up hit n j).1 ≠ j + n) := by
  intro n
  induction n with
  | zero =>
    intro j
    have hend : (seek_up hit 0 j).1 = j + (0 : ℕ) := (add_zero j).symm
    exact ⟨le_refl j, hend.le, fun h => Bool.noConfusion h, fun h => absurd hend h⟩
  | succ n ih =>
    intro j
    rw [seek_up]
    by_cases hhit : hit j = true
    · rw [if_pos hhit]
      exact ⟨le_refl j, by push_cast; omega, fun _ => by push_cast; omega, fun _ => rfl⟩
    · rw [if_neg hhit]
      obtain ⟨h0, h1, h2⟩ := ih (j + 1)
      push_cast
      exact ⟨by omega, by omega, h2.trans (by rw [add_assoc, add_comm 1 (n : ℤ)])⟩

/-- Both borders of a row are columns of the image. -/
structure Row.InImage (r : Row) : Prop where
  left : 0 ≤ r.leftBroder ∧ r.leftBroder ≤ 187
  right : 0 ≤ r.rightBroder ∧ r.rightBroder ≤ 187

theorem Row.cleared_inImage : Row.cleared.InImage := ⟨by decide, by decide⟩

section

variable {Threshold : ℤ} {row : ℤ → ℤ} {r below : Row}

/-- A choice between two rows. -/
theorem Row.InImage.choice {c : Prop} [Decidable c] {r' : Row} (h : c → r.InImage)
    (h' : ¬ c → r'.InImage) : (if c then r else r').InImage :=
  iteInduction (motive := Row.InImage) h h'

theorem set_left_inImage {hit : ℤ → Bool} {low last j : ℤ} (hj : 0 ≤ j ∧ j ≤ 187)
    (h : r.InImage) : (set_left last (seek_down hit low j.toNat j) r).InImage := by
  obtain ⟨h0, h1, h2⟩ := seek_down_range hit low j.toNat j (by omega)
  have h0' : (0 : ℤ) ≤ 0 ∧ (0 : ℤ) ≤ 187 := by omega
  simp only [set_left]
  generalize seek_down hit low j.toNat j = s at h0 h1 h2 ⊢
  have hset : (if s.2 then { r with leftBroder := s.1 - 1, left_add_flag := false } else r :
      Row).InImage := by
    refine Row.InImage.choice (fun hs => ⟨?_, h.right⟩) (fun _ => h)
    have hpos := h2 hs
    dsimp only
    omega
  exact Row.InImage.choice (fun _ => ⟨h0', hset.right⟩) (fun _ => hset)

/-- A search to the right, from a column of the image, sets a column of the image. -/
theorem set_right_inImage {hit : ℤ → Bool} {last j : ℤ} (h0 : 0 ≤ j) (hlast : last ≤ 188)
    (hj : j ≤ last) (h : r.InImage) :
    (set_right last (seek_up hit (last - j).toNat j) r).InImage := by
  obtain ⟨h1, h2, h3⟩ := seek_up_range hit (last - j).toNat j
  have h187 : 0 ≤ imgCol - 1 ∧ imgCol - 1 ≤ 187 := by decide
  simp only [set_right]
  generalize seek_up hit (last - j).toNat j = s at h1 h2 h3 ⊢
  have hleft : 0 ≤ (if s.2 then { r with rightBroder := s.1, right_add_flag := false } else r :
      Row).leftBroder ∧ (if s.2 then { r with rightBroder := s.1, right_add_flag := false } else r :
      Row).leftBroder ≤ 187 :=
    iteInduction (motive := fun r : Row => 0 ≤ r.leftBroder ∧ r.leftBroder ≤ 187)
      (fun _ => h.left) (fun _ => h.left)
  refine Row.InImage.choice (fun _ => ⟨hleft, h187⟩) (fun hs => ?_)
  rw [if_pos (h3.mpr (by omega))]
  refine ⟨h.left, ?_⟩
  dsimp only
  omega

theorem first_white_inImage : (first_white Threshold row).InImage :=
  set_right_inImage (by decide) (by decide) (by decide)
    (set_left_inImage (by decide) Row.cleared_inImage)

theorem black_right_inImage (h : r.InImage) : (black_right Threshold row r).InImage := by
  obtain ⟨h1, h2, h3⟩ := seek_up_range (left_edge Threshold row)
    (imgCol - (MID_COL - 1)).toNat (MID_COL - 1)
  have hend : MID_COL - 1 + ((imgCol - (MID_COL - 1)).toNat : ℤ) = 188 := by decide
  have h187 : 0 ≤ imgCol - 1 ∧ imgCol - 1 ≤ 187 := by decide
  unfold black_right
  generalize seek_up (left_edge Threshold row) (imgCol - (MID_COL - 1)).toNat (MID_COL - 1) = s
    at h1 h2 h3 ⊢
  rw [hend] at h2 h3
  unfold MID_COL at h1
  dsimp only
  by_cases hs : s.1 = imgCol
  · rw [if_neg (not_not.mpr hs), if_neg (fun hhit => h3.mp hhit hs)]
    exact h
  · rw [if_pos hs, if_pos (h3.mpr hs)]
    obtain ⟨h1', h2', h3'⟩ := seek_up_range (right_edge Threshold row)
      (imgCol - (s.1 - 1 + 1)).toNat (s.1 - 1 + 1)
    generalize seek_up (right_edge Threshold row) (imgCol - (s.1 - 1 + 1)).toNat (s.1 - 1 + 1) = w
      at h1' h2' h3' ⊢
    simp only [imgCol] at h2' h3' hs
    have hleft : 0 ≤ s.1 - 1 ∧ s.1 - 1 ≤ 187 := by omega
    have hset : (if w.2 then { { r with leftBroder := s.1 - 1 } with rightBroder := w.1 }
        else { r with leftBroder := s.1 - 1 } : Row).InImage := by
      refine Row.InImage.choice (fun hw => ⟨hleft, ?_⟩) (fun _ => ⟨hleft, h.right⟩)
      have hlt := h3'.mp hw
      dsimp only
      omega
    exact Row.InImage.choice (fun _ => ⟨hset.left, h187⟩) (fun _ => hset)

theorem black_left_inImage (h : r.InImage) : (black_left Threshold row r).InImage := by
  obtain ⟨h0, h1, -⟩ := seek_down_range (right_edge Threshold row) 0
    (MID_COL - 1).toNat (MID_COL - 1) (by decide)
  have h2 := seek_down_hit (right_edge Threshold row) (MID_COL - 1).toNat (MID_COL - 1)
    (by omega)
  have hone : (0 : ℤ) ≤ 1 ∧ (1 : ℤ) ≤ 187 := by omega
  unfold black_left
  generalize seek_down (right_edge Threshold row) 0 (MID_COL - 1).toNat (MID_COL - 1) = s
    at h0 h1 h2 ⊢
  unfold MID_COL at h1
  dsimp only
  by_cases hs : s.1 = 0
  · rw [if_neg (not_not.mpr hs), if_neg (fun hhit => h2.mp hhit hs)]
    exact h
  · rw [if_pos hs, if_pos (h2.mpr hs)]
    obtain ⟨h0', h1', -⟩ := seek_down_range (left_edge Threshold row) 0
      (s.1 - 1).toNat (s.1 - 1) (by omega)
    generalize seek_down (left_edge Threshold row) 0 (s.1 - 1).toNat (s.1 - 1) = w at h0' h1' ⊢
    have hright : 0 ≤ s.1 ∧ s.1 ≤ 187 := by omega
    have hset : (if w.2 then { { r with rightBroder := s.1 } with leftBroder := w.1 }
        else { r with rightBroder := s.1 } : Row).InImage := by
      refine Row.InImage.choice (fun _ => ⟨?_, hright⟩) (fun _ => ⟨h.left, hright⟩)
      dsimp only
      omega
    exact Row.InImage.choice (fun _ => ⟨hone, hset.right⟩) (fun _ => hset)

theorem first_row_inImage : (first_row Threshold row).InImage := by
  refine Row.InImage.choice (fun _ => first_white_inImage) (fun _ => ?_)
  have hr : (black_left Threshold row (black_right Threshold row Row.cleared)).InImage :=
    black_left_inImage (black_right_inImage Row.cleared_inImage)
  have hl := Row.InImage.choice (c := (black_left Threshold row
    (black_right Threshold row Row.cleared)).leftBroder = 0)
    (r := { black_left Threshold row (black_right Threshold row Row.cleared) with
      left_add_flag := true }) (fun _ => ⟨hr.left, hr.right⟩) (fun _ => hr)
  exact Row.InImage.choice (fun _ => ⟨hl.left, hl.right⟩) (fun _ => hl)

/-- A traced row stays in the image: both searches are clipped to it at either end. -/
theorem trace_row_inImage (h : below.InImage) : (trace_row Threshold row below).InImage := by
  have hl := h.left
  have hr := h.right
  have hleft : (trace_left Threshold row below Row.cleared).InImage := by
    refine Row.InImage.choice (fun _ => set_left_inImage ?_ Row.cleared_inImage) (fun _ => ?_)
    · simp only [range_line, imgCol]
      split_ifs <;> omega
    · exact Row.InImage.choice (fun _ => set_left_inImage hr Row.cleared_inImage)
        (fun _ => set_left_inImage (by decide) Row.cleared_inImage)
  refine Row.InImage.choice (fun _ => ?_) (fun _ => ?_)
  · refine set_right_inImage ?_ (by decide) ?_ hleft
    · simp only [range_line]
      split_ifs <;> omega
    · simp only [range_line, imgCol]
      split_ifs <;> omega
  · refine Row.InImage.choice (fun _ => ?_) (fun _ => ?_)
    · exact set_right_inImage hl.1 (by decide) (by unfold imgCol; omega) hleft
    · exact set_right_inImage (by decide) (by decide) (by decide) hleft

/-- Every row of the trace is in the image. -/
def Tracer.InImage (s : Tracer) : Prop := ∀ i, (s.rows i).InImage

theorem set_limit_rows (i : ℤ) (s : Tracer) : (set_limit row i s).rows = s.rows := by
  unfold set_limit
  dsimp only
  split_ifs <;> rfl

end

/-- **One pass** keeps the rows in the image: every search starts at a column of it, and so ends at
    one. -/
theorem FindMyLine_row_inImage {Threshold : ℤ} {my_image : ℤ → ℤ} {i : ℤ} {s : Tracer}
    (h : s.InImage) : (FindMyLine_row Threshold my_image i s).InImage := by
  intro j
  rw [FindMyLine_row, set_limit_rows]
  dsimp only
  by_cases hj : j = i
  · rw [hj, Function.update_self]
    exact Row.InImage.choice (fun _ => first_row_inImage) (fun _ => trace_row_inImage (h (i + 1)))
  · rw [Function.update_of_ne hj]
    exact h j

/-- Lost rows hold the outermost columns. -/
theorem lose_far_inImage : ∀ (n : ℕ) (i : ℤ) (rows : ℤ → Row), (∀ j, (rows j).InImage) →
    ∀ j, (lose_far n i rows j).InImage := by
  intro n
  induction n with
  | zero => exact fun i rows h => h
  | succ n ih =>
    intro i rows h
    have h0 : (0 : ℤ) ≤ 0 ∧ (0 : ℤ) ≤ 187 := by omega
    have h187 : 0 ≤ imgCol - 1 ∧ imgCol - 1 ≤ 187 := by decide
    apply ih (i - 1) _
    intro j
    by_cases hj : j = i
    · rw [hj, Function.update_self]
      exact ⟨h0, h187⟩
    · rw [Function.update_of_ne hj]
      exact h j

theorem FindMyLine_rows_inImage {Threshold : ℤ} {my_image : ℤ → ℤ} : ∀ (n : ℕ) (s : Tracer),
    s.InImage → (FindMyLine_rows Threshold my_image n s).InImage := by
  intro n
  induction n with
  | zero => exact fun s h => h
  | succ n ih =>
    intro s h
    rw [FindMyLine_rows]
    by_cases hopen : s.Open
    · rw [if_pos hopen]
      exact ih _ (FindMyLine_row_inImage h)
    · rw [if_neg hopen]
      exact lose_far_inImage _ _ _ (lose_far_inImage _ _ _ (lose_far_inImage _ _ _ h))

/-- **The trace** finds columns of the image, on any image and with any threshold, by induction on
    the passes. -/
theorem Camera_FindMyLine_pixels (Threshold : ℤ) (my_image : ℤ → ℤ) :
    Pixels (Camera_FindMyLine Threshold my_image).leftBroder ∧
      Pixels (Camera_FindMyLine Threshold my_image).rightBroder := by
  have h : (FindMyLine_rows Threshold my_image 70 Tracer.start).InImage :=
    FindMyLine_rows_inImage 70 Tracer.start (fun _ => Row.cleared_inImage)
  exact ⟨fun i _ _ => (h i).left, fun i _ _ => (h i).right⟩

end Car2025
