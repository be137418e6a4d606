/-
  `PushBox_IsDirectionCorrect`: the verdict on an image, which lets the task push.

  1. **Program** — the image is made black and white at a threshold; of the strip at its left edge
     `Vision_CalSymRate` compares the pixels with their mirror pixels, and `Vision_CalBlackRate` counts
     the black ones.

  2. **Count** — both rates are counts of dark pixels, out of 2340.

  3. **Result (`ShouldPush_iff`)** — so the verdict is a matter of two counts.  An image that is light on
     both edges satisfies it.

  The task computes the threshold from the image, in single precision.  Nothing here depends on how: every
  statement is about any threshold, and a pixel is dark where the threshold in use makes it black.
-/
import Mathlib
import Car2025.Vision.SymRate

namespace Car2025

open Finset Count

/-! ## Program -/

/-- `for(int j = min_y;j<=max_y;j++) if(img_bwp[..] == 0) black++;` with `n` passes left. -/
def black_column (is_black : ℤ → Bool) : ℕ → ℤ → ℤ → ℤ
  | 0, _, black => black
  | n + 1, j, black => black_column is_black n (j + 1) (if is_black j then black + 1 else black)

/-- `for(int i = min_x;i<=max_x;i++)` with `n` passes left; each of them is a loop of `rows` passes. -/
def black_columns (is_black : ℤ → ℤ → Bool) (min_y : ℤ) (rows : ℕ) : ℕ → ℤ → ℤ → ℤ
  | 0, _, black => black
  | n + 1, i, black =>
    black_columns is_black min_y rows n (i + 1) (black_column (is_black i) rows min_y black)

/-- `Vision_CalBlackRate`; its `height` is not used. -/
def Vision_CalBlackRate (R : Type) [CFloat R] (img_bwp : ℤ → ℤ) (width : UInt16)
    (p1 p2 : point_t) : R :=
  let max_x := Tool_CmpMax p1.x p2.x
  let min_x := Tool_CmpMin p1.x p2.x
  let max_y := Tool_CmpMax p1.y p2.y
  let min_y := Tool_CmpMin p1.y p2.y
  let black := black_columns (fun i j => img_bwp (j * width.toNat + i) == 0) min_y
    (max_y - min_y + 1).toNat (max_x - min_x + 1).toNat min_x 0
  let total := (max_x - min_x + 1) * (max_y - min_y + 1)
  CFloat.ofInt black / CFloat.ofInt total

/-- `MT9V03X_W` and `MT9V03X_H` -/
def MT9V03X_W : UInt16 := 188
def MT9V03X_H : UInt16 := 120

/-- `PushBox_IsDirectionCorrect` on `push_img_bw`. -/
def PushBox_IsDirectionCorrect (R : Type) [CFloat R] (push_img_bw : ℤ → ℤ) : Bool :=
  let sys_rate : R := Vision_CalSymRate R push_img_bw MT9V03X_W MT9V03X_H ⟨0, 30⟩ ⟨25, 119⟩ true
  let left_black_rate : R := Vision_CalBlackRate R push_img_bw MT9V03X_W ⟨0, 30⟩ ⟨25, 119⟩
  CFloat.lt (CFloat.ofRat (82 / 100)) sys_rate && CFloat.lt left_black_rate (CFloat.ofRat (65 / 100))

/-- `push_img_bw` after its loops; `memory` is what lies around the array. -/
def push_img_bw (mt9v03x_image : ℕ → UInt8) (Threshold : ℤ) (memory : ℤ → ℤ) (k : ℤ) : ℤ :=
  if 0 ≤ k ∧ k < MT9V03X_H.toNat * MT9V03X_W.toNat then
    if (mt9v03x_image k.toNat).toNat > Threshold then 255 else 0
  else memory k

/-- `ShouldPush` in a pass of the loop that has an image, with the `Threshold` of that pass. -/
def ShouldPush (R : Type) [CFloat R] (mt9v03x_image : ℕ → UInt8) (Threshold : ℤ) (memory : ℤ → ℤ) :
    Bool :=
  PushBox_IsDirectionCorrect R (push_img_bw mt9v03x_image Threshold memory)

/-! ## Count -/

theorem black_column_eq (is_black : ℤ → Bool) : ∀ (n : ℕ) (j black : ℤ),
    black_column is_black n j black = black + #{k ∈ Ico j (j + n) | is_black k = true}
  | 0, j, black => by simp [black_column]
  | n + 1, j, black => by
    rw [black_column, Ico_eq_insert, card_filter_insert (by simp), black_column_eq]
    by_cases hblack : is_black j = true
    · rw [if_pos hblack, if_pos hblack, add_assoc]
    · rw [if_neg hblack, if_neg hblack, zero_add]

theorem black_columns_eq (is_black : ℤ → ℤ → Bool) (min_y : ℤ) (rows : ℕ) :
    ∀ (n : ℕ) (i black : ℤ), black_columns is_black min_y rows n i black =
      black + #{q ∈ Ico i (i + n) ×ˢ Ico min_y (min_y + rows) | is_black q.1 q.2 = true}
  | 0, i, black => by simp [black_columns]
  | n + 1, i, black => by
    rw [black_columns, black_column_eq, black_columns_eq is_black min_y rows n, card_filter_product,
      card_filter_product, Ico_eq_insert, sum_insert (by simp)]
    push_cast
    rw [add_assoc]

/-- **The black rate** is the part of the rectangle that is black: the two loops count its pixels
    one by one. -/
theorem Vision_CalBlackRate_eq (img : ℤ → ℤ) (width : UInt16) (p1 p2 : point_t) :
    Vision_CalBlackRate ℚ img width p1 p2 =
      (#{q ∈ rectangle p1 p2 | shade img width q = 0} : ℚ) / #(rectangle p1 p2) := by
  have hside : ∀ a b : ℤ, Ico (min a b) (min a b + (max a b - min a b + 1).toNat) =
      Icc (min a b) (max a b) := by
    intro a b
    ext k
    simp only [mem_Ico, mem_Icc]
    omega
  have hblack : #{q ∈ Icc (min p1.x p2.x) (max p1.x p2.x) ×ˢ Icc (min p1.y p2.y) (max p1.y p2.y) |
      (img (q.2 * width.toNat + q.1) == 0) = true} =
        #{q ∈ rectangle p1 p2 | shade img width q = 0} := by
    rw [rectangle, filter_map, card_map]
    congr 1
    exact filter_congr fun q _ => beq_iff_eq
  have htotal : (max p1.x p2.x - min p1.x p2.x + 1) * (max p1.y p2.y - min p1.y p2.y + 1) =
      #(rectangle p1 p2) := by
    rw [card_rectangle, pixels_between, max_sub_min_eq_abs, max_sub_min_eq_abs, abs_sub_comm,
      abs_sub_comm p2.y]
  simp only [Vision_CalBlackRate, Tool_CmpMax_eq, Tool_CmpMin_eq, htotal]
  rw [black_columns_eq, hside, hside, hblack, zero_add, CFloat.ofInt_rat, CFloat.ofInt_rat,
    Int.cast_natCast, Int.cast_natCast]

/-! ## The strip -/

/-- The strip that is judged. -/
noncomputable def strip : Finset point_t := rectangle ⟨0, 30⟩ ⟨25, 119⟩

theorem card_strip : (#strip) = 2340 := by
  have hcard := card_rectangle ⟨0, 30⟩ ⟨25, 119⟩
  rw [show pixels_between ⟨0, 30⟩ ⟨25, 119⟩ = 2340 by decide] at hcard
  exact_mod_cast hcard

theorem strip_inImage {q : point_t} (h : q ∈ strip) : q.InImage MT9V03X_W MT9V03X_H := by
  obtain ⟨⟨hx, hx'⟩, hy, hy'⟩ := mem_rectangle.mp h
  have hx0 : (0 : ℤ) ≤ q.x := hx
  have hx25 : q.x ≤ 25 := hx'
  have hy30 : (30 : ℤ) ≤ q.y := hy
  have hy119 : q.y ≤ 119 := hy'
  exact ⟨hx0, hx25.trans_lt (by decide), le_trans (by decide) hy30, hy119.trans_lt (by decide)⟩

/-- A pixel that is made black. -/
def Dark (mt9v03x_image : ℕ → UInt8) (Threshold : ℤ) (q : point_t) : Prop :=
  ((mt9v03x_image (q.y * MT9V03X_W.toNat + q.x).toNat).toNat : ℤ) ≤ Threshold

instance (mt9v03x_image : ℕ → UInt8) (Threshold : ℤ) : DecidablePred (Dark mt9v03x_image Threshold) :=
  fun _ => inferInstanceAs (Decidable (_ ≤ _))

/-- The pixel on the other edge. -/
def opposite (q : point_t) : point_t := q.mirror MT9V03X_W MT9V03X_H true

section

variable {mt9v03x_image : ℕ → UInt8} {Threshold : ℤ} {memory : ℤ → ℤ}

/-- The binarised copy at a pixel of the image: black where the image is dark at this threshold,
    white elsewhere. -/
theorem shade_push_img_bw {q : point_t} (h : q.InImage MT9V03X_W MT9V03X_H) :
    shade (push_img_bw mt9v03x_image Threshold memory) MT9V03X_W q =
      if Dark mt9v03x_image Threshold q then 0 else 255 := by
  have hw : (MT9V03X_W.toNat : ℤ) = 188 := by decide
  have hh : (MT9V03X_H.toNat : ℤ) = 120 := by decide
  obtain ⟨hx, hx', hy, hy'⟩ := h
  have hplace : 0 ≤ q.y * MT9V03X_W.toNat + q.x ∧
      q.y * MT9V03X_W.toNat + q.x < MT9V03X_H.toNat * MT9V03X_W.toNat := by
    rw [hw, hh] at *
    omega
  rw [shade, push_img_bw, if_pos hplace]
  split_ifs with h1 h2 h2
  · exact absurd h2 (not_le.mpr h1)
  · rfl
  · rfl
  · exact absurd (not_lt.mp h1) h2

/-- **The symmetry rate** counts the pixels of the strip that are as dark as their mirror pixels,
    as on the binary image two pixels are equal exactly where both are dark or neither is. -/
theorem card_mirrored_strip :
    #(mirrored (push_img_bw mt9v03x_image Threshold memory) MT9V03X_W MT9V03X_H true
        ⟨0, 30⟩ ⟨25, 119⟩) =
      #{q ∈ strip | Dark mt9v03x_image Threshold q ↔ Dark mt9v03x_image Threshold (opposite q)} := by
  rw [mirrored, ← strip]
  congr 1
  refine filter_congr fun q hq => ?_
  -- the strip and its mirror image lie in the array, so `memory` is not read
  have hin := strip_inImage hq
  rw [shade_push_img_bw hin, shade_push_img_bw hin.mirror, ← opposite]
  split_ifs with h1 h2 h2
  · exact iff_of_true rfl (iff_of_true h1 h2)
  · exact iff_of_false (by decide) fun h => h2 (h.mp h1)
  · exact iff_of_false (by decide) fun h => h1 (h.mpr h2)
  · exact iff_of_true rfl (iff_of_false h1 h2)

/-- **The black rate** counts the dark pixels, which are the black ones of the binary image. -/
theorem card_black_strip :
    #{q ∈ strip | shade (push_img_bw mt9v03x_image Threshold memory) MT9V03X_W q = 0} =
      #{q ∈ strip | Dark mt9v03x_image Threshold q} := by
  congr 1
  refine filter_congr fun q hq => ?_
  rw [shade_push_img_bw (strip_inImage hq)]
  split_ifs with h
  · exact iff_of_true rfl h
  · exact iff_of_false (by decide) h

end

/-! ## Result -/

/-- **The verdict** on every image, at every threshold: at least 1919 of the 2340 pixels of the strip are
    as dark as their mirror pixels, and at most 1520 of them are dark.  So an image with both edges light
    is one to push at, whatever is between them: the rates count pixels of the strip and of its mirror
    image, and never look at the rest. -/
theorem ShouldPush_iff (mt9v03x_image : ℕ → UInt8) (Threshold : ℤ) (memory : ℤ → ℤ) :
    (ShouldPush ℚ mt9v03x_image Threshold memory = true ↔
      1919 ≤ #{q ∈ strip | Dark mt9v03x_image Threshold q ↔ Dark mt9v03x_image Threshold (opposite q)} ∧
        #{q ∈ strip | Dark mt9v03x_image Threshold q} ≤ 1520) ∧
    ((∀ q ∈ strip, ¬ Dark mt9v03x_image Threshold q ∧ ¬ Dark mt9v03x_image Threshold (opposite q)) →
      ShouldPush ℚ mt9v03x_image Threshold memory = true) := by
  have hverdict : ShouldPush ℚ mt9v03x_image Threshold memory = true ↔
      1919 ≤ #{q ∈ strip | Dark mt9v03x_image Threshold q ↔ Dark mt9v03x_image Threshold (opposite q)} ∧
        #{q ∈ strip | Dark mt9v03x_image Threshold q} ≤ 1520 := by
    have hcorner : ∀ q : point_t, q ∈ strip → q.InImage MT9V03X_W MT9V03X_H := fun q hq =>
      strip_inImage hq
    have hsym := Vision_CalSymRate_eq (push_img_bw mt9v03x_image Threshold memory) true
      (hcorner ⟨0, 30⟩ (mem_rectangle.mpr ⟨⟨by decide, by decide⟩, by decide, by decide⟩))
      (hcorner ⟨25, 119⟩ (mem_rectangle.mpr ⟨⟨by decide, by decide⟩, by decide, by decide⟩))
      (by decide)
    have hblack := Vision_CalBlackRate_eq (push_img_bw mt9v03x_image Threshold memory) MT9V03X_W
      ⟨0, 30⟩ ⟨25, 119⟩
    rw [card_mirrored_strip, ← strip, card_strip] at hsym
    rw [← strip, card_black_strip, card_strip] at hblack
    rw [ShouldPush, PushBox_IsDirectionCorrect]
    simp only [hsym, hblack, Bool.and_eq_true, CFloat.lt_rat, CFloat.ofRat_rat]
    generalize #{q ∈ strip |
      Dark mt9v03x_image Threshold q ↔ Dark mt9v03x_image Threshold (opposite q)} = same
    generalize #{q ∈ strip | Dark mt9v03x_image Threshold q} = dark
    have h2340 : (0 : ℚ) < (2340 : ℕ) := by norm_num
    refine and_congr ?_ ?_
    · -- 1918.8 pixels
      rw [lt_div_iff₀ h2340]
      constructor
      · intro h
        have h : (1918 : ℚ) < same := by linarith
        exact_mod_cast h
      · intro h
        have h : (1919 : ℚ) ≤ same := by exact_mod_cast h
        linarith
    · -- 1521 pixels
      rw [div_lt_iff₀ h2340]
      constructor
      · intro h
        have h : (dark : ℚ) < 1521 := by linarith
        exact Nat.lt_succ_iff.mp (by exact_mod_cast h)
      · intro h
        have h : (dark : ℚ) ≤ 1520 := by exact_mod_cast h
        linarith
  refine ⟨hverdict, fun hlight => hverdict.mpr ⟨?_, ?_⟩⟩
  · rw [filter_true_of_mem fun q hq => iff_of_false (hlight q hq).1 (hlight q hq).2, card_strip]
    decide
  · rw [filter_false_of_mem fun q hq => (hlight q hq).1, card_empty]
    decide

end Car2025
