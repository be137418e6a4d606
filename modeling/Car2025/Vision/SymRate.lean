/-
  `Vision_CalSymRate`: how much of a rectangle looks like its mirror image.

  1. **Program** — two loops count the pixels that equal their mirror pixels, in 16 bits, and the two
     modes compute the place of a mirror pixel separately.  The index of a pixel is not bounded.

  2. **Count** — a rectangle of fewer than 65536 pixels is counted exactly.

  3. **Rate (`Vision_CalSymRate_mirror`)** — so the rate is a part of the rectangle, the whole of it
     exactly for mirror images, and it is the rate of the reflected rectangle.
-/
import Mathlib
import Car2025.Lib.Count
import Car2025.UserMath

namespace Car2025

open Finset Count

/-! ## Program -/

/-- The conversion to `uint16_t`. -/
def uint16 (x : ℤ) : ℤ := x % 2 ^ 16

/-- `for(;j <= max_y;j++) if(same) sys_p_n++;` with `n` passes left. -/
def sym_column (same : ℤ → Bool) : ℕ → ℤ → ℤ → ℤ
  | 0, _, sys_p_n => sys_p_n
  | n + 1, j, sys_p_n =>
    sym_column same n (j + 1) (if same j then uint16 (sys_p_n + 1) else sys_p_n)

/-- `for(;i<=max_x;i++)` with `n` passes left; each of them is a loop of `rows` passes. -/
def sym_columns (same : ℤ → ℤ → Bool) (min_y : ℤ) (rows : ℕ) : ℕ → ℤ → ℤ → ℤ
  | 0, _, sys_p_n => sys_p_n
  | n + 1, i, sys_p_n =>
    sym_columns same min_y rows n (i + 1) (sym_column (same i) rows min_y sys_p_n)

/-- The comparison of a pixel with its mirror pixel.  Here `x` is a column and `y` a row. -/
def same_pixel (img : ℤ → ℤ) (width height : UInt16) (ud_or_lr : Bool) (i j : ℤ) : Bool :=
  if ud_or_lr then img (j * width.toNat + i) == img (j * width.toNat + width.toNat - i - 1)
  else img (j * width.toNat + i) == img ((height.toNat - j - 1) * width.toNat + i)

/-- `Vision_CalSymRate` -/
def Vision_CalSymRate (R : Type) [CFloat R] (img : ℤ → ℤ) (width height : UInt16) (p1 p2 : point_t)
    (ud_or_lr : Bool) : R :=
  let max_x := uint16 (Tool_CmpMax p1.x p2.x)
  let min_x := uint16 (Tool_CmpMin p1.x p2.x)
  let max_y := uint16 (Tool_CmpMax p1.y p2.y)
  let min_y := uint16 (Tool_CmpMin p1.y p2.y)
  let total_n := uint16 ((max_x - min_x + 1) * (max_y - min_y + 1))
  let sys_p_n := sym_columns (same_pixel img width height ud_or_lr) min_y (max_y - min_y + 1).toNat
    (max_x - min_x + 1).toNat min_x 0
  CFloat.ofInt sys_p_n / CFloat.ofInt total_n

/-! ## Count -/

section

variable {column : ℤ → Bool}

theorem uint16_of_lt {x : ℤ} (h0 : 0 ≤ x) (h1 : x < 65536) : uint16 x = x := by
  unfold uint16
  omega

theorem uint16_add (x y : ℤ) : uint16 (uint16 x + y) = uint16 (x + y) := by
  unfold uint16
  omega

theorem sym_column_eq : ∀ (n : ℕ) (j sys_p_n : ℤ), sym_column column n j (uint16 sys_p_n) =
    uint16 (sys_p_n + #{k ∈ Ico j (j + n) | column k = true})
  | 0, j, sys_p_n => by simp [sym_column]
  | n + 1, j, sys_p_n => by
    rw [sym_column, Ico_eq_insert, card_filter_insert (by simp)]
    by_cases hsame : column j = true
    · rw [if_pos hsame, if_pos hsame, uint16_add, sym_column_eq n, add_assoc]
    · rw [if_neg hsame, if_neg hsame, sym_column_eq n, zero_add]

theorem sym_columns_eq (same : ℤ → ℤ → Bool) (min_y : ℤ) (rows : ℕ) : ∀ (n : ℕ) (i sys_p_n : ℤ),
    sym_columns same min_y rows n i (uint16 sys_p_n) =
      uint16 (sys_p_n + #{q ∈ Ico i (i + n) ×ˢ Ico min_y (min_y + rows) | same q.1 q.2 = true})
  | 0, i, sys_p_n => by simp [sym_columns]
  | n + 1, i, sys_p_n => by
    rw [sym_columns, sym_column_eq, sym_columns_eq same min_y rows n, card_filter_product,
      card_filter_product, Ico_eq_insert, sum_insert (by simp)]
    push_cast
    rw [add_assoc]

end

/-! ## Rate -/

/-- A point of the image. -/
structure point_t.InImage (p : point_t) (width height : UInt16) : Prop where
  x_nonneg : 0 ≤ p.x
  x_lt : p.x < width.toNat
  y_nonneg : 0 ≤ p.y
  y_lt : p.y < height.toNat

/-- A point of the rectangle with corners `p1` and `p2`. -/
def point_t.Within (q p1 p2 : point_t) : Prop :=
  (min p1.x p2.x ≤ q.x ∧ q.x ≤ max p1.x p2.x) ∧ min p1.y p2.y ≤ q.y ∧ q.y ≤ max p1.y p2.y

/-- The number of pixels of that rectangle. -/
def pixels_between (p1 p2 : point_t) : ℤ := (|p1.x - p2.x| + 1) * (|p1.y - p2.y| + 1)

/-- The value of a pixel. -/
def shade (img : ℤ → ℤ) (width : UInt16) (q : point_t) : ℤ := img (q.y * width.toNat + q.x)

/-- The mirror pixel, to the other side or upside down. -/
def point_t.mirror (q : point_t) (width height : UInt16) (ud_or_lr : Bool) : point_t :=
  if ud_or_lr then ⟨width.toNat - 1 - q.x, q.y⟩ else ⟨q.x, height.toNat - 1 - q.y⟩

section

variable {img : ℤ → ℤ} {width height : UInt16} {p1 p2 : point_t} {ud_or_lr : Bool}

/-- The test of the loop, at a pixel: the two places in the row-major image are those of a pixel
    and its mirror. -/
theorem same_pixel_iff (q : point_t) : same_pixel img width height ud_or_lr q.x q.y = true ↔
    shade img width q = shade img width (q.mirror width height ud_or_lr) := by
  cases ud_or_lr with
  | true =>
    rw [same_pixel, if_pos rfl, beq_iff_eq, point_t.mirror, if_pos rfl, shade, shade]
    have hplace : q.y * width.toNat + width.toNat - q.x - 1 =
        q.y * width.toNat + (width.toNat - 1 - q.x) := by ring
    rw [hplace]
  | false =>
    rw [same_pixel, if_neg Bool.false_ne_true, beq_iff_eq, point_t.mirror, if_neg Bool.false_ne_true,
      shade, shade]
    have hplace : (height.toNat - q.y - 1 : ℤ) * width.toNat + q.x =
        (height.toNat - 1 - q.y) * width.toNat + q.x := by ring
    rw [hplace]

theorem mirror_mirror (q : point_t) :
    (q.mirror width height ud_or_lr).mirror width height ud_or_lr = q := by
  cases ud_or_lr with
  | true => simp [point_t.mirror]
  | false => simp [point_t.mirror]

theorem point_t.InImage.mirror (h : p1.InImage width height) :
    (p1.mirror width height ud_or_lr).InImage width height := by
  obtain ⟨hx0, hx1, hy0, hy1⟩ := h
  cases ud_or_lr with
  | true => exact ⟨by show 0 ≤ _ - 1 - p1.x; omega, by show _ - 1 - p1.x < _; omega, hy0, hy1⟩
  | false => exact ⟨hx0, hx1, by show 0 ≤ _ - 1 - p1.y; omega, by show _ - 1 - p1.y < _; omega⟩

/-- The points of a rectangle. -/
noncomputable def rectangle (p1 p2 : point_t) : Finset point_t :=
  (Icc (min p1.x p2.x) (max p1.x p2.x) ×ˢ Icc (min p1.y p2.y) (max p1.y p2.y)).map
    ⟨fun q => ⟨q.1, q.2⟩, fun _ _ h => Prod.ext (congrArg point_t.x h) (congrArg point_t.y h)⟩

@[simp] theorem mem_rectangle {q : point_t} : q ∈ rectangle p1 p2 ↔ q.Within p1 p2 := by
  simp only [rectangle, mem_map, mem_product, mem_Icc, point_t.Within]
  constructor
  · rintro ⟨⟨x, y⟩, h, rfl⟩
    exact h
  · intro h
    exact ⟨(q.x, q.y), h, rfl⟩

theorem card_rectangle (p1 p2 : point_t) : (#(rectangle p1 p2) : ℤ) = pixels_between p1 p2 := by
  have hside : ∀ a b : ℤ, ((max a b + 1 - min a b).toNat : ℤ) = |a - b| + 1 := by
    intro a b
    rw [abs_sub_comm, ← max_sub_min_eq_abs]
    omega
  rw [rectangle, card_map, card_product, Int.card_Icc, Int.card_Icc, Nat.cast_mul, hside, hside,
    pixels_between]

/-- The reflection of a rectangle. -/
theorem rectangle_mirror (p1 p2 : point_t) :
    (rectangle p1 p2).image (fun q => q.mirror width height ud_or_lr) =
      rectangle (p1.mirror width height ud_or_lr) (p2.mirror width height ud_or_lr) := by
  have hwithin : ∀ q : point_t, q.Within p1 p2 ↔ (q.mirror width height ud_or_lr).Within
      (p1.mirror width height ud_or_lr) (p2.mirror width height ud_or_lr) := by
    intro q
    cases ud_or_lr with
    | true =>
      simp only [point_t.Within, point_t.mirror, if_true]
      omega
    | false =>
      simp only [point_t.Within, point_t.mirror, Bool.false_eq_true, if_false]
      omega
  ext q
  simp only [mem_image, mem_rectangle]
  constructor
  · rintro ⟨q, hq, rfl⟩
    exact (hwithin q).mp hq
  · intro hq
    refine ⟨q.mirror width height ud_or_lr, (hwithin _).mpr ?_, mirror_mirror q⟩
    rw [mirror_mirror q]
    exact hq

/-- The pixels that equal their mirror pixels. -/
noncomputable def mirrored (img : ℤ → ℤ) (width height : UInt16) (ud_or_lr : Bool) (p1 p2 : point_t) :
    Finset point_t :=
  {q ∈ rectangle p1 p2 | shade img width q = shade img width (q.mirror width height ud_or_lr)}

theorem card_mirrored (img : ℤ → ℤ) (ud_or_lr : Bool) (p1 p2 : point_t) :
    #{q ∈ Icc (min p1.x p2.x) (max p1.x p2.x) ×ˢ Icc (min p1.y p2.y) (max p1.y p2.y) |
        same_pixel img width height ud_or_lr q.1 q.2 = true} =
      #(mirrored img width height ud_or_lr p1 p2) := by
  rw [mirrored, rectangle, filter_map, card_map]
  congr 1
  apply filter_congr
  intro q _
  exact same_pixel_iff ⟨q.1, q.2⟩

/-- **Exact count**: the 16-bit counters do not overflow on fewer than 65536 pixels, so the rate is
    the share of the pixels that equal their mirror pixels. -/
theorem Vision_CalSymRate_eq (img : ℤ → ℤ) (ud_or_lr : Bool) (h1 : p1.InImage width height)
    (h2 : p2.InImage width height) (hsize : pixels_between p1 p2 < 65536) :
    Vision_CalSymRate ℚ img width height p1 p2 ud_or_lr =
      (#(mirrored img width height ud_or_lr p1 p2) : ℚ) / #(rectangle p1 p2) := by
  obtain ⟨hx1, hx1', hy1, hy1'⟩ := h1
  obtain ⟨hx2, hx2', hy2, hy2'⟩ := h2
  have hwidth : (width.toNat : ℤ) < 65536 := by exact_mod_cast width.toNat_lt
  have hheight : (height.toNat : ℤ) < 65536 := by exact_mod_cast height.toNat_lt
  -- the ends of the rectangle fit into 16 bits, so their order is kept
  have hmax : ∀ a b : ℤ, 0 ≤ a → 0 ≤ b → a < 65536 → b < 65536 →
      uint16 (Tool_CmpMax a b) = max a b ∧ uint16 (Tool_CmpMin a b) = min a b := by
    intro a b ha hb ha' hb'
    rw [Tool_CmpMax_eq, Tool_CmpMin_eq]
    exact ⟨uint16_of_lt (by omega) (by omega), uint16_of_lt (by omega) (by omega)⟩
  -- the loop variables run over all rows and columns between the ends
  have hlast : ∀ a b : ℤ, Ico (min a b) (min a b + (max a b - min a b + 1).toNat) =
      Icc (min a b) (max a b) := by
    intro a b
    ext k
    simp only [mem_Ico, mem_Icc]
    omega
  have htotal : (max p1.x p2.x - min p1.x p2.x + 1) * (max p1.y p2.y - min p1.y p2.y + 1) =
      #(rectangle p1 p2) := by
    rw [card_rectangle, pixels_between, max_sub_min_eq_abs, max_sub_min_eq_abs, abs_sub_comm,
      abs_sub_comm p2.y]
  have hrect : (#(rectangle p1 p2) : ℤ) < 65536 := by
    rw [card_rectangle]
    exact hsize
  have hpart : #(mirrored img width height ud_or_lr p1 p2) ≤ #(rectangle p1 p2) :=
    card_le_card (filter_subset _ _)
  -- the counter of the loops never passes the number of pixels
  have hcount : sym_columns (same_pixel img width height ud_or_lr) (min p1.y p2.y)
      (max p1.y p2.y - min p1.y p2.y + 1).toNat (max p1.x p2.x - min p1.x p2.x + 1).toNat
      (min p1.x p2.x) 0 = #(mirrored img width height ud_or_lr p1 p2) := by
    have h := sym_columns_eq (same_pixel img width height ud_or_lr) (min p1.y p2.y)
      (max p1.y p2.y - min p1.y p2.y + 1).toNat (max p1.x p2.x - min p1.x p2.x + 1).toNat
      (min p1.x p2.x) 0
    rw [uint16_of_lt (le_refl 0) (by decide), hlast, hlast, card_mirrored, zero_add,
      uint16_of_lt (by omega) (by omega)] at h
    exact h
  simp only [Vision_CalSymRate, (hmax _ _ hx1 hx2 (by omega) (by omega)).1,
    (hmax _ _ hx1 hx2 (by omega) (by omega)).2, (hmax _ _ hy1 hy2 (by omega) (by omega)).1,
    (hmax _ _ hy1 hy2 (by omega) (by omega)).2, hcount, htotal]
  rw [uint16_of_lt (Int.natCast_nonneg _) hrect, CFloat.ofInt_rat, CFloat.ofInt_rat, Int.cast_natCast,
    Int.cast_natCast]

end

/-- **Rate** — for a rectangle inside the image, of fewer than 65536 pixels. -/
theorem Vision_CalSymRate_mirror (img : ℤ → ℤ) (width height : UInt16) (ud_or_lr : Bool)
    {p1 p2 : point_t} (h1 : p1.InImage width height) (h2 : p2.InImage width height)
    (hsize : pixels_between p1 p2 < 65536) :
    (0 ≤ Vision_CalSymRate ℚ img width height p1 p2 ud_or_lr ∧
        Vision_CalSymRate ℚ img width height p1 p2 ud_or_lr ≤ 1) ∧
      (Vision_CalSymRate ℚ img width height p1 p2 ud_or_lr = 1 ↔ ∀ q : point_t, q.Within p1 p2 →
        shade img width q = shade img width (q.mirror width height ud_or_lr)) ∧
      Vision_CalSymRate ℚ img width height (p1.mirror width height ud_or_lr)
        (p2.mirror width height ud_or_lr) ud_or_lr =
          Vision_CalSymRate ℚ img width height p1 p2 ud_or_lr := by
  have hpart : (#(mirrored img width height ud_or_lr p1 p2) : ℚ) ≤ #(rectangle p1 p2) :=
    Nat.cast_le.mpr (card_le_card (filter_subset _ _))
  have hpos : (0 : ℚ) < #(rectangle p1 p2) := by
    rw [Nat.cast_pos, card_pos]
    exact ⟨p1, by rw [mem_rectangle]; simp [point_t.Within]⟩
  have hinv : Function.Involutive fun q : point_t => q.mirror width height ud_or_lr := mirror_mirror
  -- The mirror is an involution, so it re-indexes the rectangle and the mirrored pixels in it.
  have hcard : #(rectangle (p1.mirror width height ud_or_lr) (p2.mirror width height ud_or_lr)) =
      #(rectangle p1 p2) := by
    rw [← rectangle_mirror]
    exact card_image_of_injective _ hinv.injective
  have hsame : #(mirrored img width height ud_or_lr (p1.mirror width height ud_or_lr)
      (p2.mirror width height ud_or_lr)) = #(mirrored img width height ud_or_lr p1 p2) := by
    rw [mirrored, ← rectangle_mirror]
    exact card_filter_mirror hinv (shade img width) (rectangle p1 p2)
  have hsize' : pixels_between (p1.mirror width height ud_or_lr) (p2.mirror width height ud_or_lr) <
      65536 := by
    rw [← card_rectangle, hcard, card_rectangle]
    exact hsize
  rw [Vision_CalSymRate_eq img ud_or_lr h1.mirror h2.mirror hsize', hcard, hsame,
    Vision_CalSymRate_eq img ud_or_lr h1 h2 hsize]
  refine ⟨⟨by positivity, (div_le_one hpos).mpr hpart⟩, ?_, rfl⟩
  rw [div_eq_one_iff_eq hpos.ne', Nat.cast_inj, mirrored, card_filter_eq_iff]
  simp only [mem_rectangle]

/-- Six pixels of an image of 8 columns and 4 rows. -/
theorem Vision_CalSymRate_checked :
    (0 ≤ Vision_CalSymRate ℚ (fun k => k % 3) 8 4 ⟨1, 0⟩ ⟨3, 1⟩ true ∧
        Vision_CalSymRate ℚ (fun k => k % 3) 8 4 ⟨1, 0⟩ ⟨3, 1⟩ true ≤ 1) ∧
      (Vision_CalSymRate ℚ (fun k => k % 3) 8 4 ⟨1, 0⟩ ⟨3, 1⟩ true = 1 ↔
        ∀ q : point_t, q.Within ⟨1, 0⟩ ⟨3, 1⟩ →
          shade (fun k => k % 3) 8 q = shade (fun k => k % 3) 8 (q.mirror 8 4 true)) ∧
      Vision_CalSymRate ℚ (fun k => k % 3) 8 4 (point_t.mirror ⟨1, 0⟩ 8 4 true)
        (point_t.mirror ⟨3, 1⟩ 8 4 true) true =
          Vision_CalSymRate ℚ (fun k => k % 3) 8 4 ⟨1, 0⟩ ⟨3, 1⟩ true :=
  Vision_CalSymRate_mirror (fun k => k % 3) 8 4 true ⟨by decide, by decide, by decide, by decide⟩
    ⟨by decide, by decide, by decide, by decide⟩ (by decide)

end Car2025
