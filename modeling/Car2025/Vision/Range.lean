/-
  The columns that the road handlers draw.

  1. **Drawings** — `Vision_ExtendLine` clamps every row it writes; the lines of a circle run between
     two columns of the image; lost rows hold 0 or 187.  These keep a border of pixels one, whatever
     rows and feature points they are called with.

  2. **State 1 of a circle** — `Vision_SetLineWithPointK` does not clamp: the line runs through a
     feature point with the slope of the opposite border, and its farthest and nearest rows decide
     whether it stays in the image.

  3. **Result (`Vision_RSHandle_range`)** — these are the only rows that ever leave the image, and the
     mid-line with them.
-/
import Mathlib
import Car2025.Lib.Fill
import Car2025.Vision.RSHandle
import Car2025.Vision.FeatureRows

namespace Car2025

open segment_type RoadSymbol_type Circule Car2025.Cross Outcome

/-! ## The mid-line -/

/-- `Image_S.MID_Table[i]`, as `Vision_Handle` computes it. -/
def Image.MID_Table (I : Image) (i : ℤ) : ℤ := int16 ((I.rightBroder i + I.leftBroder i).tdiv 2)

@[simp] theorem Image.broder_setBroder (I : Image) (side : Side) (b : Broder) :
    (I.setBroder side b).broder side = b := by
  cases side <;> rfl

/-- Both borders and the mid-line lie in the image. -/
def Image.InRange (I : Image) : Prop :=
  Pixels I.leftBroder ∧ Pixels I.rightBroder ∧
    ∀ i, 0 ≤ i → i ≤ 69 → 0 ≤ I.MID_Table i ∧ I.MID_Table i ≤ 187

/-- The mid-line lies between the borders. -/
theorem Image.inRange_of_pixels {I : Image} (hl : Pixels I.leftBroder) (hr : Pixels I.rightBroder) :
    I.InRange := by
  refine ⟨hl, hr, fun i h0 h69 => ?_⟩
  have h1 := hl i h0 h69
  have h2 := hr i h0 h69
  have hdiv : (I.rightBroder i + I.leftBroder i).tdiv 2 = (I.rightBroder i + I.leftBroder i) / 2 :=
    Int.tdiv_eq_ediv_of_nonneg (by omega)
  simp only [Image.MID_Table]
  rw [hdiv, int16_of_small (by omega) (by omega)]
  omega

theorem Image.InRange.broder {I : Image} (h : I.InRange) (side : Side) : Pixels (I.broder side) := by
  cases side with
  | L => exact h.1
  | R => exact h.2.1

theorem Image.InRange.setBroder {I : Image} (h : I.InRange) (side : Side) {b : Broder}
    (hb : Pixels b) : (I.setBroder side b).InRange := by
  cases side with
  | L => exact Image.inRange_of_pixels hb h.2.1
  | R => exact Image.inRange_of_pixels h.1 hb

/-! ## Drawings that stay in the image -/

theorem clampRow_returns {o : Outside} {b : Broder} (i : ℤ) : Returns (clampRow o b i) fun b' =>
    (0 ≤ b' i ∧ b' i ≤ 187) ∧ ∀ r, r ≠ i → b' r = b r := by
  refine rd_returns.bind fun v _ => wr_returns.bind fun b₁ hb₁ => ?_
  refine rd_returns.bind fun w hw => wr_returns.imp fun b₂ hb₂ => ?_
  have hw0 : 0 ≤ w := by
    rw [hw, hb₁, Function.update_self]
    split_ifs <;> omega
  rw [hb₂]
  refine ⟨?_, fun r hr => ?_⟩
  · rw [Function.update_self]
    simp only [imgCol]
    split_ifs <;> omega
  · rw [Function.update_of_ne hr, hb₁, Function.update_of_ne hr]

/-- Whatever a row is set to, the clamp brings it back. -/
theorem clampRow_pixels {o : Outside} {b : Broder} (hb : Pixels b) (i v : ℤ) :
    Returns (clampRow o (Function.update b i v) i) Pixels := by
  apply (clampRow_returns i).imp
  intro b' hb' r h0 h69
  by_cases hr : r = i
  · rw [hr]
    exact hb'.1
  · rw [hb'.2 r hr, Function.update_of_ne hr]
    exact hb r h0 h69

/-- A row that is set lost holds one of the two outermost columns. -/
theorem Vision_SetLose_pixels {o : Outside} {b : Broder} (hb : Pixels b) (side : Side) (x1 x2 : ℤ) :
    Returns (Vision_SetLose o side b x1 x2) Pixels := by
  have hloop : ∀ (v : ℤ), 0 ≤ v ∧ v ≤ 187 → ∀ (n : ℕ) (i : ℤ) (b : Broder), Pixels b →
      Returns (Vision_SetLose_loop o v n i b) Pixels := by
    intro v hv n
    induction n with
    | zero => exact fun i b h => h
    | succ n ih =>
      intro i b h
      refine wr_returns.bind fun b' hb' => ih (i + 1) b' ?_
      rw [hb']
      exact h.update i hv
  refine hloop _ ?_ _ _ b hb
  cases side <;> decide

theorem lose_rows_pixels {o : Outside} : ∀ (n : ℕ) (i : ℤ) (b : Broder), Pixels b →
    Returns (lose_rows o n i b) Pixels := by
  intro n
  induction n with
  | zero => exact fun i b h => h
  | succ n ih =>
    intro i b h
    refine wr_returns.bind fun b' hb' => ih (i - 1) b' ?_
    rw [hb']
    exact h.update i (by decide)

section

variable {R : Type} [CFloat R] {o : Outside} {b : Broder}

theorem Vision_ExtendLine_far_pixels (x : ℤ) (this_K : R) : ∀ (n : ℕ) (i : ℤ) (b : Broder),
    Pixels b → Returns (Vision_ExtendLine_far o x this_K n i b) Pixels := by
  intro n
  induction n with
  | zero => exact fun i b h => h
  | succ n ih =>
    intro i b h
    refine rd_returns.bind fun v _ => wr_returns.bind fun b₁ hb₁ => ?_
    rw [hb₁]
    exact (clampRow_pixels h i _).bind fun b₂ hb₂ => ih (i - 1) b₂ hb₂

theorem Vision_ExtendLine_near_pixels (x : ℤ) (this_K : R) : ∀ (n : ℕ) (i : ℤ) (b : Broder),
    Pixels b → Returns (Vision_ExtendLine_near o x this_K n i b) Pixels := by
  intro n
  induction n with
  | zero => exact fun i b h => h
  | succ n ih =>
    intro i b h
    refine rd_returns.bind fun v _ => wr_returns.bind fun b₁ hb₁ => ?_
    rw [hb₁]
    exact (clampRow_pixels h (x + i) _).bind fun b₂ hb₂ => ih (i + 1) b₂ hb₂

theorem fdiv_returns {a : R} {d : ℤ} : Returns (fdiv o a d) fun q => q = a / CFloat.ofInt d :=
  Ends.ite (fun _ => trivial) (fun _ => rfl)

/-- **Extensions** are clamped, wherever they start and whatever the slope is, so they need no
    exact arithmetic. -/
theorem Vision_ExtendLine_pixels (hb : Pixels b) (x : ℤ) (direction : Bool) :
    Returns (Vision_ExtendLine R o b x direction) Pixels := by
  have hslope : ∀ (i j d : ℤ) (line : R → Except Stop Broder),
      (∀ this_K, Returns (line this_K) Pixels) →
      Returns (rd o b i >>= fun v => rd o b j >>= fun w =>
        fdiv o (CFloat.ofInt (v - w)) d >>= line) Pixels := by
    intro i j d line hline
    refine rd_returns.bind fun v _ => rd_returns.bind fun w _ => ?_
    exact fdiv_returns.bind fun this_K _ => hline this_K
  refine Ends.ite (fun _ => ?_) (fun _ => ?_)
  · have hline := fun this_K : R =>
      Vision_ExtendLine_far_pixels (o := o) x this_K (x - 1).toNat (x - 1) b hb
    exact Ends.ite (fun _ => hslope _ _ _ _ hline) (fun _ => hslope _ _ _ _ hline)
  · have hline := fun this_K : R =>
      Vision_ExtendLine_near_pixels (o := o) x this_K (imgRow - 1 - x).toNat 0 b hb
    exact Ends.ite (fun _ => hslope _ _ _ _ hline) (fun _ => hslope _ _ _ _ hline)

/-! ## Handlers that stay in the image -/

/-- A handler keeps both borders in the image. -/
abbrev KeepsRange (x : Except Stop (Vision R)) : Prop := Returns x fun s' => s'.Image_S.InRange

/-- A crossing draws extensions only, and these are clamped. -/
theorem CrossHandle_extend_range {s : Vision R} (h : s.Image_S.InRange) :
    KeepsRange (CrossHandle_extend o s) := by
  have hdraw : ∀ (x y : ℤ) (d d' : Bool), KeepsRange (do
      let left ← Vision_ExtendLine R o s.Image_S.leftBroder x d
      let right ← Vision_ExtendLine R o s.Image_S.rightBroder y d'
      pure { s with Image_S := ⟨left, right⟩ }) := by
    intro x y d d'
    apply (Vision_ExtendLine_pixels h.1 x d).bind
    intro left hleft
    apply (Vision_ExtendLine_pixels h.2.1 y d').bind
    intro right hright
    exact Image.inRange_of_pixels hleft hright
  refine Ends.ite (fun _ => ?_) (fun _ => h)
  refine Ends.ite (fun _ => hdraw _ _ _ _) (fun _ => ?_)
  exact Ends.ite (fun _ => hdraw _ _ _ _) (fun _ => h)

theorem CrossHandle_side_image (s : Vision R) :
    Returns (CrossHandle_side o s) fun s' => s'.Image_S = s.Image_S := by
  refine Ends.ite (fun _ => ?_) (fun _ => rfl)
  refine rd_returns.bind fun _ _ => rd_returns.bind fun _ _ => ?_
  refine rd_returns.bind fun _ _ => rd_returns.bind fun _ _ => ?_
  exact fdiv_returns.bind fun k _ => rfl

theorem Vision_CrossHandle_range {s : Vision R} (h : s.Image_S.InRange) :
    KeepsRange (Vision_CrossHandle o s) := by
  simp only [Vision_CrossHandle]
  cases s.Cross_state with
  | Cross_Begin =>
    refine Ends.ite (fun _ => h) (fun _ => ?_)
    exact Ends.ite (fun _ => CrossHandle_extend_range h) (fun _ => CrossHandle_extend_range h)
  | Cross_State_1 =>
    refine Ends.ite (fun _ => ?_) (fun _ => CrossHandle_extend_range h)
    refine (CrossHandle_side_image s).bind fun s' hs' => CrossHandle_extend_range ?_
    show s'.Image_S.InRange
    rw [hs']
    exact h

end

/-- A corner writes lost rows only. -/
theorem Vision_CornerHandle_range {R : Type} {o : Outside} {s : Vision R} (h : s.Image_S.InRange) :
    KeepsRange (Vision_CornerHandle o s) := by
  have hrows : ∀ side, KeepsRange (lose_segment_rows o side s) := by
    intro side
    apply (lose_rows_pixels _ _ _ (h.broder side)).bind
    intro b hb
    exact h.setBroder side hb
  have hsame : KeepsRange (pure s : Except Stop (Vision R)) := h
  refine Ends.bind (m := fun s' => s'.Image_S.InRange) ?_ fun s' hs' => hs'
  refine Ends.ite (fun _ => hsame) (fun _ => ?_)
  refine Ends.ite (fun _ => ?_) (fun _ => ?_)
  · refine Ends.ite (fun _ => hrows .R) (fun _ => ?_)
    exact Ends.ite (fun _ => hrows .L) (fun _ => hsame)
  · refine Ends.ite (fun _ => ?_) (fun _ => hsame)
    refine Ends.ite (fun _ => hrows .R) (fun _ => ?_)
    exact Ends.ite (fun _ => hrows .L) (fun _ => hsame)

/-! ## The lines of a circle -/

/-- A line between two columns of the image, `j` rows from its far end. -/
theorem line_between {f g : ℤ} (hf : 0 ≤ f ∧ f ≤ 187) (hg : 0 ≤ g ∧ g ≤ 187) {j : ℤ} (h0 : 0 ≤ j)
    (h69 : j ≤ 69) :
    0 ≤ (j : ℚ) * (((f - g : ℤ) : ℚ) / ((0 - 69 : ℤ) : ℚ)) + f ∧
      (j : ℚ) * (((f - g : ℤ) : ℚ) / ((0 - 69 : ℤ) : ℚ)) + f ≤ 187 := by
  have hmix : (j : ℚ) * (((f - g : ℤ) : ℚ) / ((0 - 69 : ℤ) : ℚ)) + f =
      ((69 - j : ℤ) * f + j * g : ℤ) / 69 := by
    push_cast
    ring
  have hlow : 0 ≤ (69 - j) * f + j * g := by
    have h1 := mul_nonneg (show 0 ≤ 69 - j by omega) hf.1
    have h2 := mul_nonneg h0 hg.1
    omega
  have hhigh : (69 - j) * f + j * g ≤ 187 * 69 := by
    have h1 := mul_le_mul_of_nonneg_left hf.2 (show 0 ≤ 69 - j by omega)
    have h2 := mul_le_mul_of_nonneg_left hg.2 h0
    omega
  rw [hmix]
  constructor
  · exact div_nonneg (Int.cast_nonneg hlow) (by norm_num)
  · rw [div_le_iff₀ (by norm_num)]
    exact_mod_cast hhigh

/-- A rounded row of a line in the image lies in the image. -/
theorem row_of_line {q : ℚ} (h : 0 ≤ q ∧ q ≤ 187) :
    0 ≤ int16 (CFloat.toInt q) ∧ int16 (CFloat.toInt q) ≤ 187 := by
  have h0 : CFloat.toInt ((0 : ℤ) : ℚ) ≤ CFloat.toInt q := CFloat.toInt_mono (by exact_mod_cast h.1)
  have h1 : CFloat.toInt q ≤ CFloat.toInt ((187 : ℤ) : ℚ) := CFloat.toInt_mono (by exact_mod_cast h.2)
  rw [CFloat.toInt_intCast] at h0 h1
  rw [int16_of_small (by omega) (by omega)]
  exact ⟨h0, h1⟩

section

variable {o : Outside} {b : Broder}

/-- **The loop** of a line whose rows all lie in the image; no value is clamped here, so the line
    itself must stay inside. -/
theorem Vision_set_AdditionalLine_loop_pixels {slope : ℚ} {f : ℤ} (hf : 0 ≤ f ∧ f ≤ 187)
    (hline : ∀ j : ℤ, 0 ≤ j → j ≤ 69 → 0 ≤ (j : ℚ) * slope + f ∧ (j : ℚ) * slope + f ≤ 187) :
    ∀ (n : ℕ) (i : ℤ) (b : Broder), 0 ≤ i → i + n ≤ 70 → Pixels b → b 0 = f →
      Returns (Vision_set_AdditionalLine_loop o 0 slope n i b) Pixels := by
  intro n
  induction n with
  | zero => exact fun i b _ _ h _ => h
  | succ n ih =>
    intro i b h0 hn h hb0
    push_cast at hn
    refine rd_returns.bind fun v hv => wr_returns.bind fun b' hb' => ?_
    have hrow : CFloat.ofInt (i - 0) * slope + CFloat.ofInt v = (i : ℚ) * slope + f := by
      rw [sub_zero, CFloat.ofInt_rat, CFloat.ofInt_rat, hv, hb0]
    have hval := row_of_line (hline i h0 (by omega))
    rw [hrow] at hb'
    apply ih (i + 1) b' (by omega) (by omega) (by rw [hb']; exact h.update i hval)
    rw [hb']
    by_cases hi : (0 : ℤ) = i
    · -- row 0 is written with its own value
      rw [← hi, Function.update_self, Int.cast_zero, zero_mul, zero_add, CFloat.toInt_intCast,
        int16_of_small (by omega) (by omega)]
    · rw [Function.update_of_ne hi, hb0]

/-- **The lines of a circle** stay between their two columns, as they run from row 0 to row 69 and
    both ends are pixels. -/
theorem Vision_set_AdditionalLine_pixels (hb : Pixels b) :
    Returns (Vision_set_AdditionalLine ℚ o 0 (imgRow - 1) b) Pixels := by
  have h0 := hb 0 (by omega) (by omega)
  have h69 := hb 69 (by omega) (by omega)
  refine rd_returns.bind fun v hv => rd_returns.bind fun w hw => ?_
  apply fdiv_returns.bind
  intro slope hs
  have hslope : slope = ((b 0 - b 69 : ℤ) : ℚ) / ((0 - 69 : ℤ) : ℚ) := by
    rw [hs, hv, hw]
    rfl
  refine Vision_set_AdditionalLine_loop_pixels h0 (fun j hj hj' => ?_) _ 0 b (le_refl 0) (by decide)
    hb rfl
  rw [hslope]
  exact line_between h0 h69 hj hj'

theorem deref_returns (p : Option Side) : Returns (deref p) fun side => p = some side := by
  cases p with
  | none => trivial
  | some side => rfl

/-- The lines of a circle are drawn from a column of the image to another. -/
theorem circule_lines_range {s : Vision ℚ} (h : s.Image_S.InRange) {far near : Side → ℤ}
    (hfar : ∀ side, 0 ≤ far side ∧ far side ≤ 187) (hnear : ∀ side, 0 ≤ near side ∧ near side ≤ 187) :
    KeepsRange (circule_lines o far near s) := by
  apply (deref_returns _).bind
  intro anti _
  refine wr_returns.bind fun b₁ hb₁ => wr_returns.bind fun b₂ hb₂ => ?_
  have hpix : Pixels b₂ := by
    rw [hb₂, hb₁]
    exact ((h.broder anti).update 0 (hfar _)).update 69 (hnear _)
  apply (Vision_set_AdditionalLine_pixels hpix).bind
  intro b₃ hb₃
  apply (deref_returns _).bind
  intro side _
  have hI := h.setBroder anti hb₃
  apply (Vision_SetLose_pixels (hI.broder side) side _ _).bind
  intro b₄ hb₄
  exact hI.setBroder side hb₄

end

/-! ## State 1 of a circle -/

/-- Row `r` of the line through column `c` at row `seed`, as it is stored. -/
def lineRow (c seed : ℤ) (slope : ℚ) (r : ℤ) : ℤ :=
  int16 (CFloat.toInt ((c : ℚ) + ((r - seed : ℤ) : ℚ) * slope))

theorem lineRow_seed (c seed : ℤ) (slope : ℚ) : lineRow c seed slope seed = int16 c := by
  simp only [lineRow]
  rw [sub_self, Int.cast_zero, zero_mul, add_zero, CFloat.toInt_intCast]

/-- **The drawing**: every row of the range takes its place on the line through the seed, which
    keeps its own.  So it does not matter where in the range the seed is. -/
theorem Vision_SetLineWithPointK_loop_eq (seed : ℤ) (slope : ℚ) : ∀ (n : ℕ) (i : ℤ) (b : Broder),
    (i ≤ seed → seed < i + n → int16 (b seed) = b seed) →
      Vision_SetLineWithPointK_loop .reads seed slope n i b =
        .ok fun r => if i ≤ r ∧ r < i + n then lineRow (b seed) seed slope r else b r := by
  intro n
  induction n with
  | zero =>
    intro i b _
    exact congrArg Except.ok (Fill.up_zero _ b i).symm
  | succ n ih =>
    intro i b hseed
    push_cast at hseed
    rw [Vision_SetLineWithPointK_loop, rd_reads, ok_bind, wr_reads, ok_bind]
    show Vision_SetLineWithPointK_loop .reads seed slope n (i + 1)
      (Function.update b i (lineRow (b seed) seed slope i)) = _
    have hkeep : Function.update b i (lineRow (b seed) seed slope i) seed = b seed := by
      by_cases hi : seed = i
      · rw [hi, Function.update_self, lineRow_seed, ← hi]
        exact hseed (by omega) (by omega)
      · rw [Function.update_of_ne hi]
    rw [ih (i + 1) _ (fun h1 h2 => by rw [hkeep]; exact hseed (by omega) (by omega)), hkeep]
    exact congrArg Except.ok (Fill.up_succ (lineRow (b seed) seed slope) b i n)

/-- What lies between two stored columns less than 189 apart is stored between them. -/
theorem int16_between {t u w : ℤ} (ht : 0 ≤ int16 t ∧ int16 t ≤ 187)
    (hw : 0 ≤ int16 w ∧ int16 w ≤ 187)
    (hclose : w - t < 189 ∧ t - w < 189) (hmid : (t ≤ u ∧ u ≤ w) ∨ (w ≤ u ∧ u ≤ t)) :
    0 ≤ int16 u ∧ int16 u ≤ 187 := by
  simp only [int16] at *
  rw [Int.bmod_def] at *
  omega

/-- **The ends decide**: a line that crosses at most 187 columns lies in the image between two rows
    that do.  A steeper one could leave 16 bits and come back in. -/
theorem lineRow_between {c seed : ℤ} {slope : ℚ} (hflat : |69 * slope| ≤ 187)
    (h0 : 0 ≤ lineRow c seed slope 0 ∧ lineRow c seed slope 0 ≤ 187)
    (h69 : 0 ≤ lineRow c seed slope 69 ∧ lineRow c seed slope 69 ≤ 187) {r : ℤ} (hr0 : 0 ≤ r)
    (hr69 : r ≤ 69) : 0 ≤ lineRow c seed slope r ∧ lineRow c seed slope r ≤ 187 := by
  -- the rows before they are stored
  have hrow : ∀ r : ℤ, (c : ℚ) + ((r - seed : ℤ) : ℚ) * slope =
      (c : ℚ) + ((0 - seed : ℤ) : ℚ) * slope + (r : ℚ) * slope := by
    intro r
    push_cast
    ring
  have hr0' : (0 : ℚ) ≤ r := Int.cast_nonneg hr0
  have hr69' : (r : ℚ) ≤ 69 := by exact_mod_cast hr69
  simp only [lineRow] at h0 h69 ⊢
  rw [hrow 69] at h69
  rw [hrow r]
  generalize (c : ℚ) + ((0 - seed : ℤ) : ℚ) * slope = v at h0 h69 ⊢
  have hnear := CFloat.abs_toInt_sub_lt v
  have hfar := CFloat.abs_toInt_sub_lt (v + ((69 : ℤ) : ℚ) * slope)
  have hcast : ((69 : ℤ) : ℚ) * slope = 69 * slope := by norm_num
  rw [hcast] at h69 hfar
  rw [abs_le] at hflat
  rw [abs_lt] at hnear hfar
  -- both ends are stored from the same window, as they are less than 190 columns apart
  have hclose : CFloat.toInt (v + 69 * slope) - CFloat.toInt v < 189 ∧
      CFloat.toInt v - CFloat.toInt (v + 69 * slope) < 189 := by
    constructor
    · have h : ((CFloat.toInt (v + 69 * slope) - CFloat.toInt v : ℤ) : ℚ) < (189 : ℤ) := by
        push_cast
        linarith
      exact_mod_cast h
    · have h : ((CFloat.toInt v - CFloat.toInt (v + 69 * slope) : ℤ) : ℚ) < (189 : ℤ) := by
        push_cast
        linarith
      exact_mod_cast h
  have hmid : (CFloat.toInt v ≤ CFloat.toInt (v + r * slope) ∧
        CFloat.toInt (v + r * slope) ≤ CFloat.toInt (v + 69 * slope)) ∨
      (CFloat.toInt (v + 69 * slope) ≤ CFloat.toInt (v + r * slope) ∧
        CFloat.toInt (v + r * slope) ≤ CFloat.toInt v) := by
    rcases le_total 0 slope with hs | hs
    · refine Or.inl ⟨CFloat.toInt_mono ?_, CFloat.toInt_mono ?_⟩
      · exact le_add_of_nonneg_right (mul_nonneg hr0' hs)
      · have h := mul_le_mul_of_nonneg_right hr69' hs
        linarith
    · refine Or.inr ⟨CFloat.toInt_mono ?_, CFloat.toInt_mono ?_⟩
      · have h := mul_le_mul_of_nonpos_right hr69' hs
        linarith
      · have h := mul_nonpos_of_nonneg_of_nonpos hr0' hs
        linarith
  exact int16_between h0 h69 hclose hmid

/-- The slope of a border over the whole image. -/
def imageSlope (b : Broder) : ℚ := ((b 0 - b 69 : ℤ) : ℚ) / ((0 - 69 : ℤ) : ℚ)

/-- A border of pixels crosses at most 187 columns. -/
theorem imageSlope_flat {b : Broder} (hb : Pixels b) : |69 * -imageSlope b| ≤ 187 := by
  have h0 := hb 0 (by omega) (by omega)
  have h69 := hb 69 (by omega) (by omega)
  have hslope : 69 * -imageSlope b = ((b 0 - b 69 : ℤ) : ℚ) := by
    simp only [imageSlope]
    push_cast
    ring
  rw [hslope, ← Int.cast_abs]
  have habs : |b 0 - b 69| ≤ 187 := abs_le.mpr ⟨by omega, by omega⟩
  exact_mod_cast habs

/-- The line that state 1 draws into border `b`: through the feature point's row, with the slope of
    the opposite border turned round. -/
def circuleRow (b anti : Broder) (seed : ℤ) (r : ℤ) : ℤ := lineRow (b seed) seed (-imageSlope anti) r

/-- State 1 draws a line, as a corner was found and the near segment is seen, and the line leaves the
    image in its farthest or its nearest row.  `n`, `seg`, `anti`, `side` and `fp` are the halves that
    `circule_fp_n`, `circule_seg`, `anti_cir_broder`, `circule_broder` and `circule_fp` point into. -/
def LineOutside (F : Feature) (I : Image) (n seg anti side fp : Side) : Prop :=
  (F.side n).FP_n ≠ 0 ∧ IsLose ((F.side seg).my_segment 0) = false ∧ ∃ r, (r = 0 ∨ r = 69) ∧
    (circuleRow (I.broder side) (I.broder anti) ((F.side fp).feature_p 0).x r < 0 ∨
      187 < circuleRow (I.broder side) (I.broder anti) ((F.side fp).feature_p 0).x r)

/-- A line that leaves the image, in state 1. -/
def DrawsOutside (s : Vision ℚ) : Prop :=
  s.Circule_Handle.state = Circule_State1 ∧ ∃ n seg anti side fp : Side,
    s.Circule_Handle.circule_fp_n = some n ∧ s.Circule_Handle.circule_seg = some seg ∧
    s.Circule_Handle.anti_cir_broder = some anti ∧ s.Circule_Handle.circule_broder = some side ∧
    s.Circule_Handle.circule_fp = some fp ∧ LineOutside s.F s.Image_S n seg anti side fp

section

variable {s : Vision ℚ}

/-- The drawing of state 1: every row of the image takes its place on the line. -/
theorem SetLineWithPointK_circule {b : Broder} (anti : Broder) (hb : Pixels b) (seed : ℤ) :
    ∃ line, Vision_SetLineWithPointK .reads b seed (-imageSlope anti) 0 (imgRow - 1) = .ok line ∧
      ∀ r, 0 ≤ r → r ≤ 69 → line r = circuleRow b anti seed r := by
  have hmin : Tool_CmpMin 0 (imgRow - 1) = 0 := rfl
  have hrows : (Tool_CmpMax 0 (imgRow - 1) - 0 + 1).toNat = 70 := rfl
  rw [Vision_SetLineWithPointK, hmin, hrows]
  refine ⟨_, Vision_SetLineWithPointK_loop_eq seed _ 70 0 b fun h0 h70 => ?_, fun r h0 h69 => ?_⟩
  · have hpix := hb seed h0 (by push_cast at h70; omega)
    exact int16_of_small (by omega) (by omega)
  · exact if_pos ⟨h0, by push_cast; omega⟩

theorem deref_some (side : Side) : deref (some side) = .ok side := rfl

theorem State1_slope (anti : Broder) :
    (Point_CalSlope .reads ⟨0, anti 0⟩ ⟨imgRow - 1, anti (imgRow - 1)⟩ : Except Stop ℚ) =
      .ok (imageSlope anti) := by
  rw [Point_CalSlope, fdiv_reads]
  rfl

/-- Counting lost frames draws nothing. -/
theorem State1_tick_image (s : Vision ℚ) (lost : Bool) :
    Returns (if lost then
        let tick := (s.Circule_Handle.tick + 1) % 256
        if tick = 5 then
          pure { s with Circule_Handle := { s.Circule_Handle with state := Circule_State2, tick := 0 } }
        else pure { s with Circule_Handle := { s.Circule_Handle with tick } }
      else pure { s with Circule_Handle := { s.Circule_Handle with tick := 0 } } :
        Except Stop (Vision ℚ)) fun s' => s'.Image_S = s.Image_S := by
  refine Ends.ite (fun _ => ?_) (fun _ => rfl)
  exact Ends.ite (fun _ => rfl) (fun _ => rfl)

/-- **State 1** stays in the image where it does not draw outside; of the five stages it is the
    only one that draws without a clamp and without two ends that are pixels. -/
theorem Vision_CirculeState1_Handle_range (h : s.Image_S.InRange)
    (hstate : s.Circule_Handle.state = Circule_State1) (hin : ¬ DrawsOutside s) :
    KeepsRange (Vision_CirculeState1_Handle .reads s) := by
  refine (deref_returns _).bind fun n hn => (deref_returns _).bind fun seg hseg => ?_
  refine Ends.bind (m := fun s' => s'.Image_S.InRange) ?_ fun s' hs' => ?_
  · refine Ends.ite (fun hdraw => ?_) (fun _ => h)
    apply (deref_returns _).bind
    intro anti hanti
    dsimp only
    rw [rd_reads, ok_bind, rd_reads, ok_bind, State1_slope, ok_bind]
    refine (deref_returns _).bind fun side hside => (deref_returns _).bind fun fp hfp => ?_
    obtain ⟨line, hline, hrows⟩ := SetLineWithPointK_circule (s.Image_S.broder anti)
      (h.broder side) ((s.F.side fp).feature_p 0).x
    rw [hline, ok_bind]
    apply h.setBroder side
    intro r h0 h69
    -- both ends lie in the image, or the state would draw outside
    have hends : ∀ r, (r = 0 ∨ r = 69) → 0 ≤ circuleRow (s.Image_S.broder side)
        (s.Image_S.broder anti) ((s.F.side fp).feature_p 0).x r ∧
        circuleRow (s.Image_S.broder side) (s.Image_S.broder anti)
          ((s.F.side fp).feature_p 0).x r ≤ 187 := by
      intro r hr
      by_contra hout
      rw [not_and_or, not_le, not_le] at hout
      exact hin ⟨hstate, n, seg, anti, side, fp, hn, hseg, hanti, hside, hfp, hdraw.1, hdraw.2, r,
        hr, hout⟩
    rw [hrows r h0 h69]
    exact lineRow_between (imageSlope_flat (h.broder anti)) (hends 0 (Or.inl rfl))
      (hends 69 (Or.inr rfl)) h0 h69
  · apply (State1_tick_image s' (IsLose ((s.F.side seg).my_segment 0))).imp
    intro s'' hs''
    rw [hs'']
    exact hs'

/-- Where it draws outside, a border leaves the image. -/
theorem Vision_CirculeState1_Handle_outside (h : s.Image_S.InRange) (hout : DrawsOutside s) :
    ∃ s', Vision_CirculeState1_Handle .reads s = .ok s' ∧ ¬ s'.Image_S.InRange := by
  obtain ⟨-, n, seg, anti, side, fp, hn, hseg, hanti, hside, hfp, hpoint, hlose, r, hr, hrow⟩ := hout
  obtain ⟨line, hline, hrows⟩ := SetLineWithPointK_circule (s.Image_S.broder anti)
    (h.broder side) ((s.F.side fp).feature_p 0).x
  have hrun : ∃ s', Vision_CirculeState1_Handle .reads s = .ok s' ∧
      s'.Image_S = s.Image_S.setBroder side line := by
    unfold Vision_CirculeState1_Handle
    rw [hn, deref_some, ok_bind, hseg, deref_some, ok_bind]
    dsimp only
    rw [if_pos ⟨hpoint, hlose⟩, hanti, deref_some, ok_bind, rd_reads, ok_bind, rd_reads, ok_bind,
      State1_slope, ok_bind, hside, deref_some, ok_bind, hfp, deref_some, ok_bind, hline, ok_bind,
      pure_ok, ok_bind, hlose, if_neg Bool.false_ne_true]
    exact ⟨_, rfl, rfl⟩
  obtain ⟨s', hs', hI⟩ := hrun
  refine ⟨s', hs', fun hrange => ?_⟩
  have hpix := hrange.broder side r (by omega) (by omega)
  rw [hI, Image.broder_setBroder, hrows r (by omega) (by omega)] at hpix
  omega

/-! ## Result -/

theorem CirculeHandle_enter_image (s : Vision ℚ) : (CirculeHandle_enter s).Image_S = s.Image_S := by
  simp only [CirculeHandle_enter]
  split_ifs <;> rfl

theorem CirculeHandle_check_image (s : Vision ℚ) :
    Returns (CirculeHandle_check s) fun s' => s'.Image_S = s.Image_S := by
  refine Ends.ite (fun _ => ?_) (fun _ => rfl)
  apply (deref_returns _).bind
  intro side _
  exact Ends.ite (fun _ => rfl) (fun _ => rfl)

/-- A column for each side. -/
theorem side_column {a b : ℤ} (ha : 0 ≤ a ∧ a ≤ 187) (hb : 0 ≤ b ∧ b ≤ 187) (side : Side) :
    0 ≤ (if side = .L then a else b) ∧ (if side = .L then a else b) ≤ 187 := by
  split_ifs
  · exact ha
  · exact hb

theorem Cir_PI_State3_range (inp : Inputs ℚ) (h : s.Image_S.InRange) :
    KeepsRange (Cir_PI_State3 .reads inp s) := by
  refine (circule_lines_range h ?_ ?_).bind fun v hv => ?_
  · apply side_column <;> omega
  · apply side_column <;> omega
  · exact Ends.ite (fun _ => hv) (fun _ => hv)

theorem Cir_PI_out_range (inp : Inputs ℚ) (h : s.Image_S.InRange) :
    KeepsRange (Cir_PI_out .reads inp s) := by
  refine (circule_lines_range h ?_ ?_).bind fun v hv => ?_
  · apply side_column <;> omega
  · apply side_column <;> omega
  · exact Ends.ite (fun _ => hv) (fun _ => hv)

/-- The other states of a circle draw between columns of the image, or nothing. -/
theorem Vision_Cir_PI_Handle_range (inp : Inputs ℚ) (h : s.Image_S.InRange) (hin : ¬ DrawsOutside s) :
    KeepsRange (Vision_Cir_PI_Handle .reads inp s) := by
  unfold Vision_Cir_PI_Handle
  generalize (decide (s.Circule_Handle.state = Circule_State3) ||
    decide (s.Circule_Handle.state = Circule_out)) = flag
  dsimp only
  cases hstate : s.Circule_Handle.state with
  | Circule_State1 =>
    exact Vision_CirculeState1_Handle_range (s := { s with cir_speed_flag := flag }) h hstate hin
  | Circule_State2 => exact h
  | Circule_State3 => exact Cir_PI_State3_range (s := { s with cir_speed_flag := flag }) inp h
  | Circule_Cor =>
    show (Cir_PI_Cor inp { s with cir_speed_flag := flag }).Image_S.InRange
    simp only [Cir_PI_Cor]
    split_ifs <;> exact h
  | Circule_out => exact Cir_PI_out_range (s := { s with cir_speed_flag := flag }) inp h
  | Circule_Begin => exact h
  | Circule_in => exact h
  | Circule_end => exact h

/-- The third frame in a row without a straight border on the side `anti` gives the circle up. -/
def ThirdMiss (s : Vision ℚ) (anti : Side) : Prop :=
  IsStrai ((s.F.side anti).my_segment 0) = false ∧ s.out_n = 2

/-- **A line that leaves**: on the road of a circle that is not given up, a pass begins on the side
    `circule_side s` or state 1 goes on, and the line drawn there leaves the image. -/
def LineLeaves (s : Vision ℚ) : Prop :=
  s.Current_Road = CirculeRoads ∧
    ((s.Circule_Handle.state = Circule_Begin ∧ ¬ ThirdMiss s (circule_side s).other ∧
        LineOutside s.F s.Image_S (circule_side s) (circule_side s) (circule_side s).other
          (circule_side s) (circule_side s)) ∨
      ∃ anti, s.Circule_Handle.anti_cir_seg = some anti ∧ ¬ ThirdMiss s anti ∧ DrawsOutside s)

/-- The error detection of state 1 lets a line through that leaves. -/
theorem CirculeHandle_check_draws (hstate : s.Circule_Handle.state = Circule_State1) :
    (∃ s₁, CirculeHandle_check s = .ok s₁ ∧ DrawsOutside s₁) ↔
      ∃ anti, s.Circule_Handle.anti_cir_seg = some anti ∧ ¬ ThirdMiss s anti ∧ DrawsOutside s := by
  have hdrop : Circule_Begin ≠ Circule_State1 := by simp
  unfold CirculeHandle_check
  rw [if_pos (Or.inl hstate)]
  cases hanti : s.Circule_Handle.anti_cir_seg with
  | none =>
    constructor
    · rintro ⟨s₁, hs₁, -⟩
      cases hs₁
    · rintro ⟨anti, hsome, -⟩
      cases hsome
  | some anti =>
    rw [deref_some, ok_bind]
    dsimp only
    -- the test of the source asks for the straight border twice
    have habsorb : ∀ p q : Bool, (!(p && q || p)) = !p := by simp
    rw [habsorb]
    cases hstrai : IsStrai ((s.F.side anti).my_segment 0) with
    | true =>
      rw [Bool.not_true, if_neg Bool.false_ne_true, if_neg (by omega)]
      constructor
      · rintro ⟨s₁, hs₁, hout⟩
        cases hs₁
        exact ⟨anti, rfl, fun hmiss => absurd (hstrai.symm.trans hmiss.1) (by simp), hout⟩
      · rintro ⟨_, -, -, hout⟩
        exact ⟨_, rfl, hout⟩
    | false =>
      rw [Bool.not_false, if_pos rfl]
      -- the third frame in a row ends the circle, and nothing is drawn
      by_cases h3 : s.out_n + 1 = 3
      · rw [if_pos h3]
        constructor
        · rintro ⟨s₁, hs₁, hout⟩
          cases hs₁
          exact absurd hout.1 hdrop
        · rintro ⟨anti', hsome, hmiss, -⟩
          cases hsome
          exact absurd ⟨hstrai, by omega⟩ hmiss
      · rw [if_neg h3]
        constructor
        · rintro ⟨s₁, hs₁, hout⟩
          cases hs₁
          exact ⟨anti, rfl, fun hmiss => h3 (by rw [hmiss.2]; rfl), hout⟩
        · rintro ⟨_, -, -, hout⟩
          exact ⟨_, rfl, hout⟩

/-- In the other states no line of state 1 is drawn. -/
theorem CirculeHandle_check_other (hstate : s.Circule_Handle.state ≠ Circule_State1) :
    ¬ ∃ s₁, CirculeHandle_check s = .ok s₁ ∧ DrawsOutside s₁ := by
  have hdrop : Circule_Begin ≠ Circule_State1 := by simp
  have hkeeps : Returns (CirculeHandle_check s) fun s₁ =>
      s₁.Circule_Handle.state ≠ Circule_State1 := by
    refine Ends.ite (fun _ => ?_) (fun _ => hstate)
    apply (deref_returns _).bind
    intro anti _
    exact Ends.ite (fun _ => hdrop) (fun _ => hstate)
  rintro ⟨s₁, hs₁, hout⟩
  exact hkeeps.of_ok hs₁ hout.1

/-- Where a line leaves, the handlers of the state after the error detection draw it. -/
theorem lineLeaves_iff (hroad : s.Current_Road = CirculeRoads) :
    LineLeaves s ↔ ∃ s₁, CirculeHandle_check (CirculeHandle_enter s) = .ok s₁ ∧ DrawsOutside s₁ := by
  by_cases hbegin : s.Circule_Handle.state = Circule_Begin
  · -- a pass begins: every pointer points into the half of its side
    rw [CirculeHandle_enter, if_pos hbegin, CirculeHandle_check_draws rfl]
    constructor
    · rintro ⟨-, ⟨-, hmiss, hout⟩ | ⟨_, -, -, hstate, -⟩⟩
      · exact ⟨_, rfl, hmiss, rfl, _, _, _, _, _, rfl, rfl, rfl, rfl, rfl, hout⟩
      · exact absurd (hbegin.symm.trans hstate) (by simp)
    · rintro ⟨anti, hanti, hmiss, -, n, seg, anti', side, fp, hn, hseg, hanti', hside, hfp, hout⟩
      cases hanti
      cases hn
      cases hseg
      cases hanti'
      cases hside
      cases hfp
      exact ⟨hroad, Or.inl ⟨hbegin, hmiss, hout⟩⟩
  · rw [CirculeHandle_enter, if_neg hbegin]
    by_cases hstate : s.Circule_Handle.state = Circule_State1
    · rw [CirculeHandle_check_draws hstate]
      constructor
      · rintro ⟨-, ⟨h, -⟩ | h⟩
        · exact absurd h hbegin
        · exact h
      · exact fun h => ⟨hroad, Or.inr h⟩
    · constructor
      · rintro ⟨-, ⟨h, -⟩ | ⟨_, -, -, h⟩⟩
        · exact absurd h hbegin
        · exact absurd h.1 hstate
      · exact fun h => absurd h (CirculeHandle_check_other hstate)

/-- **Range**: from borders in the image, on any record, road and circle state, `Vision_RSHandle`
    leaves borders and a mid-line in the image unless state 1 of a circle draws a line that leaves
    it. -/
theorem Vision_RSHandle_range (inp : Inputs ℚ) (hl : Pixels s.Image_S.leftBroder)
    (hr : Pixels s.Image_S.rightBroder) :
    (∀ s', Vision_RSHandle .reads inp s = .ok s' → s'.Image_S.InRange) ↔ ¬ LineLeaves s := by
  have h : s.Image_S.InRange := Image.inRange_of_pixels hl hr
  -- the watch writes no border
  have hcheck : ∀ s₁, CirculeHandle_check (CirculeHandle_enter s) = .ok s₁ → s₁.Image_S.InRange := by
    intro s₁ hs₁
    rw [(CirculeHandle_check_image _).of_ok hs₁, CirculeHandle_enter_image]
    exact h
  constructor
  · intro hall hleaves
    have hroad := hleaves.1
    -- state 1 is reached with a line that leaves, and draws it
    obtain ⟨s₁, hs₁, hout⟩ := (lineLeaves_iff hroad).mp hleaves
    obtain ⟨s', hs', hno⟩ := Vision_CirculeState1_Handle_outside
      (s := { s₁ with cir_speed_flag := false }) (hcheck s₁ hs₁) hout
    refine hno (hall s' ?_)
    rw [Vision_RSHandle, hroad]
    show (CirculeHandle_check (CirculeHandle_enter s) >>= Vision_Cir_PI_Handle .reads inp) = .ok s'
    rw [hs₁, ok_bind, Vision_Cir_PI_Handle, hout.1]
    exact hs'
  · intro hin s' hs'
    have hkeeps : KeepsRange (Vision_RSHandle .reads inp s) := by
      rw [Vision_RSHandle]
      cases hroad : s.Current_Road with
      | LoseRoads => exact h
      | NormalRoads => exact h
      | CrossRoads => exact Vision_CrossHandle_range h
      | CornerRoads => exact Vision_CornerHandle_range h
      | ZebraRoads => exact Ends.ite (fun _ => trivial) (fun _ => Ends.ite (fun _ => h) (fun _ => h))
      | CirculeRoads =>
        cases hs₁ : CirculeHandle_check (CirculeHandle_enter s) with
        | error e =>
          show KeepsRange (CirculeHandle_check (CirculeHandle_enter s) >>=
            Vision_Cir_PI_Handle .reads inp)
          rw [hs₁]
          trivial
        | ok s₁ =>
          show KeepsRange (CirculeHandle_check (CirculeHandle_enter s) >>=
            Vision_Cir_PI_Handle .reads inp)
          have hno : ¬ DrawsOutside s₁ :=
            fun hout => hin ((lineLeaves_iff hroad).mpr ⟨s₁, hs₁, hout⟩)
          rw [hs₁, ok_bind]
          exact Vision_Cir_PI_Handle_range inp (hcheck s₁ hs₁) hno
    exact hkeeps.of_ok hs'

end

/-- In state 1 of a circle on the left: a corner at row 10 and column 20, and a right border that
    moves out by a column a row. -/
def circleState : Vision ℚ :=
  { Vision.start ⟨fun i => 10 + i, fun i => 100 + i⟩ with
    Current_Road := CirculeRoads
    F := ⟨{ FeatureSide.cleared with
        my_segment := fun k => if k = 0 then ⟨69, 10, straight_segment, NEAR⟩ else segment_t.cleared
        feature_p := fun _ => ⟨10, 20⟩
        FP_n := 1
        segment_n := 1 },
      { FeatureSide.cleared with
        my_segment := fun k => if k = 0 then ⟨69, 0, straight_segment, NEAR⟩ else segment_t.cleared
        segment_n := 1 }⟩
    Circule_Handle :=
      { (Vision.start ⟨fun _ => 0, fun _ => 0⟩ : Vision ℚ).Circule_Handle.aim .L with
        state := Circule_State1 } }

def circleInputs : Inputs ℚ := ⟨false, 0, 0, 0⟩

theorem circleState_pixels :
    Pixels circleState.Image_S.leftBroder ∧ Pixels circleState.Image_S.rightBroder := by
  constructor
  · intro i h0 h69
    show 0 ≤ 10 + i ∧ 10 + i ≤ 187
    omega
  · intro i h0 h69
    show 0 ≤ 100 + i ∧ 100 + i ≤ 187
    omega

theorem Vision_RSHandle_range_circle :
    (∀ s', Vision_RSHandle .reads circleInputs circleState = .ok s' → s'.Image_S.InRange) ↔
      ¬ LineLeaves circleState :=
  Vision_RSHandle_range circleInputs circleState_pixels.1 circleState_pixels.2

/-- Its line through the corner reaches column -39 next to the car. -/
theorem Vision_RSHandle_range_leaves :
    Pixels circleState.Image_S.leftBroder ∧ Pixels circleState.Image_S.rightBroder ∧
      ∃ s', Vision_RSHandle .reads circleInputs circleState = .ok s' ∧
        s'.Image_S.leftBroder 69 = -39 ∧ ¬ s'.Image_S.InRange := by
  have hrow : ((Vision_RSHandle .reads circleInputs circleState).toOption.map fun s' =>
      s'.Image_S.leftBroder 69) = some (-39) := by decide +kernel
  obtain ⟨s', hs', h69⟩ := exists_of_toOption hrow
  refine ⟨circleState_pixels.1, circleState_pixels.2, s', hs', h69, fun hrange => ?_⟩
  have hpix := hrange.1 69 (by omega) (by omega)
  omega

end Car2025
