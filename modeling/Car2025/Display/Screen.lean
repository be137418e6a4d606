/-
  `zf_device_ips200.c`: windows on the screen.

  1. **Program** — each drawing function sets windows, character by character or for a word of signs; an
     assertion stops the program if a window is not on the screen.

  2. **Drawing (`Draws`)** — what a drawing function needs to return, and the box that it draws in; two
     drawings one after the other (`Draws.append`).

  The screen is `IPS200_CROSSWISE`.  Of a font the model has its name and how many signs it holds; the
  colours are left out.
-/
import Mathlib
import Car2025.Lib.Layout
import Car2025.Display.Text

namespace Car2025

open Layout

/-! ## Program -/

abbrev ips200_x_max : ℕ := 320
abbrev ips200_y_max : ℕ := 240

/-- The arrays of signs in `classify.c`. -/
inductive Chinese where
  | num | kind
  | mouse | Keyboard | Monitor | Headphones | sound_system | Printer | Mobile_phone
  | Wrench | screwdriver | Electric_drill | Pliers | multimeter | oscilloscope | soldering_iron
  | Tape_measure
  deriving DecidableEq, Repr

/-- What a window shows: a character, or some signs of a font. -/
inductive Shown where
  | char (dat : Char)
  | chinese (chinese_buffer : Chinese) (number : ℕ)
  deriving DecidableEq, Repr

/-- The window of `ips200_set_region`, and what it shows. -/
structure Window where
  area : Rect
  shown : Shown
  deriving DecidableEq, Repr

/-- `zf_assert` stops the program. -/
def zf_assert (pass : Prop) [Decidable pass] : Option Unit := if pass then some () else none

/-- `ips200_set_region`, and what is written to the window. -/
def ips200_set_region (x1 y1 x2 y2 : ℕ) (shown : Shown) : Option Window := do
  zf_assert (x1 < ips200_x_max)
  zf_assert (y1 < ips200_y_max)
  zf_assert (x2 < ips200_x_max)
  zf_assert (y2 < ips200_y_max)
  pure ⟨⟨x1, y1, x2, y2⟩, shown⟩

/-- `ips200_show_char`, with `IPS200_8X16_FONT` -/
def ips200_show_char (x y : ℕ) (dat : Char) : Option Window := do
  zf_assert (x < ips200_x_max)
  zf_assert (y < ips200_y_max)
  ips200_set_region x y (x + 7) (y + 15) (.char dat)

/-- The loop of `ips200_show_string`. -/
def ips200_show_chars (x y : ℕ) : List Char → Option (List Window)
  | [] => some []
  | dat :: text => do
    let w ← ips200_show_char x y dat
    let ws ← ips200_show_chars (x + 8) y text
    pure (w :: ws)

/-- `ips200_show_string` -/
def ips200_show_string (x y : ℕ) (dat : List Char) : Option (List Window) := do
  zf_assert (x < ips200_x_max)
  zf_assert (y < ips200_y_max)
  ips200_show_chars x y dat

/-- `ips200_show_int` -/
def ips200_show_int (x y : ℕ) (dat : ℤ) (num : ℕ) : Option (List Window) := do
  zf_assert (x < ips200_x_max)
  zf_assert (y < ips200_y_max)
  zf_assert (0 < num)
  zf_assert (num ≤ 10)
  ips200_show_string x y (ips200_int_text dat num)

/-- `ips200_show_float` -/
def ips200_show_float {R : Type} [CFloat R] (x y : ℕ) (dat : R) (num pointnum : ℕ) :
    Option (List Window) := do
  zf_assert (x < ips200_x_max)
  zf_assert (y < ips200_y_max)
  zf_assert (0 < num)
  zf_assert (num ≤ 8)
  zf_assert (0 < pointnum)
  zf_assert (pointnum ≤ 6)
  ips200_show_string x y (ips200_float_text dat num pointnum)

/-- `ips200_show_chinese` -/
def ips200_show_chinese (x y size : ℕ) (chinese_buffer : Chinese) (number : ℕ) :
    Option (List Window) := do
  zf_assert (x < ips200_x_max)
  zf_assert (y < ips200_y_max)
  let w ← ips200_set_region x y (number * size - 1 + x) (y + size - 1)
    (.chinese chinese_buffer number)
  pure [w]

/-! ## Drawing -/

/-- A drawing function: it returns if `ok` holds, else an assertion stops it; its windows make a page
    in the box. -/
structure Draws (d : Option (List Window)) (ok : Prop) (box : Rect) : Prop where
  returns : d.isSome ↔ ok
  tiles : ∀ {ws}, d = some ws → Tiles Window.area ws box

section

variable {d d' : Option (List Window)} {ok ok' : Prop} {a b box : Rect} {x y : ℕ}

theorem Draws.of_iff (h : Draws d ok box) (hok : ok ↔ ok') : Draws d ok' box :=
  ⟨h.returns.trans hok, h.tiles⟩

theorem Draws.mono (h : Draws d ok a) (ha : a.In box) : Draws d ok box :=
  ⟨h.returns, fun hws => (h.tiles hws).mono ha⟩

/-- One drawing after the other. -/
def both (d d' : Option (List Window)) : Option (List Window) := do
  let ws ← d
  let ws' ← d'
  pure (ws ++ ws')

theorem both_eq_some_iff {ws : List Window} :
    both d d' = some ws ↔ ∃ ws₁ ws₂, d = some ws₁ ∧ d' = some ws₂ ∧ ws = ws₁ ++ ws₂ := by
  cases d <;> cases d' <;> simp [both, eq_comm]

theorem isSome_both : (both d d').isSome ↔ d.isSome ∧ d'.isSome := by
  cases d <;> cases d' <;> simp [both]

theorem both_assoc (d₁ d₂ d₃ : Option (List Window)) :
    both (both d₁ d₂) d₃ = both d₁ (both d₂ d₃) := by
  cases d₁ <;> cases d₂ <;> cases d₃ <;> simp [both]

/-- **One after the other**, with the second in a box of its own.  So the pages of a screen are put
    together from their parts, and only the boxes have to be compared. -/
theorem Draws.append (h : Draws d ok a) (h' : Draws d' ok' b) (hab : a.Apart b) (ha : a.In box)
    (hb : b.In box) : Draws (both d d') (ok ∧ ok') box := by
  constructor
  · rw [isSome_both, h.returns, h'.returns]
  · intro ws hws
    obtain ⟨ws₁, ws₂, hd, hd', rfl⟩ := both_eq_some_iff.mp hws
    exact (h.tiles hd).append (h'.tiles hd') hab ha hb

theorem Draws.of_eq {ws : List Window} [Decidable ok] (h : d = if ok then some ws else none)
    (htiles : Tiles Window.area ws box) : Draws d ok box := by
  constructor
  · rw [h]
    split <;> simp_all
  · intro ws' hws'
    rw [h] at hws'
    split at hws'
    · exact Option.some.inj hws' ▸ htiles
    · cases hws'

theorem zf_assert_bind {α : Type} (pass : Prop) [Decidable pass] (f : Unit → Option α) :
    (zf_assert pass >>= f) = if pass then f () else none := by
  rw [zf_assert]
  split_ifs <;> rfl

theorem ips200_set_region_eq (x1 y1 x2 y2 : ℕ) (shown : Shown) :
    ips200_set_region x1 y1 x2 y2 shown =
      if x1 < 320 ∧ y1 < 240 ∧ x2 < 320 ∧ y2 < 240 then some ⟨⟨x1, y1, x2, y2⟩, shown⟩ else none := by
  rw [ips200_set_region, zf_assert_bind, zf_assert_bind, zf_assert_bind, zf_assert_bind]
  simp only [ips200_x_max, ips200_y_max]
  split_ifs <;> first | rfl | omega

theorem ips200_show_char_eq (x y : ℕ) (dat : Char) :
    ips200_show_char x y dat =
      if x + 8 ≤ 320 ∧ y + 16 ≤ 240 then some ⟨⟨x, y, x + 7, y + 15⟩, .char dat⟩ else none := by
  rw [ips200_show_char, zf_assert_bind, zf_assert_bind, ips200_set_region_eq]
  simp only [ips200_x_max, ips200_y_max]
  split_ifs <;> first | rfl | omega

/-- The windows of a text, from a place on. -/
def char_windows (x y : ℕ) : List Char → List Window
  | [] => []
  | dat :: text => ⟨⟨x, y, x + 7, y + 15⟩, .char dat⟩ :: char_windows (x + 8) y text

/-- A row of characters fits exactly when its last one does; each is 8 columns wide, so nothing
    else has to be checked on the way. -/
theorem ips200_show_chars_eq (y : ℕ) (text : List Char) : ∀ x, ips200_show_chars x y text =
    if text = [] ∨ x + 8 * text.length ≤ 320 ∧ y + 16 ≤ 240 then some (char_windows x y text)
    else none := by
  induction text with
  | nil =>
    intro x
    rfl
  | cons dat text ih =>
    intro x
    rw [ips200_show_chars, ips200_show_char_eq, ih, List.length_cons]
    by_cases hfits : x + 8 * (text.length + 1) ≤ 320 ∧ y + 16 ≤ 240
    · rw [if_pos (by omega), if_pos (by omega), if_pos (by omega)]
      rfl
    · have hnone : ¬ (dat :: text = [] ∨ x + 8 * (text.length + 1) ≤ 320 ∧ y + 16 ≤ 240) := by
        rintro (h | h)
        · cases h
        · exact hfits h
      rw [if_neg hnone]
      by_cases hhere : x + 8 ≤ 320 ∧ y + 16 ≤ 240
      · -- the rest of the text does not fit
        have hrest : ¬ (text = [] ∨ x + 8 + 8 * text.length ≤ 320 ∧ y + 16 ≤ 240) := by
          rintro (rfl | h)
          · exact hfits (by simpa using hhere)
          · omega
        rw [if_pos hhere, if_neg hrest]
        rfl
      · rw [if_neg hhere]
        rfl

/-- The windows of a row of characters lie side by side and fill the strip. -/
theorem char_windows_tiles (y : ℕ) (text : List Char) : ∀ x,
    Tiles Window.area (char_windows x y text) ⟨x, y, x + 8 * text.length - 1, y + 15⟩ := by
  induction text with
  | nil => exact fun x => Tiles.nil
  | cons dat text ih =>
    intro x
    have hfirst : Tiles Window.area [⟨⟨x, y, x + 7, y + 15⟩, .char dat⟩] ⟨x, y, x + 7, y + 15⟩ :=
      Tiles.single ⟨Nat.le_add_right x 7, Nat.le_add_right y 15⟩ (.refl _)
    -- the next character begins where this one ends
    refine hfirst.append (ih (x + 8)) (Or.inl ?_) ?_ ?_
    · exact Nat.lt_succ_self _
    · refine ⟨le_rfl, le_rfl, ?_, le_rfl⟩
      show x + 7 ≤ x + 8 * (text.length + 1) - 1
      omega
    · refine ⟨Nat.le_add_right x 8, le_rfl, ?_, le_rfl⟩
      show x + 8 + 8 * text.length - 1 ≤ x + 8 * (text.length + 1) - 1
      omega

theorem ips200_show_string_eq {text : List Char} (hne : text ≠ []) (x y : ℕ) :
    ips200_show_string x y text =
      if x + 8 * text.length ≤ 320 ∧ y + 16 ≤ 240 then some (char_windows x y text) else none := by
  have hpos : 0 < text.length := List.length_pos_iff.mpr hne
  rw [ips200_show_string, zf_assert_bind, zf_assert_bind, ips200_show_chars_eq]
  simp only [ips200_x_max, ips200_y_max, hne, false_or]
  split_ifs <;> first | rfl | omega

/-- **An integer** with two places takes three characters, as one is kept for the sign. -/
theorem ips200_show_int_eq (x y dat : ℕ) :
    ips200_show_int x y dat 2 =
      if x + 24 ≤ 320 ∧ y + 16 ≤ 240 then some (char_windows x y (ips200_int_text dat 2)) else none := by
  obtain ⟨hlength, -⟩ := ips200_int_text_spec dat (show 0 < 2 by decide) (by decide)
  have hne : ips200_int_text dat 2 ≠ [] := by
    intro h
    rw [h] at hlength
    cases hlength
  rw [ips200_show_int, zf_assert_bind, zf_assert_bind, zf_assert_bind, zf_assert_bind,
    ips200_show_string_eq hne, hlength]
  simp only [ips200_x_max, ips200_y_max]
  split_ifs <;> first | rfl | omega

/-- **The time**, with four places and three behind the point, takes nine characters with the sign
    and the point. -/
theorem ips200_show_float_eq (x y : ℕ) {dat : ℚ} (h0 : 0 ≤ dat) :
    ips200_show_float x y dat 4 3 =
      if x + 72 ≤ 320 ∧ y + 16 ≤ 240 then some (char_windows x y (ips200_float_text dat 4 3))
      else none := by
  obtain ⟨hlength, -⟩ := ips200_float_text_spec (show 0 < 4 by decide) (by decide)
    (show 0 < 3 by decide) h0
  have hne : ips200_float_text dat 4 3 ≠ [] := by
    intro h
    rw [h] at hlength
    cases hlength
  rw [ips200_show_float, zf_assert_bind, zf_assert_bind, zf_assert_bind, zf_assert_bind,
    zf_assert_bind, zf_assert_bind, ips200_show_string_eq hne, hlength]
  simp only [ips200_x_max, ips200_y_max]
  split_ifs <;> first | rfl | omega

/-- **Signs** of 16 by 16 points, in one window for all of them. -/
theorem ips200_show_chinese_eq (x y : ℕ) (chinese_buffer : Chinese) {number : ℕ} (h : 0 < number) :
    ips200_show_chinese x y 16 chinese_buffer number =
      if x + 16 * number ≤ 320 ∧ y + 16 ≤ 240 then
        some [⟨⟨x, y, number * 16 - 1 + x, y + 16 - 1⟩, .chinese chinese_buffer number⟩]
      else none := by
  rw [ips200_show_chinese, zf_assert_bind, zf_assert_bind, ips200_set_region_eq]
  simp only [ips200_x_max, ips200_y_max]
  split_ifs <;> first | rfl | omega

end

end Car2025
