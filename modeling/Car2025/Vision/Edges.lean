/-
  The edges that the searches of `Camera_FindMyLine` end at.

  1. **Searches** — a search sets the border of its first hit, or a lost border where it has none
     (`set_left_spec`, `set_right_spec`).

  2. **Rows above the first (`trace_row_found`)** — each border is the first edge of its search.

  3. **The first row** — with a bright middle likewise; with a dark one a strip of track to the left of
     it is kept where both sides have one, and its left border is stored one column too far to the
     right (`first_black_left`).
-/
import Mathlib
import Car2025.Vision.Binary

namespace Car2025

/-! ## Searches -/

section

variable {hit : ℤ → Bool} {low start last j : ℤ} {r : Row}

/-- The search down from `start` has its first hit at `j`, above `low`. -/
def FirstDown (hit : ℤ → Bool) (low start j : ℤ) : Prop :=
  low < j ∧ j ≤ start ∧ hit j = true ∧ ∀ l, j < l → l ≤ start → hit l = false

/-- It has no hit above `low`. -/
def NoneDown (hit : ℤ → Bool) (low start : ℤ) : Prop := ∀ j, low < j → j ≤ start → hit j = false

/-- The search up from `start` has its first hit at `j`, before `last`. -/
def FirstUp (hit : ℤ → Bool) (start last j : ℤ) : Prop :=
  start ≤ j ∧ j < last ∧ hit j = true ∧ ∀ l, start ≤ l → l < j → hit l = false

/-- It has no hit before `last`. -/
def NoneUp (hit : ℤ → Bool) (start last : ℤ) : Prop := ∀ j, start ≤ j → j < last → hit j = false

theorem FirstDown.unique {j' : ℤ} (h : FirstDown hit low start j) (h' : FirstDown hit low start j') :
    j = j' := by
  obtain ⟨-, hle, hhit, hl⟩ := h
  obtain ⟨-, hle', hhit', hl'⟩ := h'
  rcases lt_trichotomy j j' with hlt | heq | hgt
  · rw [hl j' hlt hle'] at hhit'
    exact Bool.noConfusion hhit'
  · exact heq
  · rw [hl' j hgt hle] at hhit
    exact Bool.noConfusion hhit

theorem FirstUp.unique {j' : ℤ} (h : FirstUp hit start last j) (h' : FirstUp hit start last j') :
    j = j' := by
  obtain ⟨hle, -, hhit, hl⟩ := h
  obtain ⟨hle', -, hhit', hl'⟩ := h'
  rcases lt_trichotomy j j' with hlt | heq | hgt
  · rw [hl' j hle hlt] at hhit
    exact Bool.noConfusion hhit
  · exact heq
  · rw [hl j' hle' hgt] at hhit'
    exact Bool.noConfusion hhit'

theorem NoneDown.not_first (h : NoneDown hit low start) : ¬ FirstDown hit low start j :=
  fun hj => Bool.noConfusion ((h j hj.1 hj.2.1).symm.trans hj.2.2.1)

theorem NoneUp.not_first (h : NoneUp hit start last) : ¬ FirstUp hit start last j :=
  fun hj => Bool.noConfusion ((h j hj.1 hj.2.1).symm.trans hj.2.2.1)

theorem FirstDown.here (hlow : low < start) (h : hit start = true) :
    FirstDown hit low start start :=
  ⟨hlow, le_refl start, h, fun _ h1 h2 => absurd h1 (not_lt.mpr h2)⟩

theorem FirstUp.here (hlast : start < last) (h : hit start = true) : FirstUp hit start last start :=
  ⟨le_refl start, hlast, h, fun _ h1 h2 => absurd h1 (not_le.mpr h2)⟩

/-- A column that is no hit does not count. -/
theorem NoneDown.cons (h : NoneDown hit low (start - 1)) (hs : hit start = false) :
    NoneDown hit low start := by
  intro l h1 h2
  rcases eq_or_lt_of_le h2 with rfl | hlt
  · exact hs
  · exact h l h1 (by omega)

theorem NoneUp.cons (h : NoneUp hit (start + 1) last) (hs : hit start = false) :
    NoneUp hit start last := by
  intro l h1 h2
  rcases eq_or_lt_of_le h1 with rfl | hlt
  · exact hs
  · exact h l (by omega) h2

theorem FirstDown.cons (h : FirstDown hit low (start - 1) j) (hs : hit start = false) :
    FirstDown hit low start j := by
  obtain ⟨hlow, hle, hhit, hl⟩ := h
  exact ⟨hlow, by omega, hhit, NoneDown.cons hl hs⟩

theorem FirstUp.cons (h : FirstUp hit (start + 1) last j) (hs : hit start = false) :
    FirstUp hit start last j := by
  obtain ⟨hle, hlast, hhit, hl⟩ := h
  exact ⟨by omega, hlast, hhit, NoneUp.cons hl hs⟩

/-- **A search down** ends at its first hit, or at `low`, by induction on the columns that are
    left. -/
theorem seek_down_spec (hit : ℤ → Bool) (h0 : 0 ≤ low) : ∀ (n : ℕ) (start : ℤ), start = n →
    low ≤ start →
    (∃ j, FirstDown hit low start j ∧ seek_down hit low n start = (j, true)) ∨
      NoneDown hit low start ∧ (seek_down hit low n start).1 = low := by
  intro n
  induction n with
  | zero =>
    intro start hn hlow
    push_cast at hn
    exact Or.inr ⟨fun j h1 h2 => absurd h1 (by omega), by rw [seek_down]; omega⟩
  | succ n ih =>
    intro start hn hlow
    push_cast at hn
    rw [seek_down]
    by_cases hle : start ≤ low
    · refine Or.inr ⟨fun j h1 h2 => absurd h1 (by omega), ?_⟩
      rw [if_pos hle]
      split_ifs <;> dsimp only <;> omega
    · cases hhit : hit start with
      | true =>
        rw [if_pos rfl]
        exact Or.inl ⟨start, FirstDown.here (not_le.mp hle) hhit, rfl⟩
      | false =>
        rw [if_neg Bool.false_ne_true, if_neg hle]
        rcases ih (start - 1) (by omega) (by omega) with ⟨j, hj, heq⟩ | ⟨hnone, heq⟩
        · exact Or.inl ⟨j, hj.cons hhit, heq⟩
        · exact Or.inr ⟨hnone.cons hhit, heq⟩

/-- **A search up** ends at its first hit, or at `last`, where it says itself that it found none. -/
theorem seek_up_spec (hit : ℤ → Bool) : ∀ (n : ℕ) (start : ℤ), start + n = last →
    (∃ j, FirstUp hit start last j ∧ seek_up hit n start = (j, true)) ∨
      NoneUp hit start last ∧ seek_up hit n start = (last, false) := by
  intro n
  induction n with
  | zero =>
    intro start hn
    push_cast at hn
    refine Or.inr ⟨fun j h1 h2 => absurd h1 (by omega), ?_⟩
    rw [seek_up, ← hn, add_zero]
  | succ n ih =>
    intro start hn
    push_cast at hn
    rw [seek_up]
    cases hhit : hit start with
    | true =>
      rw [if_pos rfl]
      exact Or.inl ⟨start, FirstUp.here (by omega) hhit, rfl⟩
    | false =>
      rw [if_neg Bool.false_ne_true]
      rcases ih (start + 1) (by omega) with ⟨j, hj, heq⟩ | ⟨hnone, heq⟩
      · exact Or.inl ⟨j, hj.cons hhit, heq⟩
      · exact Or.inr ⟨hnone.cons hhit, heq⟩

/-- A left border after a search: the column beside the first edge on the way down, or 0 with the
    flag raised where there is none. -/
theorem set_left_spec (hit : ℤ → Bool) (r : Row) (h0 : 0 ≤ low) (hlow : low ≤ start) :
    (∃ j, FirstDown hit low start j ∧ set_left low (seek_down hit low start.toNat start) r =
      { r with leftBroder := j - 1, left_add_flag := false }) ∨
    NoneDown hit low start ∧ set_left low (seek_down hit low start.toNat start) r =
      { r with leftBroder := 0, left_add_flag := true } := by
  rcases seek_down_spec hit h0 start.toNat start (by omega) hlow with ⟨j, hj, heq⟩ | ⟨hnone, heq⟩
  · refine Or.inl ⟨j, hj, ?_⟩
    have hne : j ≠ low := hj.1.ne'
    rw [heq]
    simp only [set_left, if_pos, if_neg hne]
  · refine Or.inr ⟨hnone, ?_⟩
    simp only [set_left]
    rw [if_pos heq]
    split_ifs <;> rfl

/-- A right border after a search: the first edge on the way up, or the last column with the flag
    raised. -/
theorem set_right_spec (hit : ℤ → Bool) (r : Row) (hlast : start ≤ last) :
    (∃ j, FirstUp hit start last j ∧ set_right last (seek_up hit (last - start).toNat start) r =
      { r with rightBroder := j, right_add_flag := false }) ∨
    NoneUp hit start last ∧ set_right last (seek_up hit (last - start).toNat start) r =
      { r with rightBroder := imgCol - 1, right_add_flag := true } := by
  have hend : start + ((last - start).toNat : ℤ) = last := by omega
  rcases seek_up_spec hit (last - start).toNat start hend with ⟨j, hj, heq⟩ | ⟨hnone, heq⟩
  · refine Or.inl ⟨j, hj, ?_⟩
    have hne : j ≠ last := hj.2.1.ne
    rw [heq]
    simp only [set_right, if_pos, if_neg hne]
  · refine Or.inr ⟨hnone, ?_⟩
    rw [heq]
    simp only [set_right, if_pos, if_neg Bool.false_ne_true]

end

/-! ## Rows above the first -/

section

variable {Threshold : ℤ} {row : ℤ → ℤ} {below r : Row}

/-- What the search for the left border finds, from the row below: the column before the first edge,
    or a lost border. -/
def LeftFound (Threshold : ℤ) (row : ℤ → ℤ) (below : Row) (c : ℤ) (lost : Bool) : Prop :=
  (lost = false ∧ FirstDown (left_edge Threshold row) (left_search below).1 (left_search below).2
    (c + 1)) ∨
  (lost = true ∧ c = 0 ∧
    NoneDown (left_edge Threshold row) (left_search below).1 (left_search below).2)

/-- What the search for the right border finds. -/
def RightFound (Threshold : ℤ) (row : ℤ → ℤ) (below : Row) (c : ℤ) (lost : Bool) : Prop :=
  (lost = false ∧ FirstUp (right_edge Threshold row) (right_search below).1 (right_search below).2
    c) ∨
  (lost = true ∧ c = 187 ∧
    NoneUp (right_edge Threshold row) (right_search below).1 (right_search below).2)

theorem LeftFound.unique {c c' : ℤ} {lost lost' : Bool} (h : LeftFound Threshold row below c lost)
    (h' : LeftFound Threshold row below c' lost') : c = c' := by
  rcases h with ⟨-, hc⟩ | ⟨-, rfl, hnone⟩ <;> rcases h' with ⟨-, hc'⟩ | ⟨-, rfl, hnone'⟩
  · have heq := hc.unique hc'
    omega
  · exact absurd hc hnone'.not_first
  · exact absurd hc' hnone.not_first
  · rfl

theorem RightFound.unique {c c' : ℤ} {lost lost' : Bool} (h : RightFound Threshold row below c lost)
    (h' : RightFound Threshold row below c' lost') : c = c' := by
  rcases h with ⟨-, hc⟩ | ⟨-, rfl, hnone⟩ <;> rcases h' with ⟨-, hc'⟩ | ⟨-, rfl, hnone'⟩
  · exact hc.unique hc'
  · exact absurd hc hnone'.not_first
  · exact absurd hc' hnone.not_first
  · rfl

/-- **A row above the first** has the borders that its searches find, from columns that the row
    below gives. -/
theorem trace_row_found (h : below.InImage) :
    LeftFound Threshold row below (trace_row Threshold row below).leftBroder
      (trace_row Threshold row below).left_add_flag ∧
    RightFound Threshold row below (trace_row Threshold row below).rightBroder
      (trace_row Threshold row below).right_add_flag := by
  obtain ⟨hl0, hl1, -⟩ := left_search_range h
  obtain ⟨-, hr1, -⟩ := right_search_range h
  rw [trace_row, trace_right_eq, trace_left_eq]
  constructor
  · rw [(set_right_left _ _ _).1, (set_right_left _ _ _).2]
    rcases set_left_spec (left_edge Threshold row) Row.cleared hl0 hl1 with
      ⟨j, hj, heq⟩ | ⟨hnone, heq⟩
    · rw [heq]
      refine Or.inl ⟨rfl, ?_⟩
      rw [sub_add_cancel]
      exact hj
    · rw [heq]
      exact Or.inr ⟨rfl, rfl, hnone⟩
  · rcases set_right_spec (right_edge Threshold row) (set_left (left_search below).1
      (seek_down (left_edge Threshold row) (left_search below).1 (left_search below).2.toNat
        (left_search below).2) Row.cleared) hr1 with ⟨j, hj, heq⟩ | ⟨hnone, heq⟩
    · rw [heq]
      exact Or.inl ⟨rfl, hj⟩
    · rw [heq]
      exact Or.inr ⟨rfl, rfl, hnone⟩

/-! ## The first row -/

/-- With a bright middle both borders are searched from it. -/
theorem first_white_found (Threshold : ℤ) (row : ℤ → ℤ) :
    ((∃ j, FirstDown (left_edge Threshold row) 0 (MID_COL - 1) j ∧
        (first_white Threshold row).leftBroder = j - 1) ∨
      (first_white Threshold row).leftBroder = 0) ∧
    ((∃ j, FirstUp (right_edge Threshold row) (MID_COL - 1) imgCol j ∧
        (first_white Threshold row).rightBroder = j) ∨
      (first_white Threshold row).rightBroder = imgCol - 1) := by
  have hmid : 0 ≤ MID_COL - 1 := by decide
  have hmid' : MID_COL - 1 ≤ imgCol := by decide
  rw [first_white]
  constructor
  · rw [(set_right_left _ _ _).1]
    rcases set_left_spec (left_edge Threshold row) Row.cleared (le_refl 0) hmid with
      ⟨j, hj, heq⟩ | ⟨-, heq⟩
    · exact Or.inl ⟨j, hj, congrArg Row.leftBroder heq⟩
    · exact Or.inr (congrArg Row.leftBroder heq)
  · rcases set_right_spec (right_edge Threshold row) (set_left 0
      (seek_down (left_edge Threshold row) 0 (MID_COL - 1).toNat (MID_COL - 1)) Row.cleared)
      hmid' with ⟨j, hj, heq⟩ | ⟨-, heq⟩
    · exact Or.inl ⟨j, hj, congrArg Row.rightBroder heq⟩
    · exact Or.inr (congrArg Row.rightBroder heq)

/-- A strip to the right of the middle that does not end in the image. -/
def RightOpen (Threshold : ℤ) (row : ℤ → ℤ) : Prop :=
  ∃ j, FirstUp (left_edge Threshold row) (MID_COL - 1) imgCol j ∧
    NoneUp (right_edge Threshold row) j imgCol

/-- What the scan to the right of a black middle leaves: the ends of a strip, or nothing. -/
theorem black_right_spec (Threshold : ℤ) (row : ℤ → ℤ) (r : Row) :
    (∃ j, FirstUp (left_edge Threshold row) (MID_COL - 1) imgCol j ∧
      ((∃ w, FirstUp (right_edge Threshold row) j imgCol w ∧
        black_right Threshold row r = { r with leftBroder := j - 1, rightBroder := w }) ∨
      (NoneUp (right_edge Threshold row) j imgCol ∧ black_right Threshold row r =
        { r with leftBroder := j - 1, rightBroder := imgCol - 1, right_add_flag := true }))) ∨
    (NoneUp (left_edge Threshold row) (MID_COL - 1) imgCol ∧ black_right Threshold row r = r) := by
  have hend : MID_COL - 1 + ((imgCol - (MID_COL - 1)).toNat : ℤ) = imgCol := by decide
  rcases seek_up_spec (left_edge Threshold row) (imgCol - (MID_COL - 1)).toNat (MID_COL - 1)
    hend with ⟨j, hj, heq⟩ | ⟨hnone, heq⟩
  · refine Or.inl ⟨j, hj, ?_⟩
    have hne : j ≠ imgCol := hj.2.1.ne
    have hend' : j + ((imgCol - j).toNat : ℤ) = imgCol := by
      have hlt := hj.2.1
      omega
    simp only [black_right, heq, if_true, sub_add_cancel, ne_eq, hne, not_false_eq_true]
    rcases seek_up_spec (right_edge Threshold row) (imgCol - j).toNat j hend' with
      ⟨w, hw, heq'⟩ | ⟨hnone, heq'⟩
    · refine Or.inl ⟨w, hw, ?_⟩
      rw [heq']
      simp only [if_true, if_neg hw.2.1.ne]
    · refine Or.inr ⟨hnone, ?_⟩
      rw [heq']
      simp only [if_true, if_neg Bool.false_ne_true]
  · refine Or.inr ⟨hnone, ?_⟩
    simp only [black_right, heq, if_neg Bool.false_ne_true, ne_eq, not_true_eq_false, if_false]

/-- What the scan to the left of it leaves: the strip's left border is the bright column of its
    edge. -/
theorem black_left_spec (Threshold : ℤ) (row : ℤ → ℤ) (r : Row) :
    (∃ z, FirstDown (right_edge Threshold row) 0 (MID_COL - 1) z ∧
      ((∃ w, FirstDown (left_edge Threshold row) 0 (z - 1) w ∧
        black_left Threshold row r = { r with leftBroder := w, rightBroder := z }) ∨
      (NoneDown (left_edge Threshold row) 0 (z - 1) ∧ black_left Threshold row r =
        { r with leftBroder := 1, rightBroder := z, left_add_flag := true }))) ∨
    (NoneDown (right_edge Threshold row) 0 (MID_COL - 1) ∧ black_left Threshold row r = r) := by
  rcases seek_down_spec (right_edge Threshold row) (le_refl 0) (MID_COL - 1).toNat
    (MID_COL - 1) (by decide) (by decide) with ⟨z, hz, heq⟩ | ⟨hnone, heq⟩
  · refine Or.inl ⟨z, hz, ?_⟩
    have hpos := hz.1
    have hne : z ≠ 0 := hpos.ne'
    simp only [black_left, heq, if_true, ne_eq, hne, not_false_eq_true]
    rcases seek_down_spec (left_edge Threshold row) (le_refl 0) (z - 1).toNat (z - 1)
      (by omega) (by omega) with ⟨w, hw, heq'⟩ | ⟨hnone, heq'⟩
    · refine Or.inl ⟨w, hw, ?_⟩
      rw [heq']
      simp only [if_true, if_neg hw.1.ne']
    · refine Or.inr ⟨hnone, ?_⟩
      rw [if_pos heq']
      split_ifs <;> rfl
  · refine Or.inr ⟨hnone, ?_⟩
    have hhit := seek_down_hit (right_edge Threshold row) (MID_COL - 1).toNat (MID_COL - 1)
      (by decide)
    simp only [black_left, heq, ne_eq, not_true_eq_false, if_false]
    rw [if_neg (fun h => hhit.mp h heq)]

/-- Where both borders are found, the flags stay. -/
theorem first_black_eq (h : black_left Threshold row (black_right Threshold row Row.cleared) = r)
    (hl : r.leftBroder ≠ 0) (hr : r.rightBroder ≠ 0) : first_black Threshold row = r := by
  simp only [first_black, h, if_neg hl, if_neg hr]

/-- On a cleared row the scan to the right raises its own flag only, and exactly for an open strip. -/
theorem black_right_flags (Threshold : ℤ) (row : ℤ → ℤ) :
    (black_right Threshold row Row.cleared).left_add_flag = false ∧
      ((black_right Threshold row Row.cleared).right_add_flag = true ↔ RightOpen Threshold row) := by
  rcases black_right_spec Threshold row Row.cleared with
    ⟨j, hj, ⟨w, hw, heq⟩ | ⟨hnone, heq⟩⟩ | ⟨hnone, heq⟩
  · rw [heq]
    refine ⟨rfl, fun h => Bool.noConfusion h, ?_⟩
    rintro ⟨j', hj', hnone⟩
    rw [hj.unique hj'] at hw
    exact absurd hw hnone.not_first
  · rw [heq]
    exact ⟨rfl, fun _ => ⟨j, hj, hnone⟩, fun _ => rfl⟩
  · rw [heq]
    refine ⟨rfl, fun h => Bool.noConfusion h, ?_⟩
    rintro ⟨j', hj', -⟩
    exact absurd hj' hnone.not_first

/-- **A dark middle with a strip to its left**: the strip is kept, with the column of its first
    bright pixel as its left border, or 1 where it has none. -/
theorem first_black_left {z : ℤ} (hz : FirstDown (right_edge Threshold row) 0 (MID_COL - 1) z) :
    (first_black Threshold row).rightBroder = z ∧
    ((∃ w, FirstDown (left_edge Threshold row) 0 (z - 1) w ∧
        (first_black Threshold row).leftBroder = w ∧
        (first_black Threshold row).left_add_flag = false) ∨
      (NoneDown (left_edge Threshold row) 0 (z - 1) ∧
        (first_black Threshold row).leftBroder = 1 ∧
        (first_black Threshold row).left_add_flag = true)) ∧
    ((first_black Threshold row).right_add_flag = true ↔ RightOpen Threshold row) := by
  obtain ⟨hleft, hright⟩ := black_right_flags Threshold row
  rcases black_left_spec Threshold row (black_right Threshold row Row.cleared) with
    ⟨z', hz', hstrip⟩ | ⟨hnone, -⟩
  · obtain rfl := hz.unique hz'
    rcases hstrip with ⟨w, hw, heq⟩ | ⟨hnone, heq⟩
    · rw [first_black_eq heq hw.1.ne' hz.1.ne']
      exact ⟨rfl, Or.inl ⟨w, hw, rfl, hleft⟩, hright⟩
    · rw [first_black_eq heq one_ne_zero hz.1.ne']
      exact ⟨rfl, Or.inr ⟨hnone, rfl, rfl⟩, hright⟩
  · exact absurd hz hnone.not_first

/-- With no strip to its left, the borders are those of the strip to its right. -/
theorem first_black_right (hnone : NoneDown (right_edge Threshold row) 0 (MID_COL - 1)) :
    (∃ j, FirstUp (left_edge Threshold row) (MID_COL - 1) imgCol j ∧
      (first_black Threshold row).leftBroder = j - 1 ∧
      ((∃ w, FirstUp (right_edge Threshold row) j imgCol w ∧
        (first_black Threshold row).rightBroder = w) ∨
        (first_black Threshold row).rightBroder = 187)) ∨
    ((first_black Threshold row).leftBroder = 0 ∧ (first_black Threshold row).rightBroder = 187) := by
  rcases black_left_spec Threshold row (black_right Threshold row Row.cleared) with
    ⟨z, hz, -⟩ | ⟨-, heq⟩
  · exact absurd hz hnone.not_first
  · rcases black_right_spec Threshold row Row.cleared with
      ⟨j, hj, ⟨w, hw, heq'⟩ | ⟨-, heq'⟩⟩ | ⟨-, heq'⟩
    · have hj1 := hj.1
      have hw1 := hw.1
      simp only [MID_COL] at hj1
      rw [first_black_eq (heq.trans heq') (by dsimp only; omega) (by dsimp only; omega)]
      exact Or.inl ⟨j, hj, rfl, Or.inl ⟨w, hw, rfl⟩⟩
    · have hj1 := hj.1
      simp only [MID_COL] at hj1
      rw [first_black_eq (heq.trans heq') (by dsimp only; omega)
        (by show imgCol - 1 ≠ 0; decide)]
      exact Or.inl ⟨j, hj, rfl, Or.inr rfl⟩
    · have hcleared : first_black Threshold row = { Row.cleared with left_add_flag := true } := by
        simp only [first_black]
        rw [heq, heq']
        rfl
      rw [hcleared]
      exact Or.inr ⟨rfl, rfl⟩

end

end Car2025
