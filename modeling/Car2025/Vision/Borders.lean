/-
  What `Camera_FindMyLine` leaves of an image.

  1. **Runs (`Reaches`)** — the trace comes to a row while no limit is set.  A row above row 0 that
     closes it (`Closes`) is given up with all rows beyond it; row 0 sets its limit to 0, which says
     that none is set.

  2. **Every row (`final_row`)** — a row is lost, or it is what its pass has found and does not close
     the trace.

  3. **Width (`Camera_FindMyLine_width_iff`)** — so only row 0 can be left with borders that are too
     close or crossed.

  4. **Edges (`Camera_FindMyLine_edges_iff`)** — and only the left border of row 69 and the right border
     of row 0 can be left off an edge.
-/
import Mathlib
import Car2025.Vision.Edges

namespace Car2025

/-! ## Runs -/

section

variable {Threshold : ℤ} {my_image row : ℤ → ℤ} {i : ℤ} {s : Tracer}

/-- The trace comes to row `i`, with the variables `s`. -/
inductive Reaches (Threshold : ℤ) (my_image : ℤ → ℤ) : ℤ → Tracer → Prop
  | first : Reaches Threshold my_image 69 Tracer.start
  | next {i : ℤ} {s : Tracer} (h : Reaches Threshold my_image i s) (hi : 1 ≤ i)
      (hopen : (FindMyLine_row Threshold my_image i s).Open) :
      Reaches Threshold my_image (i - 1) (FindMyLine_row Threshold my_image i s)

/-- A row that closes the trace: the track leaves the image to the left or to the right, or it is
    lost on black ground, or it is too narrow. -/
def Closes (row : ℤ → ℤ) (r : Row) : Prop :=
  (r.leftBroder ≤ r.rightBroder ∧ r.rightBroder ≤ 10) ∨
  (r.leftBroder ≤ r.rightBroder ∧ 150 ≤ r.leftBroder) ∨
  (r.left_add_flag = true ∧ r.right_add_flag = true ∧ row 25 = 0 ∧ row 135 = 0) ∨
  r.rightBroder < r.leftBroder + 6

theorem Reaches.open (h : Reaches Threshold my_image i s) : s.Open := by
  cases h with
  | first => exact ⟨rfl, rfl, rfl⟩
  | next _ _ hopen => exact hopen

theorem Reaches.range (h : Reaches Threshold my_image i s) : 0 ≤ i ∧ i ≤ 69 := by
  induction h with
  | first => omega
  | next _ hi _ ih => omega

theorem Reaches.inImage (h : Reaches Threshold my_image i s) : s.InImage := by
  induction h with
  | first => exact fun _ => Row.cleared_inImage
  | next _ _ _ ih => exact FindMyLine_row_inImage ih

/-- The row that the pass on row `i` finds. -/
def found_row (Threshold : ℤ) (my_image : ℤ → ℤ) (i : ℤ) (s : Tracer) : Row :=
  if i = imgRow - 1 then first_row Threshold (pixel my_image i)
  else trace_row Threshold (pixel my_image i) (s.rows (i + 1))

/-- The variables with row `i` found. -/
def Tracer.found (Threshold : ℤ) (my_image : ℤ → ℤ) (i : ℤ) (s : Tracer) : Tracer :=
  { s with rows := Function.update s.rows i (found_row Threshold my_image i s) }

/-- **What a pass can do**: it finds its row, and sets one limit to it if the row closes the trace.
    All that follows about runs is derived from these four cases. -/
theorem FindMyLine_row_cases (hopen : s.Open) :
    (¬ Closes (pixel my_image i) (found_row Threshold my_image i s) ∧
      FindMyLine_row Threshold my_image i s = s.found Threshold my_image i) ∨
    (Closes (pixel my_image i) (found_row Threshold my_image i s) ∧
      (FindMyLine_row Threshold my_image i s =
          { s.found Threshold my_image i with Limit_Broder0 := i } ∨
        FindMyLine_row Threshold my_image i s =
          { s.found Threshold my_image i with Limit_Broder1 := i } ∨
        FindMyLine_row Threshold my_image i s =
          { s.found Threshold my_image i with Limit_Broder2 := i })) := by
  obtain ⟨h0, h1, -⟩ := hopen
  have hrow : Function.update s.rows i (found_row Threshold my_image i s) i =
      found_row Threshold my_image i s := Function.update_self ..
  have hpass : FindMyLine_row Threshold my_image i s =
      set_limit (pixel my_image i) i (s.found Threshold my_image i) := rfl
  rw [hpass]
  simp only [set_limit, Tracer.found, hrow, Closes, h0, h1]
  -- The source tests the left limit first, then the right one, then the ground.
  split_ifs with hleft hright hlost
  · exact Or.inr ⟨Or.inl ⟨hleft.1, hleft.2.1⟩, Or.inl rfl⟩
  · exact Or.inr ⟨Or.inr (Or.inl ⟨hright.1, hright.2.1⟩), Or.inr (Or.inl rfl)⟩
  · refine Or.inr ⟨?_, Or.inr (Or.inr rfl)⟩
    rcases hlost with hground | hnarrow
    · exact Or.inr (Or.inr (Or.inl hground))
    · exact Or.inr (Or.inr (Or.inr (by omega)))
  · refine Or.inl ⟨?_, rfl⟩
    rintro (h | h | h | h)
    · exact hleft ⟨h.1, h.2, trivial⟩
    · exact hright ⟨h.1, h.2, trivial⟩
    · exact hlost (Or.inl h)
    · exact hlost (Or.inr (by omega))

theorem FindMyLine_row_rows (Threshold : ℤ) (my_image : ℤ → ℤ) (i : ℤ) (s : Tracer) :
    (FindMyLine_row Threshold my_image i s).rows =
      Function.update s.rows i (found_row Threshold my_image i s) := by
  rw [FindMyLine_row, set_limit_rows, found_row]

theorem FindMyLine_row_self (Threshold : ℤ) (my_image : ℤ → ℤ) (i : ℤ) (s : Tracer) :
    (FindMyLine_row Threshold my_image i s).rows i = found_row Threshold my_image i s := by
  rw [FindMyLine_row_rows, Function.update_self]

/-- **Row 0 never closes the trace**; above it the trace stays open unless the row closes it.  A
    limit is a row number, and 0 means that there is none. -/
theorem FindMyLine_row_open (hopen : s.Open) :
    (FindMyLine_row Threshold my_image i s).Open ↔
      i = 0 ∨ ¬ Closes (pixel my_image i) (found_row Threshold my_image i s) := by
  rcases FindMyLine_row_cases hopen with ⟨hkeep, heq⟩ | ⟨hclose, hlimit⟩
  · rw [heq]
    exact ⟨fun _ => Or.inr hkeep, fun _ => hopen⟩
  · obtain ⟨h0, h1, h2⟩ := hopen
    have hi : (FindMyLine_row Threshold my_image i s).Open ↔ i = 0 := by
      rcases hlimit with heq | heq | heq
      · rw [heq]
        exact ⟨fun h => h.1, fun hi => ⟨hi, h1, h2⟩⟩
      · rw [heq]
        exact ⟨fun h => h.2.1, fun hi => ⟨h0, hi, h2⟩⟩
      · rw [heq]
        exact ⟨fun h => h.2.2, fun hi => ⟨h0, h1, hi⟩⟩
    rw [hi]
    exact ⟨Or.inl, fun h => h.resolve_right (not_not.mpr hclose)⟩

/-! ## Rows that are given up -/

/-- Both borders hold their lost values. -/
def Row.Lost (r : Row) : Prop := r.leftBroder = 0 ∧ r.rightBroder = 187

/-- The loop marks the rows `i - n + 1 … i` as lost, and no other. -/
theorem lose_far_spec : ∀ (n : ℕ) (i : ℤ) (rows : ℤ → Row) (r : ℤ),
    lose_far n i rows r = if i - n < r ∧ r ≤ i then
      { rows r with leftBroder := 0, rightBroder := imgCol - 1 } else rows r := by
  intro n
  induction n with
  | zero =>
    intro i rows r
    rw [lose_far, if_neg (by push_cast; omega)]
  | succ n ih =>
    intro i rows r
    rw [lose_far, ih]
    by_cases hr : r = i
    · subst hr
      rw [if_neg (by omega), if_pos (by push_cast; omega), Function.update_self]
    · rw [Function.update_of_ne hr]
      by_cases hin : i - 1 - n < r ∧ r ≤ i - 1
      · rw [if_pos hin, if_pos (by push_cast; omega)]
      · rw [if_neg hin, if_neg (by push_cast; omega)]

theorem lose_far_lost {n : ℕ} {r : ℤ} {rows : ℤ → Row}
    (h : (i - n < r ∧ r ≤ i) ∨ (rows r).Lost) : (lose_far n i rows r).Lost := by
  rw [lose_far_spec]
  by_cases hin : i - n < r ∧ r ≤ i
  · rw [if_pos hin]
    exact ⟨rfl, rfl⟩
  · rw [if_neg hin]
    exact h.resolve_left hin

/-- Up to a limit all rows are lost. -/
theorem give_up_lost {r : ℤ} (h0 : 0 ≤ r)
    (h : r ≤ s.Limit_Broder0 ∨ r ≤ s.Limit_Broder1 ∨ r ≤ s.Limit_Broder2) :
    (s.give_up.rows r).Lost := by
  rcases h with h | h | h
  · exact lose_far_lost (Or.inr (lose_far_lost (Or.inr (lose_far_lost (Or.inl (by omega))))))
  · exact lose_far_lost (Or.inr (lose_far_lost (Or.inl (by omega))))
  · exact lose_far_lost (Or.inl (by omega))

/-- Beyond the limits they stay. -/
theorem give_up_of_lt {r : ℤ} (h0 : s.Limit_Broder0 < r) (h1 : s.Limit_Broder1 < r)
    (h2 : s.Limit_Broder2 < r) : s.give_up.rows r = s.rows r := by
  simp only [Tracer.give_up, lose_far_spec]
  rw [if_neg (by omega), if_neg (by omega), if_neg (by omega)]

/-- **A pass that closes the trace** gives up its row and all rows beyond it; the rows before it
    keep what was found. -/
theorem FindMyLine_row_give_up (hopen : s.Open) (hi : 0 ≤ i)
    (hclosed : ¬ (FindMyLine_row Threshold my_image i s).Open) :
    (∀ r, 0 ≤ r → r ≤ i → ((FindMyLine_row Threshold my_image i s).give_up.rows r).Lost) ∧
    ∀ r, i < r → (FindMyLine_row Threshold my_image i s).give_up.rows r =
      (FindMyLine_row Threshold my_image i s).rows r := by
  have hlimits := hopen
  obtain ⟨h0, h1, h2⟩ := hlimits
  rcases FindMyLine_row_cases hopen with ⟨-, heq⟩ | ⟨-, heq | heq | heq⟩
  · rw [heq] at hclosed
    exact absurd hopen hclosed
  · rw [heq]
    exact ⟨fun r hr hri => give_up_lost hr (Or.inl hri),
      fun r hr => give_up_of_lt hr (h1.trans_lt (by omega)) (h2.trans_lt (by omega))⟩
  · rw [heq]
    exact ⟨fun r hr hri => give_up_lost hr (Or.inr (Or.inl hri)),
      fun r hr => give_up_of_lt (h0.trans_lt (by omega)) hr (h2.trans_lt (by omega))⟩
  · rw [heq]
    exact ⟨fun r hr hri => give_up_lost hr (Or.inr (Or.inr hri)),
      fun r hr => give_up_of_lt (h0.trans_lt (by omega)) (h1.trans_lt (by omega)) hr⟩

/-- The rows behind the trace stay as they were found. -/
theorem FindMyLine_rows_behind : ∀ (n : ℕ) (s : Tracer), s.Open → ∀ r : ℤ, n ≤ r →
    (FindMyLine_rows Threshold my_image n s).rows r = s.rows r := by
  intro n
  induction n with
  | zero => exact fun s _ r _ => rfl
  | succ n ih =>
    intro s hopen r hr
    push_cast at hr
    have hne : (FindMyLine_row Threshold my_image n s).rows r = s.rows r := by
      rw [FindMyLine_row_rows, Function.update_of_ne (by omega)]
    rw [FindMyLine_rows, if_pos hopen, ← hne]
    by_cases hafter : (FindMyLine_row Threshold my_image n s).Open
    · exact ih _ hafter r (by omega)
    · cases n with
      | zero => exact absurd ((FindMyLine_row_open hopen).mpr (Or.inl rfl)) hafter
      | succ n =>
        rw [FindMyLine_rows, if_neg hafter]
        exact (FindMyLine_row_give_up hopen (by omega) hafter).2 r (by omega)

/-! ## The rows at the end -/

/-- The variables at the end of `Camera_FindMyLine`. -/
def FindMyLine_final (Threshold : ℤ) (my_image : ℤ → ℤ) : Tracer :=
  FindMyLine_rows Threshold my_image 70 Tracer.start

/-- From every row the trace comes to, it goes on to the end. -/
theorem Reaches.final_eq (h : Reaches Threshold my_image i s) :
    FindMyLine_rows Threshold my_image (i + 1).toNat s = FindMyLine_final Threshold my_image := by
  induction h with
  | first => rfl
  | @next i s h hi hopen ih =>
    have hsucc : (i + 1).toNat = (i - 1 + 1).toNat + 1 := by omega
    have hcast : (((i - 1 + 1).toNat : ℕ) : ℤ) = i := by omega
    rw [hsucc, FindMyLine_rows, if_pos h.open, hcast] at ih
    exact ih

/-- **A row that the trace passes** without closing is left as it was found: no later pass writes
    it, and no later limit is so near. -/
theorem Reaches.kept (h : Reaches Threshold my_image i s)
    (hkept : i = 0 ∨ ¬ Closes (pixel my_image i) (found_row Threshold my_image i s)) :
    (FindMyLine_final Threshold my_image).rows i = found_row Threshold my_image i s := by
  have hrange := h.range
  have hsucc : (i + 1).toNat = i.toNat + 1 := by omega
  have hcast : ((i.toNat : ℕ) : ℤ) = i := by omega
  rw [← h.final_eq, hsucc, FindMyLine_rows, if_pos h.open, hcast,
    FindMyLine_rows_behind _ _ ((FindMyLine_row_open h.open).mpr hkept) i (by omega),
    FindMyLine_row_self]

/-- **A row that closes it** is given up, with all rows beyond: no pass comes after this one. -/
theorem Reaches.lost (h : Reaches Threshold my_image i s) (hi : 1 ≤ i)
    (hclose : Closes (pixel my_image i) (found_row Threshold my_image i s)) {r : ℤ} (h0 : 0 ≤ r)
    (hr : r ≤ i) : ((FindMyLine_final Threshold my_image).rows r).Lost := by
  have hafter : ¬ (FindMyLine_row Threshold my_image i s).Open := by
    rw [FindMyLine_row_open h.open, not_or, not_not]
    exact ⟨by omega, hclose⟩
  have hsucc : (i + 1).toNat = (i - 1).toNat + 1 + 1 := by omega
  have hcast : (((i - 1).toNat + 1 : ℕ) : ℤ) = i := by omega
  rw [← h.final_eq, hsucc, FindMyLine_rows, if_pos h.open, hcast, FindMyLine_rows, if_neg hafter]
  exact (FindMyLine_row_give_up h.open (by omega) hafter).1 r h0 hr

/-- **Every row** is lost or was passed and kept.  So a statement about the borders is one about
    rows as they were found. -/
theorem final_row (Threshold : ℤ) (my_image : ℤ → ℤ) {r : ℤ} (h0 : 0 ≤ r) (h69 : r ≤ 69) :
    ((FindMyLine_final Threshold my_image).rows r).Lost ∨
    ∃ s, Reaches Threshold my_image r s ∧
      (r = 0 ∨ ¬ Closes (pixel my_image r) (found_row Threshold my_image r s)) ∧
      (FindMyLine_final Threshold my_image).rows r = found_row Threshold my_image r s := by
  -- from a row beyond `r` on, down to `r`
  have hdown : ∀ (n : ℕ) (i : ℤ) (s : Tracer), i = r + n → Reaches Threshold my_image i s →
      ((FindMyLine_final Threshold my_image).rows r).Lost ∨
      ∃ s, Reaches Threshold my_image r s ∧
        (r = 0 ∨ ¬ Closes (pixel my_image r) (found_row Threshold my_image r s)) ∧
        (FindMyLine_final Threshold my_image).rows r = found_row Threshold my_image r s := by
    intro n
    induction n with
    | zero =>
      intro i s hi h
      obtain rfl : i = r := by omega
      by_cases hkept : i = 0 ∨ ¬ Closes (pixel my_image i) (found_row Threshold my_image i s)
      · exact Or.inr ⟨s, h, hkept, h.kept hkept⟩
      · rw [not_or, not_not] at hkept
        exact Or.inl (h.lost (by omega) hkept.2 h0 (le_refl i))
    | succ n ih =>
      intro i s hi h
      push_cast at hi
      by_cases hclose : Closes (pixel my_image i) (found_row Threshold my_image i s)
      · exact Or.inl (h.lost (by omega) hclose h0 (by omega))
      · exact ih (i - 1) _ (by omega)
          (h.next (by omega) ((FindMyLine_row_open h.open).mpr (Or.inr hclose)))
  exact hdown (69 - r).toNat 69 Tracer.start (by omega) Reaches.first

/-- The borders that the caller sees. -/
theorem Camera_FindMyLine_eq (Threshold : ℤ) (my_image : ℤ → ℤ) (r : ℤ) :
    (Camera_FindMyLine Threshold my_image).leftBroder r =
        ((FindMyLine_final Threshold my_image).rows r).leftBroder ∧
      (Camera_FindMyLine Threshold my_image).rightBroder r =
        ((FindMyLine_final Threshold my_image).rows r).rightBroder := ⟨rfl, rfl⟩

/-- A row above the first has the borders that its searches find. -/
theorem Reaches.found (h : Reaches Threshold my_image i s) (hi : i ≠ 69) :
    LeftFound Threshold (pixel my_image i) (s.rows (i + 1))
      (found_row Threshold my_image i s).leftBroder
      (found_row Threshold my_image i s).left_add_flag ∧
    RightFound Threshold (pixel my_image i) (s.rows (i + 1))
      (found_row Threshold my_image i s).rightBroder
      (found_row Threshold my_image i s).right_add_flag := by
  rw [found_row, if_neg (by unfold imgRow; omega)]
  exact trace_row_found (h.inImage (i + 1))

/-! ## Width -/

/-- **Width** — all rows have their borders in the image and at least 6 columns apart exactly when, if
    the trace comes to row 0, what its searches find there is at least 6 columns apart. -/
theorem Camera_FindMyLine_width_iff (Threshold : ℤ) (my_image : ℤ → ℤ) :
    (∀ r, 0 ≤ r → r ≤ 69 →
      (Camera_FindMyLine Threshold my_image).leftBroder r + 6 ≤
        (Camera_FindMyLine Threshold my_image).rightBroder r ∧
      0 ≤ (Camera_FindMyLine Threshold my_image).leftBroder r ∧
      (Camera_FindMyLine Threshold my_image).rightBroder r ≤ 187) ↔
    ∀ s, Reaches Threshold my_image 0 s → ∀ left right lost lost',
      LeftFound Threshold (pixel my_image 0) (s.rows 1) left lost →
      RightFound Threshold (pixel my_image 0) (s.rows 1) right lost' → left + 6 ≤ right := by
  simp only [Camera_FindMyLine_eq]
  constructor
  · intro h s hs left right lost lost' hleft hright
    obtain ⟨hl, hr⟩ := hs.found (by omega)
    rw [hleft.unique hl, hright.unique hr, ← hs.kept (Or.inl rfl)]
    exact (h 0 (le_refl 0) (by omega)).1
  · intro h r h0 h69
    obtain ⟨hin, hin'⟩ := Camera_FindMyLine_pixels Threshold my_image
    refine ⟨?_, (hin r h0 h69).1, (hin' r h0 h69).2⟩
    rcases final_row Threshold my_image h0 h69 with
      hlost | ⟨s, hs, hkept, heq⟩
    · rw [hlost.1, hlost.2]
      omega
    · rw [heq]
      rcases hkept with rfl | hkept
      · obtain ⟨hl, hr⟩ := hs.found (by omega)
        exact h s hs _ _ _ _ hl hr
      · by_contra hnarrow
        exact hkept (Or.inr (Or.inr (Or.inr (by omega))))

end

/-- A track of ten columns that narrows to two in row 0. -/
def narrowImage (k : ℤ) : ℤ :=
  if imgCol ≤ k then (if 90 ≤ k % imgCol ∧ k % imgCol < 100 then 200 else 0)
  else if 94 ≤ k ∧ k < 96 then 200 else 0

/-- The borders of row 0 are the columns 93 and 96. -/
theorem Camera_FindMyLine_width_narrow :
    ¬ ∀ r, 0 ≤ r → r ≤ 69 →
      (Camera_FindMyLine 100 narrowImage).leftBroder r + 6 ≤
        (Camera_FindMyLine 100 narrowImage).rightBroder r ∧
      0 ≤ (Camera_FindMyLine 100 narrowImage).leftBroder r ∧
      (Camera_FindMyLine 100 narrowImage).rightBroder r ≤ 187 := by
  intro h
  exact absurd (h 0 (le_refl 0) (by omega)).1 (by decide +kernel)

/-! ## Edges -/

section

variable {Threshold : ℤ} {my_image row : ℤ → ℤ} {i : ℤ} {s : Tracer}

/-- A left border is lost, or lies on the dark side of a left edge. -/
def LeftOnEdge (Threshold : ℤ) (row : ℤ → ℤ) (c : ℤ) : Prop :=
  c = 0 ∨ (0 ≤ c ∧ c + 1 ≤ 187 ∧ row c < Threshold ∧ Threshold < row (c + 1))

/-- A right border is lost, or lies on the dark side of a right edge. -/
def RightOnEdge (Threshold : ℤ) (row : ℤ → ℤ) (c : ℤ) : Prop :=
  c = 187 ∨ (0 ≤ c - 1 ∧ c ≤ 187 ∧ row c < Threshold ∧ Threshold < row (c - 1))

theorem left_edge_iff {j : ℤ} :
    left_edge Threshold row j = true ↔ Threshold < row j ∧ row (j - 1) < Threshold := by
  rw [left_edge, Bool.and_eq_true, decide_eq_true_iff, decide_eq_true_iff, gt_iff_lt]

theorem right_edge_iff {j : ℤ} :
    right_edge Threshold row j = true ↔ row j < Threshold ∧ Threshold < row (j - 1) := by
  rw [right_edge, Bool.and_eq_true, decide_eq_true_iff, decide_eq_true_iff, gt_iff_lt]

theorem leftOnEdge_of_hit {j : ℤ} (h0 : 1 ≤ j) (h187 : j ≤ 187)
    (h : left_edge Threshold row j = true) : LeftOnEdge Threshold row (j - 1) := by
  obtain ⟨hbright, hdark⟩ := left_edge_iff.mp h
  refine Or.inr ⟨by omega, by omega, hdark, ?_⟩
  rw [sub_add_cancel]
  exact hbright

theorem rightOnEdge_of_hit {j : ℤ} (h0 : 1 ≤ j) (h187 : j ≤ 187)
    (h : right_edge Threshold row j = true) : RightOnEdge Threshold row j :=
  Or.inr ⟨by omega, h187, right_edge_iff.mp h⟩

/-- **The strip** that row 69 keeps with a dark middle: it ends at column `z`, left of the middle, and
    `left` is stored as its left border. -/
def LeftStrip (Threshold : ℤ) (row : ℤ → ℤ) (z left : ℤ) : Prop :=
  row (MID_COL - 1) < Threshold ∧ FirstDown (right_edge Threshold row) 0 (MID_COL - 1) z ∧
    (FirstDown (left_edge Threshold row) 0 (z - 1) left ∨
      (NoneDown (left_edge Threshold row) 0 (z - 1) ∧ left = 1))

/-- **It is given up**: it is too narrow, it ends in the first columns, or neither side of the row
    shows a second border on black ground. -/
def StripLost (Threshold : ℤ) (row : ℤ → ℤ) (z left : ℤ) : Prop :=
  z < left + 6 ∨ z ≤ 10 ∨
    (NoneDown (left_edge Threshold row) 0 (z - 1) ∧ RightOpen Threshold row ∧ row 25 = 0 ∧
      row 135 = 0)

/-- **The search that starts at column 0**: the row below has its left border there, on an edge, and no
    right border, and the pixel at column 0 is dark. -/
def Dangling (Threshold : ℤ) (row : ℤ → ℤ) (below : Row) : Prop :=
  below.leftBroder = 0 ∧ below.left_add_flag = false ∧ below.right_add_flag = true ∧
    row 0 < Threshold

/-- Left borders above row 69 lie on edges. -/
theorem LeftFound.onEdge {below : Row} {c : ℤ} {lost : Bool} (hbelow : below.InImage)
    (h : LeftFound Threshold row below c lost) : LeftOnEdge Threshold row c := by
  obtain ⟨h0, -, h187⟩ := left_search_range hbelow
  rcases h with ⟨-, hlow, hstart, hhit, -⟩ | ⟨-, rfl, -⟩
  · have hc := leftOnEdge_of_hit (by omega) (by omega) hhit
    rwa [add_sub_cancel_right] at hc
  · exact Or.inl rfl

/-- A search for the right border starts at column 0 from such a row only. -/
theorem right_search_zero {below : Row} (hbelow : below.InImage)
    (h : (right_search below).1 ≤ 0) :
    below.leftBroder = 0 ∧ below.left_add_flag = false ∧ below.right_add_flag = true := by
  have hleft := hbelow.left
  cases hr : below.right_add_flag with
  | false =>
    rw [right_search, if_pos hr] at h
    dsimp only at h
    split_ifs at h <;> omega
  | true =>
    rw [right_search, if_neg (by rw [hr]; exact Bool.noConfusion)] at h
    cases hl : below.left_add_flag with
    | false =>
      rw [if_pos hl] at h
      exact ⟨le_antisymm h hleft.1, rfl, rfl⟩
    | true =>
      rw [if_neg (by rw [hl]; exact Bool.noConfusion)] at h
      exact absurd h (by decide)

theorem Dangling.right_search {below : Row} (h : Dangling Threshold row below) :
    right_search below = (0, imgCol) := by
  obtain ⟨hleft, hl, hr, -⟩ := h
  rw [Car2025.right_search, if_neg (by rw [hr]; exact Bool.noConfusion), if_pos hl, hleft]

/-- Right borders above row 69 lie on edges, but for one that the search starts on at column 0. -/
theorem RightFound.onEdge_or {below : Row} {c : ℤ} {lost : Bool} (hbelow : below.InImage)
    (h : RightFound Threshold row below c lost) :
    RightOnEdge Threshold row c ∨
      (c = 0 ∧ Dangling Threshold row below ∧ Threshold < row (-1)) := by
  obtain ⟨h0, -, h188⟩ := right_search_range hbelow
  rcases h with ⟨-, hstart, hlast, hhit, -⟩ | ⟨-, rfl, -⟩
  · rcases eq_or_lt_of_le (h0.trans hstart) with rfl | hpos
    · obtain ⟨hleft, hl, hr⟩ := right_search_zero hbelow hstart
      obtain ⟨hdark, hbright⟩ := right_edge_iff.mp hhit
      exact Or.inr ⟨rfl, ⟨hleft, hl, hr, hdark⟩, hbright⟩
    · exact Or.inl (rightOnEdge_of_hit (by omega) (by omega) hhit)
  · exact Or.inl (Or.inl rfl)

/-- It finds the edge. -/
theorem Dangling.found {below : Row} (h : Dangling Threshold row below)
    (hbright : Threshold < row (-1)) : RightFound Threshold row below 0 false := by
  refine Or.inl ⟨rfl, ?_⟩
  rw [h.right_search]
  exact ⟨le_refl 0, by decide, right_edge_iff.mpr ⟨h.2.2.2, hbright⟩,
    fun l h1 h2 => absurd h1 (by omega)⟩

/-- **Row 69 with such a strip**: what it stores, when it closes the trace, and that its left border
    lies on no edge if it does not. -/
theorem LeftStrip.first_row {z left : ℤ} (h : LeftStrip Threshold row z left) :
    (first_row Threshold row).leftBroder = left ∧
    (Closes row (first_row Threshold row) ↔ StripLost Threshold row z left) ∧
    (¬ StripLost Threshold row z left → ¬ LeftOnEdge Threshold row left) := by
  obtain ⟨hdark, hz, hleft⟩ := h
  obtain ⟨hright, hstrip, hopen⟩ := first_black_left hz
  have hz93 := hz.2.1
  simp only [MID_COL] at hz93
  have hrow : Car2025.first_row Threshold row = first_black Threshold row := by
    rw [Car2025.first_row, if_neg (by omega)]
  rw [hrow]
  rcases hstrip with ⟨w, hw, hwl, hflag⟩ | ⟨hnone, hwl, hflag⟩
  · have hsome : ¬ NoneDown (left_edge Threshold row) 0 (z - 1) := fun hnone => hnone.not_first hw
    obtain rfl : left = w := by
      rcases hleft with hl | ⟨hnone, -⟩
      · exact hl.unique hw
      · exact absurd hnone hsome
    have hpos := hw.1
    have hlt := hw.2.1
    obtain ⟨hbright, -⟩ := left_edge_iff.mp hw.2.2.1
    refine ⟨hwl, ?_, fun _ hedge => ?_⟩
    · simp only [Closes, StripLost, hwl, hright, hflag, hsome, Bool.false_eq_true, false_and,
        false_or, or_false]
      omega
    · rcases hedge with h0 | ⟨-, -, hdark', -⟩
      · omega
      · omega
  · obtain rfl : left = 1 := by
      rcases hleft with hl | ⟨-, hl⟩
      · exact absurd hl hnone.not_first
      · exact hl
    have hpos := hz.1
    refine ⟨hwl, ?_, fun hlost hedge => ?_⟩
    · simp only [Closes, StripLost, hwl, hright, hflag, hopen, hnone, true_and]
      constructor
      · rintro (⟨-, hend⟩ | ⟨-, hfar⟩ | hground | hnarrow)
        · exact Or.inr (Or.inl hend)
        · omega
        · exact Or.inr (Or.inr hground)
        · exact Or.inl hnarrow
      · rintro (hnarrow | hend | hground)
        · exact Or.inr (Or.inr (Or.inr hnarrow))
        · exact Or.inl ⟨by omega, hend⟩
        · exact Or.inr (Or.inr (Or.inl hground))
    · -- a left edge behind column 1 would have been found
      rcases hedge with h0 | ⟨-, -, hdark', hbright⟩
      · omega
      · have hedge : left_edge Threshold row 2 = true := left_edge_iff.mpr ⟨hbright, hdark'⟩
        rw [hnone 2 (by omega) (by rw [StripLost, not_or, not_or] at hlost; omega)] at hedge
        exact Bool.noConfusion hedge

/-- **Row 69** has its borders on edges, but for such a strip: there the second search overwrites
    what the first one has found. -/
theorem first_row_onEdge_or (Threshold : ℤ) (row : ℤ → ℤ) :
    (LeftOnEdge Threshold row (first_row Threshold row).leftBroder ∧
      RightOnEdge Threshold row (first_row Threshold row).rightBroder) ∨
    ∃ z left, LeftStrip Threshold row z left := by
  rcases le_or_gt Threshold (row (MID_COL - 1)) with hbright | hdark
  · apply Or.inl
    -- track in the middle: both searches end at an edge or at the side of the image
    rw [first_row, if_pos hbright]
    obtain ⟨hleft, hright⟩ := first_white_found Threshold row
    constructor
    · rcases hleft with ⟨j, hj, heq⟩ | heq
      · rw [heq]
        have hle := hj.2.1
        simp only [MID_COL] at hle
        exact leftOnEdge_of_hit (Int.add_one_le_iff.mpr hj.1) (by omega) hj.2.2.1
      · exact Or.inl heq
    · rcases hright with ⟨j, hj, heq⟩ | heq
      · rw [heq]
        have hge := hj.1
        have hlt := hj.2.1
        simp only [MID_COL] at hge
        simp only [imgCol] at hlt
        exact rightOnEdge_of_hit (by omega) (by omega) hj.2.2.1
      · exact Or.inl heq
  · rcases seek_down_spec (right_edge Threshold row) (le_refl 0) (MID_COL - 1).toNat (MID_COL - 1)
      (by decide) (by decide) with ⟨z, hz, -⟩ | ⟨hnone, -⟩
    · -- black in the middle, and a strip on the left
      refine Or.inr ⟨z, ?_⟩
      obtain ⟨-, ⟨w, hw, -⟩ | ⟨hnone, -⟩, -⟩ := first_black_left hz
      · exact ⟨w, hdark, hz, Or.inl hw⟩
      · exact ⟨1, hdark, hz, Or.inr ⟨hnone, rfl⟩⟩
    · apply Or.inl
      -- no edge on the left: both borders are those of the strip on the right
      rw [first_row, if_neg (not_le.mpr hdark)]
      rcases first_black_right hnone with ⟨j, hj, hleft, hright⟩ | ⟨hleft, hright⟩
      · have hge := hj.1
        have hlt := hj.2.1
        simp only [MID_COL] at hge
        simp only [imgCol] at hlt
        rw [hleft]
        refine ⟨leftOnEdge_of_hit (by omega) (by omega) hj.2.2.1, ?_⟩
        rcases hright with ⟨w, hw, heq⟩ | heq
        · rw [heq]
          have hge' := hw.1
          have hlt' := hw.2.1
          simp only [imgCol] at hlt'
          exact rightOnEdge_of_hit (by omega) (by omega) hw.2.2.1
        · exact Or.inl heq
      · exact ⟨Or.inl hleft, Or.inl hright⟩

end

/-- **Edges** — every border is lost or lies on the dark side of an edge of its row exactly when a strip
    that row 69 keeps with a dark middle is given up, and, if the trace comes to row 0, its search for
    the right border does not start at column 0 on a dark pixel with a bright one before the image. -/
theorem Camera_FindMyLine_edges_iff (Threshold : ℤ) (my_image : ℤ → ℤ) :
    (∀ r, 0 ≤ r → r ≤ 69 →
      LeftOnEdge Threshold (pixel my_image r)
        ((Camera_FindMyLine Threshold my_image).leftBroder r) ∧
      RightOnEdge Threshold (pixel my_image r)
        ((Camera_FindMyLine Threshold my_image).rightBroder r)) ↔
    (∀ z left, LeftStrip Threshold (pixel my_image 69) z left →
      StripLost Threshold (pixel my_image 69) z left) ∧
    ∀ s, Reaches Threshold my_image 0 s →
      ¬ (Dangling Threshold (pixel my_image 0) (s.rows 1) ∧ Threshold < pixel my_image 0 (-1)) := by
  simp only [Camera_FindMyLine_eq]
  constructor
  · intro h
    refine ⟨fun z left hstrip => ?_, fun s hs hdangling => ?_⟩
    · by_contra hlost
      obtain ⟨hleft, hcloses, hedge⟩ := hstrip.first_row
      have h69 : Reaches Threshold my_image 69 Tracer.start := Reaches.first
      have hkept := h69.kept (Or.inr (fun hclose => hlost (hcloses.mp hclose)))
      have hrow := (h 69 (by omega) (le_refl 69)).1
      rw [hkept] at hrow
      exact hedge hlost (hleft ▸ hrow)
    · obtain ⟨-, hr⟩ := hs.found (by omega)
      have h0 := (h 0 (le_refl 0) (by omega)).2
      rw [hs.kept (Or.inl rfl), ← (hdangling.1.found hdangling.2).unique hr] at h0
      rcases h0 with h187 | ⟨hneg, -⟩
      · omega
      · omega
  · rintro ⟨hstrip, hdangling⟩ r h0 h69
    rcases final_row Threshold my_image h0 h69 with hlost | ⟨s, hs, hkept, heq⟩
    · exact ⟨Or.inl hlost.1, Or.inl hlost.2⟩
    · rw [heq]
      by_cases hr : r = 69
      · subst hr
        have hfirst : found_row Threshold my_image 69 s =
            first_row Threshold (pixel my_image 69) := if_pos rfl
        rw [hfirst] at hkept ⊢
        rcases first_row_onEdge_or Threshold (pixel my_image 69) with hedges | ⟨z, left, hleft⟩
        · exact hedges
        · have hclose := hleft.first_row.2.1.mpr (hstrip z left hleft)
          exact absurd hclose (hkept.resolve_left (by omega))
      · obtain ⟨hl, hright⟩ := hs.found hr
        have hbelow := hs.inImage (r + 1)
        refine ⟨hl.onEdge hbelow, ?_⟩
        rcases hright.onEdge_or hbelow with hedge | ⟨hzero, hdangle, hbright⟩
        · exact hedge
        · rcases hkept with rfl | hkept
          · exact absurd ⟨hdangle, hbright⟩ (hdangling s hs)
          · -- a right border at column 0 closes the trace
            have hnonneg : 0 ≤ ((FindMyLine_row Threshold my_image r s).rows r).leftBroder :=
              (FindMyLine_row_inImage hs.inImage r).left.1
            rw [FindMyLine_row_self] at hnonneg
            exact absurd (Or.inr (Or.inr (Or.inr (by omega)))) hkept

/-- A strip of track left of the middle of row 69, and nothing beyond it. -/
def stripImage (k : ℤ) : ℤ :=
  if 69 * imgCol + 40 ≤ k ∧ k < 69 * imgCol + 80 then 200 else 0

/-- The left border of row 69 is the bright column 40. -/
theorem Camera_FindMyLine_edges_strip :
    ¬ ∀ r, 0 ≤ r → r ≤ 69 →
      LeftOnEdge 100 (pixel stripImage r) ((Camera_FindMyLine 100 stripImage).leftBroder r) ∧
      RightOnEdge 100 (pixel stripImage r) ((Camera_FindMyLine 100 stripImage).rightBroder r) := by
  intro h
  have hborder : (Camera_FindMyLine 100 stripImage).leftBroder 69 = 40 := by decide +kernel
  have hpixel : pixel stripImage 69 40 = 200 := by decide +kernel
  have h69 := (h 69 (by omega) (le_refl 69)).1
  rw [hborder] at h69
  rcases h69 with h0 | ⟨-, -, hdark, -⟩
  · omega
  · rw [hpixel] at hdark
    omega

end Car2025
