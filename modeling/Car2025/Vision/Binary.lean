/-
  `Camera_FindMyLine` on the gray image and on the binary one.

  1. **Blurred edges** — on the binary image a pixel is bright or dark; on the gray image one that
     equals the threshold is neither, and an edge with such a pixel is passed over.

  2. **Rows** — a search ends at the same column on both images unless it reaches a blurred edge, and
     a row above the first is the same exactly then (`trace_row_binary_iff`).

  3. **Result (`Camera_FindMyLine_binary`)** — where no row reaches a blurred edge, and black ground is
     black, the two traces leave the same borders.
-/
import Mathlib
import Car2025.Vision.FindMyLine

namespace Car2025

/-! ## Searches that reach no blurred edge -/

/-- The search down from `start` reaches no blurred column above `low`: a column counts only where
    no hit lies before it. -/
def DownClear (hit blurred : ℤ → Bool) (low start : ℤ) : Prop :=
  ∀ j, low < j → j ≤ start → (∀ l, j < l → l ≤ start → hit l = false) → blurred j = false

/-- The search up from `start` reaches no blurred column before `last`. -/
def UpClear (hit blurred : ℤ → Bool) (start last : ℤ) : Prop :=
  ∀ j, start ≤ j → j < last → (∀ l, start ≤ l → l < j → hit l = false) → blurred j = false

section

variable {hit hit' blurred : ℤ → Bool} {low last : ℤ} {r : Row}

/-- Past a column that is no hit the rest of the search is clear. -/
theorem DownClear.pred {j : ℤ} (h : DownClear hit blurred low (j + 1)) (hj : hit (j + 1) = false) :
    DownClear hit blurred low j := by
  intro k hk hkj hl
  apply h k hk (by omega)
  intro l h1 h2
  rcases eq_or_lt_of_le h2 with rfl | hlt
  · exact hj
  · exact hl l h1 (by omega)

theorem UpClear.succ {j : ℤ} (h : UpClear hit blurred j last) (hj : hit j = false) :
    UpClear hit blurred (j + 1) last := by
  intro k hk hkl hl
  apply h k (by omega) hkl
  intro l h1 h2
  rcases eq_or_lt_of_le h1 with rfl | hlt
  · exact hj
  · exact hl l (by omega) h2

/-- **A clear search down** ends at the same column; what it finds at `low` does not count, as the
    border is then given as lost.  By induction on the columns that are left: up to the first hit
    the search is not blurred, and what is not blurred is a hit on both images or on neither. -/
theorem seek_down_same : ∀ (n : ℕ) (start : ℤ), start = n → low ≤ start →
    (∀ j, low < j → j ≤ start → blurred j = false → hit' j = hit j) →
    DownClear hit blurred low start →
      seek_down hit' low n start = seek_down hit low n start ∨
        (0 < low ∧ (seek_down hit' low n start).1 = low ∧ (seek_down hit low n start).1 = low) := by
  intro n
  induction n with
  | zero => exact fun start _ _ _ _ => Or.inl rfl
  | succ n ih =>
    intro start hn hlow hsame hclear
    push_cast at hn
    have hend : ∀ hit : ℤ → Bool, start ≤ low → (seek_down hit low (n + 1) start).1 = low := by
      intro hit hle
      rw [seek_down]
      by_cases hhit : hit start = true
      · rw [if_pos hhit]
        dsimp only
        omega
      · rw [if_neg hhit, if_pos hle]
        dsimp only
        omega
    -- at `low` and below the two searches may differ, but both end at `low`
    by_cases hle : start ≤ low
    · exact Or.inr ⟨by omega, hend hit' hle, hend hit hle⟩
    · have hblurred := hclear start (by omega) (le_refl start) (fun l h1 h2 => absurd h1 (by omega))
      rw [seek_down, seek_down, hsame start (by omega) (le_refl start) hblurred, if_neg hle,
        if_neg hle]
      cases hhit : hit start with
      | true => exact Or.inl rfl
      | false =>
        rw [if_neg Bool.false_ne_true, if_neg Bool.false_ne_true]
        have hstart : start - 1 + 1 = start := sub_add_cancel start 1
        refine ih (start - 1) (by omega) (by omega) (fun j h1 h2 => hsame j h1 (by omega)) ?_
        exact DownClear.pred (hstart.symm ▸ hclear) (hstart.symm ▸ hhit)

/-- The border is the same even where one search finds an edge at `low` and the other ends there. -/
theorem set_left_same {start : ℤ} (h0 : 0 ≤ low) (hlow : low ≤ start)
    (hsame : ∀ j, low < j → j ≤ start → blurred j = false → hit' j = hit j)
    (hclear : DownClear hit blurred low start) :
    set_left low (seek_down hit' low start.toNat start) r =
      set_left low (seek_down hit low start.toNat start) r := by
  rcases seek_down_same start.toNat start (by omega) hlow hsame hclear with heq | ⟨-, h1, h2⟩
  · rw [heq]
  · simp only [set_left]
    rw [if_pos h1, if_pos h2]
    split_ifs <;> rfl

/-- At column 0 a search ends without a test, so it has no exception. -/
theorem seek_down_zero {start : ℤ} (hstart : 0 ≤ start)
    (hsame : ∀ j, 0 < j → j ≤ start → blurred j = false → hit' j = hit j)
    (hclear : DownClear hit blurred 0 start) :
    seek_down hit' 0 start.toNat start = seek_down hit 0 start.toNat start := by
  rcases seek_down_same start.toNat start (by omega) hstart hsame hclear with heq | h
  · exact heq
  · exact absurd h.1 (lt_irrefl 0)

/-- **A clear search up** ends at the same column, by the same induction; its end is no column of
    the search, so here there is no exception. -/
theorem seek_up_same : ∀ (n : ℕ) (start : ℤ), start + n = last →
    (∀ j, start ≤ j → j < last → blurred j = false → hit' j = hit j) →
    UpClear hit blurred start last → seek_up hit' n start = seek_up hit n start := by
  intro n
  induction n with
  | zero => exact fun start _ _ _ => rfl
  | succ n ih =>
    intro start hn hsame hclear
    push_cast at hn
    have hblurred := hclear start (le_refl start) (by omega) (fun l h1 h2 => absurd h1 (by omega))
    rw [seek_up, seek_up, hsame start (le_refl start) (by omega) hblurred]
    cases hhit : hit start with
    | true => rfl
    | false =>
      rw [if_neg Bool.false_ne_true, if_neg Bool.false_ne_true]
      exact ih (start + 1) (by omega) (fun j h1 h2 => hsame j (by omega) h2) (hclear.succ hhit)

/-- A search down ends with a hit or at `low`. -/
theorem seek_down_end (hit : ℤ → Bool) : ∀ (n : ℕ) (start : ℤ), start = n → low ≤ start → 0 ≤ low →
    (seek_down hit low n start).1 ≤ start ∧
      ((seek_down hit low n start).2 = true ∨ (seek_down hit low n start).1 = low) := by
  intro n
  induction n with
  | zero =>
    intro start hn hlow h0
    refine ⟨le_refl start, Or.inr ?_⟩
    show start = low
    push_cast at hn
    omega
  | succ n ih =>
    intro start hn hlow h0
    push_cast at hn
    rw [seek_down]
    by_cases hhit : hit start = true
    · rw [if_pos hhit]
      exact ⟨le_refl start, Or.inl rfl⟩
    · rw [if_neg hhit]
      by_cases hle : start ≤ low
      · rw [if_pos hle]
        exact ⟨le_refl start, Or.inr (by dsimp only; omega)⟩
      · rw [if_neg hle]
        obtain ⟨h1, h2⟩ := ih (start - 1) (by omega) (by omega) h0
        exact ⟨by omega, h2⟩

/-- A search that takes blurred columns for hits sets the same border only where it reaches none.
    At the first blurred column it stops and sets a border there; the other search goes on, and
    ends at another column or without one. -/
theorem set_left_clear (h0 : 0 ≤ low) : ∀ (n : ℕ) (start : ℤ), start = n → low ≤ start →
    (∀ j, low < j → j ≤ start → hit' j = (hit j || blurred j) ∧ (hit j && blurred j) = false) →
    set_left low (seek_down hit' low n start) r = set_left low (seek_down hit low n start) r →
      DownClear hit blurred low start := by
  intro n
  induction n with
  | zero =>
    intro start hn hlow _ _ j h1 h2
    push_cast at hn
    omega
  | succ n ih =>
    intro start hn hlow hhits heq
    push_cast at hn
    by_cases hle : start ≤ low
    · exact fun j h1 h2 => absurd h1 (by omega)
    · obtain ⟨hor, hand⟩ := hhits start (by omega) (le_refl start)
      rw [seek_down, seek_down, hor, if_neg hle, if_neg hle] at heq
      cases hhit : hit start with
      | true =>
        rw [hhit, Bool.true_and] at hand
        intro j h1 h2 hl
        rcases eq_or_lt_of_le h2 with rfl | hlt
        · exact hand
        · exact absurd (hhit.symm.trans (hl start hlt (le_refl start))) (by simp)
      | false =>
        rw [hhit, Bool.false_or, if_neg Bool.false_ne_true] at heq
        cases hblurred : blurred start with
        | true =>
          -- the search stops here on one image, and goes on on the other
          exfalso
          rw [hblurred, if_pos rfl] at heq
          obtain ⟨h1, h2⟩ := seek_down_end hit n (start - 1) (by omega) (by omega) h0
          generalize seek_down hit low n (start - 1) = s at h1 h2 heq
          unfold set_left at heq
          dsimp only at heq
          rw [if_neg (by omega), if_pos rfl] at heq
          by_cases hs : s.1 = low
          · rw [if_pos hs] at heq
            exact absurd (congrArg Row.left_add_flag heq) (by simp)
          · rw [if_neg hs, if_pos (h2.resolve_right hs)] at heq
            have hcol : start - 1 = s.1 - 1 := congrArg Row.leftBroder heq
            omega
        | false =>
          rw [hblurred, if_neg Bool.false_ne_true] at heq
          have hrest := ih (start - 1) (by omega) (by omega)
            (fun j h1 h2 => hhits j h1 (by omega)) heq
          intro j h1 h2 hl
          rcases eq_or_lt_of_le h2 with rfl | hlt
          · exact hblurred
          · exact hrest j h1 (by omega) fun l h1 h2 => hl l h1 (by omega)

/-- The search for a right border likewise. -/
theorem set_right_clear : ∀ (n : ℕ) (start : ℤ), start + n = last →
    (∀ j, start ≤ j → j < last → hit' j = (hit j || blurred j) ∧ (hit j && blurred j) = false) →
    set_right last (seek_up hit' n start) r = set_right last (seek_up hit n start) r →
      UpClear hit blurred start last := by
  intro n
  induction n with
  | zero =>
    intro start hn _ _ j h1 h2
    push_cast at hn
    omega
  | succ n ih =>
    intro start hn hhits heq
    push_cast at hn
    obtain ⟨hor, hand⟩ := hhits start (le_refl start) (by omega)
    rw [seek_up, seek_up, hor] at heq
    cases hhit : hit start with
    | true =>
      rw [hhit, Bool.true_and] at hand
      intro j h1 h2 hl
      rcases eq_or_lt_of_le h1 with rfl | hlt
      · exact hand
      · exact absurd (hhit.symm.trans (hl start (le_refl start) hlt)) (by simp)
    | false =>
      rw [hhit, Bool.false_or, if_neg Bool.false_ne_true] at heq
      cases hblurred : blurred start with
      | true =>
        -- one search stops here and sets this column; the other is past it
        exfalso
        rw [hblurred, if_pos rfl] at heq
        obtain ⟨h1, h2, h3⟩ := seek_up_range hit n (start + 1)
        rw [show start + 1 + n = last by omega] at h2 h3
        generalize seek_up hit n (start + 1) = s at h1 h2 h3 heq
        unfold set_right at heq
        dsimp only at heq
        rw [if_neg (by omega), if_pos rfl] at heq
        by_cases hs : s.1 = last
        · rw [if_pos hs] at heq
          exact absurd (congrArg Row.right_add_flag heq) (by simp)
        · rw [if_neg hs, if_pos (h3.mpr hs)] at heq
          have hcol : start = s.1 := congrArg Row.rightBroder heq
          omega
      | false =>
        rw [hblurred, if_neg Bool.false_ne_true] at heq
        have hrest := ih (start + 1) (by omega) (fun j h1 h2 => hhits j (by omega) h2) heq
        intro j h1 h2 hl
        rcases eq_or_lt_of_le h1 with rfl | hlt
        · exact hblurred
        · exact hrest j (by omega) h2 fun l h1 h2 => hl l (by omega) h2

end

/-! ## Blurred edges -/

section

variable {Threshold : ℤ} {row row' : ℤ → ℤ} {i : ℤ}

/-- A bright pixel behind one that equals the threshold.  On the gray image the second one is not
    dark, on the binary one it is. -/
def left_blurred (Threshold : ℤ) (row : ℤ → ℤ) (j : ℤ) : Bool :=
  decide (row j > Threshold) && decide (row (j - 1) = Threshold)

/-- A bright pixel before one that equals the threshold.  In row 0 there is no pixel before the
    first one, and what is read there is blurred unless the first one is bright. -/
def right_blurred (Threshold : ℤ) (row : ℤ → ℤ) (i j : ℤ) : Bool :=
  if i = 0 ∧ j = 0 then decide (row j ≤ Threshold)
  else decide (row j = Threshold) && decide (row (j - 1) > Threshold)

/-- Row `i` of the binary image; before row 0 there is no pixel. -/
def BinaryRow (Threshold i : ℤ) (row row' : ℤ → ℤ) : Prop :=
  ∀ j, j ≤ 187 → (0 ≤ j ∨ j = -1 ∧ i ≠ 0) → row' j = if row j > Threshold then 255 else 0

/-- **Left edges** of the binary image are those of the gray one and the blurred ones, and no
    column is both.  This is where the threshold is compared: 255 is above it and 0 below, so on
    the binary image a pixel is never neither. -/
theorem left_edge_binary (h1 : 1 ≤ Threshold) (h254 : Threshold ≤ 254)
    (h : BinaryRow Threshold i row row') {j : ℤ} (hj : 1 ≤ j) (hj' : j ≤ 187) :
    left_edge Threshold row' j = (left_edge Threshold row j || left_blurred Threshold row j) ∧
      (left_edge Threshold row j && left_blurred Threshold row j) = false := by
  have hrow := h j hj' (Or.inl (by omega))
  have hrow' := h (j - 1) (by omega) (Or.inl (by omega))
  simp only [left_edge, left_blurred]
  rw [hrow, hrow']
  constructor
  · rw [Bool.eq_iff_iff]
    simp only [Bool.and_eq_true, Bool.or_eq_true, decide_eq_true_iff]
    split_ifs <;> omega
  · rw [Bool.eq_false_iff]
    simp only [ne_eq, Bool.and_eq_true, decide_eq_true_iff]
    omega

/-- **Right edges** likewise, wherever both pixels are in the image.  Before column 0 lies the last
    pixel of the row above; only row 0 has none. -/
theorem right_edge_binary (h1 : 1 ≤ Threshold) (h254 : Threshold ≤ 254)
    (h : BinaryRow Threshold i row row') {j : ℤ} (hj : 0 ≤ j) (hj' : j ≤ 187)
    (hin : ¬ (i = 0 ∧ j = 0)) :
    right_edge Threshold row' j = (right_edge Threshold row j || right_blurred Threshold row i j) ∧
      (right_edge Threshold row j && right_blurred Threshold row i j) = false := by
  have hrow := h j hj' (Or.inl hj)
  have hrow' := h (j - 1) (by omega) (by omega)
  simp only [right_edge, right_blurred]
  rw [hrow, hrow', if_neg hin]
  constructor
  · rw [Bool.eq_iff_iff]
    simp only [Bool.and_eq_true, Bool.or_eq_true, decide_eq_true_iff]
    split_ifs <;> omega
  · rw [Bool.eq_false_iff]
    simp only [ne_eq, Bool.and_eq_true, decide_eq_true_iff]
    omega

/-- Where nothing is blurred an edge is one on both images. -/
theorem left_edge_same (h1 : 1 ≤ Threshold) (h254 : Threshold ≤ 254)
    (h : BinaryRow Threshold i row row') {j : ℤ} (hj : 1 ≤ j) (hj' : j ≤ 187)
    (hclear : left_blurred Threshold row j = false) :
    left_edge Threshold row' j = left_edge Threshold row j := by
  rw [(left_edge_binary h1 h254 h hj hj').1, hclear, Bool.or_false]

/-- Where nothing is blurred; the first pixel of row 0 is then bright, and there is no edge at it. -/
theorem right_edge_same (h1 : 1 ≤ Threshold) (h254 : Threshold ≤ 254)
    (h : BinaryRow Threshold i row row') {j : ℤ} (hj : 0 ≤ j) (hj' : j ≤ 187)
    (hclear : right_blurred Threshold row i j = false) :
    right_edge Threshold row' j = right_edge Threshold row j := by
  by_cases hout : i = 0 ∧ j = 0
  · -- the first pixel of row 0 is bright, whatever lies before it
    simp only [right_blurred] at hclear
    rw [if_pos hout, decide_eq_false_iff_not, not_le] at hclear
    have hrow := h j hj' (Or.inl hj)
    rw [if_pos hclear] at hrow
    simp only [right_edge]
    rw [decide_eq_false (by omega : ¬ row' j < Threshold),
      decide_eq_false (by omega : ¬ row j < Threshold), Bool.false_and, Bool.false_and]
  · rw [(right_edge_binary h1 h254 h hj hj' hout).1, hclear, Bool.or_false]

/-! ## Rows above the first -/

/-- Where the search for the left border ends at last, and where it starts, from the row below. -/
def left_search (below : Row) : ℤ × ℤ :=
  if below.left_add_flag = false then
    (3, if below.leftBroder + range_line > imgCol - 1 then imgCol - 1
      else below.leftBroder + range_line)
  else if below.right_add_flag = false then (0, below.rightBroder)
  else (3, MID_COL - 1)

/-- Where the search for the right border starts, and where it ends at last. -/
def right_search (below : Row) : ℤ × ℤ :=
  if below.right_add_flag = false then
    (if below.rightBroder - range_line ≤ 1 then 1 else below.rightBroder - range_line, imgCol - 1)
  else if below.left_add_flag = false then (below.leftBroder, imgCol)
  else (MID_COL - 1, imgCol)

/-- The three searches for a left border are one, from different columns. -/
theorem trace_left_eq (row : ℤ → ℤ) (below r : Row) :
    trace_left Threshold row below r = set_left (left_search below).1
      (seek_down (left_edge Threshold row) (left_search below).1 (left_search below).2.toNat
        (left_search below).2) r := by
  simp only [trace_left, left_search]
  split_ifs <;> rfl

theorem trace_right_eq (row : ℤ → ℤ) (below r : Row) :
    trace_right Threshold row below r = set_right (right_search below).2
      (seek_up (right_edge Threshold row)
        ((right_search below).2 - (right_search below).1).toNat (right_search below).1) r := by
  simp only [trace_right, right_search]
  split_ifs <;> rfl

theorem left_search_range {below : Row} (h : below.InImage) : 0 ≤ (left_search below).1 ∧
    (left_search below).1 ≤ (left_search below).2 ∧ (left_search below).2 ≤ 187 := by
  have hl := h.left
  have hr := h.right
  simp only [left_search, range_line, imgCol, MID_COL]
  split_ifs <;> dsimp only <;> omega

theorem right_search_range {below : Row} (h : below.InImage) : 0 ≤ (right_search below).1 ∧
    (right_search below).1 ≤ (right_search below).2 ∧ (right_search below).2 ≤ 188 := by
  have hl := h.left
  have hr := h.right
  simp only [right_search, range_line, imgCol, MID_COL]
  split_ifs <;> dsimp only <;> omega

/-- **A clear row**: from the row below, no search of row `i` reaches a blurred edge.  It says
    nothing of blurred edges beyond the first hits, which neither search gets to see. -/
structure TraceClear (Threshold i : ℤ) (row : ℤ → ℤ) (below : Row) : Prop where
  left : DownClear (left_edge Threshold row) (left_blurred Threshold row) (left_search below).1
    (left_search below).2
  right : UpClear (right_edge Threshold row) (right_blurred Threshold row i) (right_search below).1
    (right_search below).2

/-- A search for the left border leaves the right one alone. -/
theorem set_left_right (last : ℤ) (s : ℤ × Bool) (r : Row) :
    (set_left last s r).rightBroder = r.rightBroder ∧
      (set_left last s r).right_add_flag = r.right_add_flag := by
  unfold set_left
  dsimp only
  constructor <;> split_ifs <;> rfl

theorem set_right_left (last : ℤ) (s : ℤ × Bool) (r : Row) :
    (set_right last s r).leftBroder = r.leftBroder ∧
      (set_right last s r).left_add_flag = r.left_add_flag := by
  unfold set_right
  dsimp only
  constructor <;> split_ifs <;> rfl

/-- **A clear row** is the same on both images: both searches start from the row below, which is
    the same, and end at the same column. -/
theorem trace_row_same (h1 : 1 ≤ Threshold) (h254 : Threshold ≤ 254)
    (h : BinaryRow Threshold i row row') {below : Row} (hbelow : below.InImage)
    (hclear : TraceClear Threshold i row below) :
    trace_row Threshold row' below = trace_row Threshold row below := by
  obtain ⟨hl0, hl1, hl2⟩ := left_search_range hbelow
  obtain ⟨hr0, hr1, hr2⟩ := right_search_range hbelow
  have hleft : ∀ r, trace_left Threshold row' below r = trace_left Threshold row below r := by
    intro r
    rw [trace_left_eq, trace_left_eq]
    exact set_left_same hl0 hl1 (fun j hj hj' => left_edge_same h1 h254 h (by omega) (by omega))
      hclear.left
  have hright : ∀ r, trace_right Threshold row' below r = trace_right Threshold row below r := by
    intro r
    rw [trace_right_eq, trace_right_eq, seek_up_same _ _ (by omega)
      (fun j hj hj' => right_edge_same h1 h254 h (by omega) (by omega)) hclear.right]
  simp only [trace_row]
  rw [hleft, hright]

/-- **Rows** above the first: the row that is found is the same on both images exactly where it is
    clear.  The search for one border leaves the other one alone, so if the rows are the same each
    search has set the same border, and has reached no blurred edge. -/
theorem trace_row_binary_iff (h1 : 1 ≤ Threshold) (h254 : Threshold ≤ 254)
    (h : BinaryRow Threshold i row row') (hi : i ≠ 0) {below : Row} (hbelow : below.InImage) :
    trace_row Threshold row' below = trace_row Threshold row below ↔
      TraceClear Threshold i row below := by
  obtain ⟨hl0, hl1, hl2⟩ := left_search_range hbelow
  obtain ⟨hr0, hr1, hr2⟩ := right_search_range hbelow
  refine ⟨fun heq => ?_, trace_row_same h1 h254 h hbelow⟩
  -- the flags and columns of the left border can be read off the finished row
  have hleft : trace_left Threshold row' below Row.cleared =
      trace_left Threshold row below Row.cleared := by
    have hkeep : ∀ row, (trace_row Threshold row below).leftBroder =
          (trace_left Threshold row below Row.cleared).leftBroder ∧
        (trace_row Threshold row below).left_add_flag =
          (trace_left Threshold row below Row.cleared).left_add_flag := by
      intro row
      rw [trace_row, trace_right_eq]
      exact set_right_left _ _ _
    have hother : ∀ row, (trace_left Threshold row below Row.cleared).rightBroder = imgCol - 1 ∧
        (trace_left Threshold row below Row.cleared).right_add_flag = false := by
      intro row
      rw [trace_left_eq]
      exact set_left_right _ _ _
    ext
    · rw [← (hkeep row').1, heq, (hkeep row).1]
    · rw [(hother row').1, (hother row).1]
    · rw [← (hkeep row').2, heq, (hkeep row).2]
    · rw [(hother row').2, (hother row).2]
  have hright := heq
  rw [trace_row, trace_row, hleft] at hright
  constructor
  · rw [trace_left_eq, trace_left_eq] at hleft
    exact set_left_clear hl0 _ _ (by omega) hl1
      (fun j hj hj' => left_edge_binary h1 h254 h (by omega) (by omega)) hleft
  · rw [trace_right_eq, trace_right_eq] at hright
    exact set_right_clear _ _ (by omega)
      (fun j hj hj' => right_edge_binary h1 h254 h (by omega) (by omega) (fun h0 => hi h0.1)) hright

/-! ## The first row -/

/-- **A clear first row** with a black middle: the searches for a strip on either side of the middle,
    and for its other end, reach no blurred edge. -/
structure BlackClear (Threshold i : ℤ) (row : ℤ → ℤ) : Prop where
  right : UpClear (left_edge Threshold row) (left_blurred Threshold row) (MID_COL - 1) imgCol
  right_end : ∀ j, seek_up (left_edge Threshold row) (imgCol - (MID_COL - 1)).toNat (MID_COL - 1) =
    (j, true) → UpClear (right_edge Threshold row) (right_blurred Threshold row i) j imgCol
  left : DownClear (right_edge Threshold row) (right_blurred Threshold row i) 0 (MID_COL - 1)
  left_end : ∀ j, seek_down (right_edge Threshold row) 0 (MID_COL - 1).toNat (MID_COL - 1) =
    (j, true) → DownClear (left_edge Threshold row) (left_blurred Threshold row) 0 (j - 1)

/-- **A clear first row**: the pixel in the middle does not equal the threshold, and no search
    reaches a blurred edge. -/
structure FirstClear (Threshold i : ℤ) (row : ℤ → ℤ) : Prop where
  middle : row (MID_COL - 1) ≠ Threshold
  white : row (MID_COL - 1) > Threshold →
    DownClear (left_edge Threshold row) (left_blurred Threshold row) 0 (MID_COL - 1) ∧
      UpClear (right_edge Threshold row) (right_blurred Threshold row i) (MID_COL - 1) imgCol
  black : row (MID_COL - 1) < Threshold → BlackClear Threshold i row

/-- The second search starts at the edge that the first one has found, which is the same on both
    images. -/
theorem black_right_same (h1 : 1 ≤ Threshold) (h254 : Threshold ≤ 254)
    (h : BinaryRow Threshold i row row') (hclear : BlackClear Threshold i row) (r : Row) :
    black_right Threshold row' r = black_right Threshold row r := by
  have hs : seek_up (left_edge Threshold row') (imgCol - (MID_COL - 1)).toNat (MID_COL - 1) =
      seek_up (left_edge Threshold row) (imgCol - (MID_COL - 1)).toNat (MID_COL - 1) := by
    refine seek_up_same _ _ (by decide) (fun j hj hj' => ?_) hclear.right
    simp only [MID_COL] at hj
    simp only [imgCol] at hj'
    exact left_edge_same h1 h254 h (by omega) (by omega)
  obtain ⟨hge, hle, hhit⟩ := seek_up_range (left_edge Threshold row)
    (imgCol - (MID_COL - 1)).toNat (MID_COL - 1)
  have hend := hclear.right_end
  have hlast : MID_COL - 1 + ((imgCol - (MID_COL - 1)).toNat : ℤ) = imgCol := by decide
  unfold black_right
  rw [hs]
  rw [hlast] at hle hhit
  generalize seek_up (left_edge Threshold row) (imgCol - (MID_COL - 1)).toNat (MID_COL - 1) = s
    at hge hle hhit hend ⊢
  unfold MID_COL at hge
  dsimp only
  by_cases hne : s.1 = imgCol
  · rw [if_neg (not_not.mpr hne), if_neg (not_not.mpr hne)]
  · have hfound : s.2 = true := hhit.mpr hne
    have hclear' := hend s.1 (Prod.ext rfl hfound)
    rw [if_pos hne, if_pos hne, if_pos hfound, sub_add_cancel]
    have hw : seek_up (right_edge Threshold row') (imgCol - s.1).toNat s.1 =
        seek_up (right_edge Threshold row) (imgCol - s.1).toNat s.1 := by
      refine seek_up_same _ _ (by omega) (fun j hj hj' => ?_) hclear'
      simp only [imgCol] at hj'
      exact right_edge_same h1 h254 h (by omega) (by omega)
    rw [hw]

/-- The search to the left likewise, with the kinds of edge exchanged. -/
theorem black_left_same (h1 : 1 ≤ Threshold) (h254 : Threshold ≤ 254)
    (h : BinaryRow Threshold i row row') (hclear : BlackClear Threshold i row) (r : Row) :
    black_left Threshold row' r = black_left Threshold row r := by
  have hs : seek_down (right_edge Threshold row') 0 (MID_COL - 1).toNat (MID_COL - 1) =
      seek_down (right_edge Threshold row) 0 (MID_COL - 1).toNat (MID_COL - 1) := by
    refine seek_down_zero (by decide) (fun j hj hj' => ?_) hclear.left
    simp only [MID_COL] at hj'
    exact right_edge_same h1 h254 h (by omega) (by omega)
  obtain ⟨h0, hle, -⟩ := seek_down_range (right_edge Threshold row) 0
    (MID_COL - 1).toNat (MID_COL - 1) (by decide)
  have hhit := seek_down_hit (right_edge Threshold row) (MID_COL - 1).toNat (MID_COL - 1) (by omega)
  have hend := hclear.left_end
  unfold black_left
  rw [hs]
  generalize seek_down (right_edge Threshold row) 0 (MID_COL - 1).toNat (MID_COL - 1) = s
    at h0 hle hhit hend ⊢
  unfold MID_COL at hle
  dsimp only
  by_cases hne : s.1 = 0
  · rw [if_neg (not_not.mpr hne), if_neg (not_not.mpr hne)]
  · have hfound : s.2 = true := hhit.mpr hne
    have hclear' := hend s.1 (Prod.ext rfl hfound)
    rw [if_pos hne, if_pos hne, if_pos hfound]
    have hw : seek_down (left_edge Threshold row') 0 (s.1 - 1).toNat (s.1 - 1) =
        seek_down (left_edge Threshold row) 0 (s.1 - 1).toNat (s.1 - 1) :=
      seek_down_zero (by omega)
        (fun j hj hj' => left_edge_same h1 h254 h (by omega) (by omega)) hclear'
    rw [hw]

/-- **A clear first row** is the same on both images.  That the middle does not equal the threshold
    is needed too: the source compares it with `>=`, so there the gray image would take the
    searches for track and the binary one those for black ground. -/
theorem first_row_same (h1 : 1 ≤ Threshold) (h254 : Threshold ≤ 254)
    (h : BinaryRow Threshold i row row') (hclear : FirstClear Threshold i row) :
    first_row Threshold row' = first_row Threshold row := by
  have hmid := h (MID_COL - 1) (by decide) (Or.inl (by decide))
  have hne := hclear.middle
  simp only [first_row]
  rcases lt_or_gt_of_ne hne with hdark | hbright
  · rw [if_neg (by omega : ¬ row (MID_COL - 1) > Threshold)] at hmid
    rw [if_neg (by omega), if_neg (by omega)]
    simp only [first_black]
    rw [black_right_same h1 h254 h (hclear.black hdark),
      black_left_same h1 h254 h (hclear.black hdark)]
  · rw [if_pos hbright] at hmid
    rw [if_pos (by omega), if_pos (by omega)]
    obtain ⟨hleft, hright⟩ := hclear.white hbright
    simp only [first_white]
    have hl : ∀ j, 0 < j → j ≤ MID_COL - 1 → left_blurred Threshold row j = false →
        left_edge Threshold row' j = left_edge Threshold row j := by
      intro j hj hj'
      simp only [MID_COL] at hj'
      exact left_edge_same h1 h254 h (by omega) (by omega)
    have hr : ∀ j, MID_COL - 1 ≤ j → j < imgCol → right_blurred Threshold row i j = false →
        right_edge Threshold row' j = right_edge Threshold row j := by
      intro j hj hj'
      simp only [MID_COL] at hj
      simp only [imgCol] at hj'
      exact right_edge_same h1 h254 h (by omega) (by omega)
    rw [seek_down_zero (by decide) hl hleft, seek_up_same _ _ (by decide) hr hright]

/-! ## The image -/

/-- Where both borders of a row are lost, dark ground below columns 25 and 135 is black:
    `set_limit` compares these two pixels with 0 and not with the threshold. -/
def GroundClear (Threshold : ℤ) (row : ℤ → ℤ) (r : Row) : Prop :=
  r.left_add_flag = true → r.right_add_flag = true → row 25 ≤ Threshold → row 135 ≤ Threshold →
    row 25 = 0 ∧ row 135 = 0

/-- The two pixels are black on both images or on neither, where dark ground is black. -/
theorem set_limit_same (h1 : 1 ≤ Threshold) (h : BinaryRow Threshold i row row') {s : Tracer}
    (hclear : GroundClear Threshold row (s.rows i)) : set_limit row' i s = set_limit row i s := by
  have h25 := h 25 (by omega) (Or.inl (by omega))
  have h135 := h 135 (by omega) (Or.inl (by omega))
  have hground : ((s.rows i).left_add_flag = true ∧ (s.rows i).right_add_flag = true ∧ row' 25 = 0 ∧
      row' 135 = 0) ↔ ((s.rows i).left_add_flag = true ∧ (s.rows i).right_add_flag = true ∧
        row 25 = 0 ∧ row 135 = 0) := by
    refine and_congr_right fun hl => and_congr_right fun hr => ?_
    have hblack := hclear hl hr
    rw [h25, h135]
    constructor
    · rintro ⟨h0, h0'⟩
      refine hblack ?_ ?_
      · by_contra hlt
        rw [if_pos (by omega)] at h0
        omega
      · by_contra hlt
        rw [if_pos (by omega)] at h0'
        omega
    · rintro ⟨h0, h0'⟩
      rw [if_neg (by omega), if_neg (by omega)]
      exact ⟨rfl, rfl⟩
  simp only [set_limit]
  simp only [hground]

/-- A limit at row 0 gives nothing up: the limits are row numbers, and 0 stands for none. -/
theorem set_limit_zero {s : Tracer} (h : s.Open) (row : ℤ → ℤ) : set_limit row 0 s = s := by
  obtain ⟨h0, h1, h2⟩ := h
  obtain ⟨rows, l0, l1, l2⟩ := s
  subst h0 h1 h2
  unfold set_limit
  dsimp only
  split_ifs <;> rfl

end

/-- The rows of the binary image. -/
theorem Camera_PreProcess_row (Threshold : ℤ) (my_image memory : ℤ → ℤ) {i : ℤ} (h0 : 0 ≤ i)
    (h69 : i ≤ 69) : BinaryRow Threshold i (pixel my_image i)
      (pixel (Camera_PreProcess Threshold my_image memory) i) := by
  intro j hj hin
  simp only [pixel, Camera_PreProcess, imgRow, imgCol]
  exact if_pos (by omega)

/-- **A clear pass**: on row `i` no search reaches a blurred edge, and dark ground is black where
    both borders are lost.  In row 0 the ground does not matter, as there is no row left to give
    up. -/
structure RowClear (Threshold : ℤ) (my_image : ℤ → ℤ) (i : ℤ) (s : Tracer) : Prop where
  first : i = imgRow - 1 → FirstClear Threshold i (pixel my_image i)
  next : i ≠ imgRow - 1 → TraceClear Threshold i (pixel my_image i) (s.rows (i + 1))
  ground : i ≠ 0 → GroundClear Threshold (pixel my_image i)
    ((FindMyLine_row Threshold my_image i s).rows i)

/-- **A clear trace**: every pass on the rows `n - 1, …, 0` is clear, until the rest is given up. -/
def ClearRows (Threshold : ℤ) (my_image : ℤ → ℤ) : ℕ → Tracer → Prop
  | 0, _ => True
  | n + 1, s => s.Open → RowClear Threshold my_image n s ∧
      ClearRows Threshold my_image n (FindMyLine_row Threshold my_image n s)

section

variable {Threshold : ℤ} {my_image memory : ℤ → ℤ}

/-- **One clear pass** is the same on both images: the row that is found, and the limit that is set
    for it. -/
theorem FindMyLine_row_same (h1 : 1 ≤ Threshold) (h254 : Threshold ≤ 254) {i : ℤ} (h0 : 0 ≤ i)
    (h69 : i ≤ 69) {s : Tracer} (hin : s.InImage) (hopen : s.Open)
    (hclear : RowClear Threshold my_image i s) :
    FindMyLine_row Threshold (Camera_PreProcess Threshold my_image memory) i s =
      FindMyLine_row Threshold my_image i s := by
  have hrow := Camera_PreProcess_row Threshold my_image memory h0 h69
  have hfound : (if i = imgRow - 1 then
        first_row Threshold (pixel (Camera_PreProcess Threshold my_image memory) i)
      else trace_row Threshold (pixel (Camera_PreProcess Threshold my_image memory) i)
        (s.rows (i + 1))) =
      if i = imgRow - 1 then first_row Threshold (pixel my_image i)
      else trace_row Threshold (pixel my_image i) (s.rows (i + 1)) := by
    by_cases hi : i = imgRow - 1
    · rw [if_pos hi, if_pos hi, first_row_same h1 h254 hrow (hclear.first hi)]
    · rw [if_neg hi, if_neg hi, trace_row_same h1 h254 hrow (hin (i + 1)) (hclear.next hi)]
  -- row 0 asks nothing of the ground, as `set_limit` changes nothing there
  by_cases hi0 : i = 0
  · subst hi0
    unfold FindMyLine_row
    dsimp only
    rw [hfound, set_limit_zero (by exact hopen), set_limit_zero (by exact hopen)]
  · have hground := hclear.ground hi0
    rw [FindMyLine_row, set_limit_rows] at hground
    unfold FindMyLine_row
    dsimp only
    rw [hfound, set_limit_same h1 hrow hground]

/-- **A clear trace** is the same on both images, by induction on the rows that are left; both
    traces end at the same limit. -/
theorem FindMyLine_rows_same (h1 : 1 ≤ Threshold) (h254 : Threshold ≤ 254) : ∀ (n : ℕ) (s : Tracer),
    n ≤ 70 → s.InImage → ClearRows Threshold my_image n s →
      FindMyLine_rows Threshold (Camera_PreProcess Threshold my_image memory) n s =
        FindMyLine_rows Threshold my_image n s := by
  intro n
  induction n with
  | zero => exact fun s _ _ _ => rfl
  | succ n ih =>
    intro s hn hin hclear
    rw [FindMyLine_rows, FindMyLine_rows]
    by_cases hopen : s.Open
    · obtain ⟨hrow, hrest⟩ := hclear hopen
      rw [if_pos hopen, if_pos hopen,
        FindMyLine_row_same h1 h254 (by omega) (by omega) hin hopen hrow]
      exact ih _ (by omega) (FindMyLine_row_inImage hin) hrest
    · rw [if_neg hopen, if_neg hopen]

/-- **Gray and binary**: where the trace on the gray image is clear, the trace on the binary image
    leaves the same borders; and from any row below, a row above the first and before the last is
    found the same on both exactly where it is clear. -/
theorem Camera_FindMyLine_binary (h1 : 1 ≤ Threshold) (h254 : Threshold ≤ 254) :
    (ClearRows Threshold my_image 70 Tracer.start →
      SameBorders (Camera_FindMyLine Threshold my_image)
        (Camera_FindMyLine Threshold (Camera_PreProcess Threshold my_image memory))) ∧
    ∀ i below, 1 ≤ i → i ≤ 68 → Row.InImage below →
      (trace_row Threshold (pixel (Camera_PreProcess Threshold my_image memory) i) below =
          trace_row Threshold (pixel my_image i) below ↔
        TraceClear Threshold i (pixel my_image i) below) := by
  refine ⟨fun hclear r _ _ => ?_, fun i below hi hi' hbelow => ?_⟩
  · simp only [Camera_FindMyLine]
    rw [FindMyLine_rows_same h1 h254 70 Tracer.start (by omega) (fun _ => Row.cleared_inImage)
      hclear]
    exact ⟨rfl, rfl⟩
  · exact trace_row_binary_iff h1 h254
      (Camera_PreProcess_row Threshold my_image memory (by omega) (by omega)) (by omega) hbelow

/-- **Sharp images**: where no pixel equals the threshold, dark pixels are black and the first pixel
    is bright, every trace is clear. -/
theorem clearRows_of_sharp (hne : ∀ k, my_image k ≠ Threshold)
    (hblack : ∀ k, my_image k < Threshold → my_image k = 0) (hfirst : my_image 0 > Threshold) :
    ∀ n s, ClearRows Threshold my_image n s := by
  have hpixel : ∀ i j, pixel my_image i j ≠ Threshold := fun i j => hne _
  have hleft : ∀ i j, left_blurred Threshold (pixel my_image i) j = false := by
    intro i j
    simp only [left_blurred]
    rw [decide_eq_false (hpixel i (j - 1)), Bool.and_false]
  have hright : ∀ i j, right_blurred Threshold (pixel my_image i) i j = false := by
    intro i j
    simp only [right_blurred]
    by_cases hout : i = 0 ∧ j = 0
    · rw [if_pos hout, hout.1, hout.2]
      exact decide_eq_false (not_le.mpr hfirst)
    · rw [if_neg hout, decide_eq_false (hpixel i j), Bool.false_and]
  have hground : ∀ i r, GroundClear Threshold (pixel my_image i) r := by
    intro i r _ _ h25 h135
    exact ⟨hblack _ (lt_of_le_of_ne h25 (hne _)), hblack _ (lt_of_le_of_ne h135 (hne _))⟩
  intro n
  induction n with
  | zero => exact fun s => trivial
  | succ n ih =>
    intro s _
    refine ⟨⟨fun _ => ⟨hne _, fun _ => ?_, fun _ => ?_⟩, fun _ => ?_, fun _ => hground _ _⟩, ih _⟩
    · exact ⟨fun j _ _ _ => hleft _ j, fun j _ _ _ => hright _ j⟩
    · exact ⟨fun j _ _ _ => hleft _ j, fun _ _ j _ _ _ => hright _ j, fun j _ _ _ => hright _ j,
        fun _ _ j _ _ _ => hleft _ j⟩
    · exact ⟨fun j _ _ _ => hleft _ j, fun j _ _ _ => hright _ j⟩

end

/-- A track between columns 60 and 129 on black ground, with a bright first pixel. -/
def trackImage (k : ℤ) : ℤ :=
  if k = 0 ∨ 60 ≤ k % imgCol ∧ k % imgCol < 130 then 200 else 0

theorem trackImage_values (k : ℤ) : trackImage k = 200 ∨ trackImage k = 0 := by
  simp only [trackImage]
  split_ifs
  · exact Or.inl rfl
  · exact Or.inr rfl

theorem Camera_FindMyLine_binary_track : SameBorders (Camera_FindMyLine 100 trackImage)
    (Camera_FindMyLine 100 (Camera_PreProcess 100 trackImage fun _ => 0)) := by
  refine (Camera_FindMyLine_binary (by omega) (by omega)).1 (clearRows_of_sharp ?_ ?_ ?_ _ _)
  · intro k
    rcases trackImage_values k with h | h <;> rw [h] <;> decide
  · intro k hk
    rcases trackImage_values k with h | h
    · rw [h] at hk
      exact absurd hk (by omega)
    · exact h
  · exact decide_eq_true_iff.mp rfl

/-- Track next to the car only, with a pixel at its left end that equals the threshold. -/
def blurredImage (k : ℤ) : ℤ :=
  if k = 69 * imgCol + 60 then 100
  else if 69 * imgCol + 60 < k ∧ k < 69 * imgCol + 130 then 200
  else 0

/-- Next to the car the left border is column 60 of the binary image, and lost on the gray one. -/
theorem Camera_FindMyLine_binary_blurred :
    (Camera_FindMyLine 100 blurredImage).leftBroder 69 = 0 ∧
      (Camera_FindMyLine 100 (Camera_PreProcess 100 blurredImage fun _ => 0)).leftBroder 69 = 60 ∧
      ¬ SameBorders (Camera_FindMyLine 100 blurredImage)
        (Camera_FindMyLine 100 (Camera_PreProcess 100 blurredImage fun _ => 0)) := by
  have hgray : (Camera_FindMyLine 100 blurredImage).leftBroder 69 = 0 := by decide +kernel
  have hbinary : (Camera_FindMyLine 100
      (Camera_PreProcess 100 blurredImage fun _ => 0)).leftBroder 69 = 60 := by decide +kernel
  refine ⟨hgray, hbinary, fun h => ?_⟩
  have h69 := (h 69 (by omega) (by omega)).1
  rw [hgray, hbinary] at h69
  exact absurd h69 (by omega)

end Car2025
