/-
  `classify.c`: the page of results that is shown at the end of the run.

  1. **Program** — `result_diaplay`, which shows the record in one or two columns of thirteen rows, and
     the loop of `Vision_ZebraHandle`, which shows the page and the time of the run over and over.

  2. **Layout (`result_page_iff`)** — the page is on the screen up to 26 entries; the time is drawn over
     the last two rows of the second column.

  3. **The time (`run_seconds_spec`)** — it is divided in single precision, so what is shown stands within
     a millisecond of the time of the run.

  The time is passed on as a double.  A double holds a float as it is, and the digits that are peeled off
  need no more than 24 bits and a factor of 10 each: they are computed exactly.
-/
import Mathlib
import Car2025.Lib.Single
import Car2025.Classify
import Car2025.Display.Screen

namespace Car2025

open Layout

/-! ## Program -/

def JIAN_GE : ℕ := 5

/-- The other constants of `Class_Fifteen_t`. -/
def Class_Solder : UInt8 := 102
def Class_Drill : UInt8 := 103
def Class_Tape : UInt8 := 104
def Class_Screwdriver : UInt8 := 105
def Class_Tongs : UInt8 := 106
def Class_Oscilloscope : UInt8 := 107
def Class_Printer : UInt8 := 109
def Class_Keyboard : UInt8 := 110
def Class_Phone : UInt8 := 111
def Class_Mouse : UInt8 := 112
def Class_Headphone : UInt8 := 113
def Class_Monitor : UInt8 := 114

/-- The cases of the `switch` that every loop of `result_diaplay` makes: the font of a class, and how
    many of its signs are shown. -/
def Class_words : List (UInt8 × Chinese × ℕ) :=
  [(Class_Wrench, .Wrench, 2), (Class_Screwdriver, .screwdriver, 3), (Class_Tape, .Tape_measure, 2),
    (Class_Tongs, .Pliers, 2), (Class_Solder, .soldering_iron, 3), (Class_Drill, .Electric_drill, 3),
    (Class_Phone, .Mobile_phone, 2), (Class_Multimeter, .multimeter, 3), (Class_Sound, .sound_system, 2),
    (Class_Headphone, .Headphones, 5), (Class_Keyboard, .Keyboard, 2), (Class_Mouse, .mouse, 2),
    (Class_Monitor, .Monitor, 3), (Class_Oscilloscope, .oscilloscope, 3), (Class_Printer, .Printer, 3)]

/-- That `switch`. -/
def show_Class_Small (x y : ℕ) (Class_Small : UInt8) : Option (List Window) :=
  match Class_words.lookup Class_Small with
  | some (chinese_buffer, number) => ips200_show_chinese x y 16 chinese_buffer number
  | none => ips200_show_int x y Class_Small.toNat 2

/-- One pass of such a loop: the number of entry `i` and its class, in row `row`. -/
def show_entry (x_num x_kind row i : ℕ) (Class_Info : ℕ → Class_Info_t) : Option (List Window) := do
  let ws ← ips200_show_int x_num (32 + 16 * row) (i + 1 : ℕ) 2
  let ws' ← show_Class_Small x_kind (32 + 16 * row) (Class_Info i).Class_Small
  pure (ws ++ ws')

/-- `n` passes of such a loop, from entry `first` on. -/
def show_entries (x_num x_kind first : ℕ) (Class_Info : ℕ → Class_Info_t) :
    ℕ → Option (List Window)
  | 0 => some []
  | n + 1 => do
    let ws ← show_entries x_num x_kind first Class_Info n
    let ws' ← show_entry x_num x_kind n (first + n) Class_Info
    pure (ws ++ ws')

/-- `result_diaplay` -/
def result_diaplay (Class_Number : UInt8) (Class_Info : ℕ → Class_Info_t) : Option (List Window) := do
  if Class_Number ≤ 13 then
    let head ← ips200_show_chinese 0 0 16 .num 2
    let head' ← ips200_show_chinese (16 * JIAN_GE) 0 16 .kind 2
    let rows ← show_entries 0 (16 * JIAN_GE) 0 Class_Info Class_Number.toNat
    pure (head ++ head' ++ rows)
  else
    let head ← ips200_show_chinese 0 0 16 .num 2
    let head' ← ips200_show_chinese (16 * JIAN_GE) 0 16 .kind 2
    let right ← ips200_show_chinese (16 * 10) 0 16 .num 2
    let right' ← ips200_show_chinese (16 * 15) 0 16 .kind 2
    let rows ← show_entries 0 (16 * JIAN_GE) 0 Class_Info 13
    let rows' ← show_entries (16 * 11) (16 * 15) 13 Class_Info (Class_Number.toNat - 13)
    pure (head ++ head' ++ right ++ right' ++ rows ++ rows')

/-- `(float)run_time/1000.0f` -/
def run_seconds (R : Type) [CFloat R] (run_time : UInt32) : R :=
  CFloat.ofInt run_time.toNat / CFloat.ofInt 1000

/-- One turn of the loop at the end of `Vision_ZebraHandle`, with `time` the value of `run_seconds`. -/
def result_page (c : Classes) (time : ℚ≥0) : Option (List Window) := do
  let table ← result_diaplay c.Class_Number c.Class_Info
  let time ← ips200_show_float 240 210 (time : ℚ) 4 3
  pure (table ++ time)

/-! ## Layout -/

section

variable {d d' : Option (List Window)} {ok : Prop} {a box : Rect} {x y : ℕ}

theorem Class_words_lookup {Class_Small : UInt8} {chinese_buffer : Chinese} {number : ℕ}
    (h : Class_words.lookup Class_Small = some (chinese_buffer, number)) :
    (Class_Small, chinese_buffer, number) ∈ Class_words := by
  obtain ⟨pre, post, hsplit, -⟩ := List.lookup_eq_some_iff.mp h
  rw [hsplit]
  exact List.mem_append_right _ List.mem_cons_self

/-- No word is longer than five signs. -/
theorem Class_words_number : ∀ e ∈ Class_words, 0 < e.2.2 ∧ e.2.2 ≤ 5 := by decide

/-- **The class of an entry**, where the widest word fits: five signs of 16 points, which is what
    the box is made for. -/
theorem show_Class_Small_draws (hx : x ≤ 240) (y : ℕ) (Class_Small : UInt8) :
    Draws (show_Class_Small x y Class_Small) (y + 16 ≤ 240) ⟨x, y, x + 79, y + 15⟩ := by
  rw [show_Class_Small]
  -- a class without a word is shown as a number of three characters
  cases hword : Class_words.lookup Class_Small with
  | none =>
    dsimp only
    have hlength := (ips200_int_text_spec Class_Small.toNat (show 0 < 2 by decide) (by decide)).1
    refine ((Draws.of_eq (ips200_show_int_eq x y _) (char_windows_tiles y _ x)).mono ?_).of_iff
      (by omega)
    refine ⟨le_rfl, le_rfl, ?_, le_rfl⟩
    show x + 8 * (ips200_int_text Class_Small.toNat 2).length - 1 ≤ x + 79
    omega
  | some word =>
    obtain ⟨chinese_buffer, number⟩ := word
    obtain ⟨hpos, h5⟩ := Class_words_number _ (Class_words_lookup hword)
    dsimp only at hpos h5 ⊢
    refine Draws.of_iff (Draws.of_eq (ips200_show_chinese_eq x y chinese_buffer hpos)
      (Tiles.single ⟨?_, ?_⟩ ⟨le_rfl, le_rfl, ?_, ?_⟩)) ?_
    · show x ≤ number * 16 - 1 + x
      omega
    · show y ≤ y + 16 - 1
      omega
    · show number * 16 - 1 + x ≤ x + 79
      omega
    · exact le_rfl
    · omega

/-- **An entry** takes a row of 16 points, its number in front of its class. -/
theorem show_entry_draws {x_num x_kind : ℕ} (hnum : x_num + 24 ≤ x_kind) (hkind : x_kind ≤ 240)
    (row i : ℕ) (Class_Info : ℕ → Class_Info_t) :
    Draws (show_entry x_num x_kind row i Class_Info) (row < 13)
      ⟨x_num, 32 + 16 * row, x_kind + 79, 47 + 16 * row⟩ := by
  have hlength := (ips200_int_text_spec (i + 1) (show 0 < 2 by decide) (by decide)).1
  refine Draws.of_iff (Draws.append (Draws.of_eq (ips200_show_int_eq x_num (32 + 16 * row) (i + 1))
    (char_windows_tiles _ _ x_num))
    (show_Class_Small_draws hkind (32 + 16 * row) (Class_Info i).Class_Small)
    (Or.inl ?_) ⟨le_rfl, le_rfl, ?_, ?_⟩ ⟨?_, le_rfl, le_rfl, ?_⟩) (by omega) <;>
  · dsimp only
    omega

/-- **The rows** of a column, one below the other, by induction on their number. -/
theorem show_entries_draws {x_num x_kind : ℕ} (hnum : x_num + 24 ≤ x_kind) (hkind : x_kind ≤ 240)
    (first : ℕ) (Class_Info : ℕ → Class_Info_t) (n : ℕ) :
    Draws (show_entries x_num x_kind first Class_Info n) (n ≤ 13)
      ⟨x_num, 32, x_kind + 79, 31 + 16 * n⟩ := by
  induction n with
  | zero => exact ⟨by simp [show_entries], fun h => Option.some.inj h ▸ Tiles.nil⟩
  | succ n ih =>
    refine Draws.of_iff (Draws.append ih (show_entry_draws hnum hkind n (first + n) Class_Info)
      (Or.inr (Or.inr (Or.inl ?_))) ⟨le_rfl, le_rfl, le_rfl, ?_⟩ ⟨le_rfl, ?_, le_rfl, ?_⟩)
      (by omega) <;>
    · dsimp only
      omega

/-- The heads of the columns. -/
theorem head_draws (chinese_buffer : Chinese) (hx : x ≤ 240) :
    Draws (ips200_show_chinese x 0 16 chinese_buffer 2) True ⟨x, 0, x + 31, 15⟩ := by
  refine Draws.of_iff (Draws.of_eq (ips200_show_chinese_eq x 0 chinese_buffer (by decide))
    (Tiles.single ⟨?_, ?_⟩ ⟨le_rfl, le_rfl, ?_, le_rfl⟩)) (iff_of_true (by omega) trivial)
  · exact Nat.le_add_left x 31
  · exact Nat.zero_le 15
  · show 2 * 16 - 1 + x ≤ x + 31
    omega

/-- The heads of the first column, -/
def left_head : Option (List Window) :=
  both (ips200_show_chinese 0 0 16 .num 2) (ips200_show_chinese 80 0 16 .kind 2)

/-- and of both. -/
def heads : Option (List Window) :=
  both (both left_head (ips200_show_chinese 160 0 16 .num 2)) (ips200_show_chinese 240 0 16 .kind 2)

theorem left_head_draws : Draws left_head True ⟨0, 0, 159, 15⟩ :=
  (Draws.append (head_draws .num (by decide)) (head_draws .kind (by decide)) (by decide) (by decide)
    (by decide)).of_iff (by decide)

theorem heads_draws : Draws heads True ⟨0, 0, 319, 15⟩ := by
  have hright : Draws (both left_head (ips200_show_chinese 160 0 16 .num 2)) (True ∧ True)
      ⟨0, 0, 191, 15⟩ :=
    Draws.append left_head_draws (head_draws .num (by decide)) (by decide) (by decide) (by decide)
  exact (Draws.append hright (head_draws .kind (by decide)) (by decide) (by decide)
    (by decide)).of_iff (by decide)

variable {Class_Number : UInt8} {Class_Info : ℕ → Class_Info_t}

/-- The columns. -/
def column (Class_Info : ℕ → Class_Info_t) (n : ℕ) : Option (List Window) :=
  show_entries 0 80 0 Class_Info n

def column' (Class_Info : ℕ → Class_Info_t) (n : ℕ) : Option (List Window) :=
  show_entries 176 240 13 Class_Info n

theorem result_diaplay_left (h : Class_Number.toNat ≤ 13) :
    result_diaplay Class_Number Class_Info = both left_head (column Class_Info Class_Number.toNat) := by
  rw [result_diaplay, if_pos (UInt8.le_iff_toNat_le.mpr h), left_head, both_assoc]
  simp [both, column, JIAN_GE, Option.bind_assoc]

theorem result_diaplay_right (h : 13 < Class_Number.toNat) :
    result_diaplay Class_Number Class_Info =
      both heads (both (column Class_Info 13) (column' Class_Info (Class_Number.toNat - 13))) := by
  have hgt : ¬ Class_Number ≤ 13 := fun hle => absurd (UInt8.le_iff_toNat_le.mp hle) (not_le.mpr h)
  rw [result_diaplay, if_neg hgt, heads, left_head, both_assoc, both_assoc, both_assoc]
  simp [both, column, column', JIAN_GE, Option.bind_assoc]

theorem column_draws (Class_Info : ℕ → Class_Info_t) (n : ℕ) :
    Draws (column Class_Info n) (n ≤ 13) ⟨0, 32, 159, 31 + 16 * n⟩ :=
  show_entries_draws (by decide) (by decide) 0 Class_Info n

theorem column'_draws (Class_Info : ℕ → Class_Info_t) (n : ℕ) :
    Draws (column' Class_Info n) (n ≤ 13) ⟨176, 32, 319, 31 + 16 * n⟩ :=
  show_entries_draws (by decide) (by decide) 13 Class_Info n

/-- The time on the page. -/
def result_time (time : ℚ≥0) : Option (List Window) := ips200_show_float 240 210 (time : ℚ) 4 3

variable {c : Classes} {time : ℚ≥0}

theorem result_page_eq (c : Classes) (time : ℚ≥0) :
    result_page c time = both (result_diaplay c.Class_Number c.Class_Info) (result_time time) := rfl

/-- **The time** takes nine characters, whatever it is: its text is cut or filled up to them. -/
theorem result_time_draws (time : ℚ≥0) :
    Draws (result_time time) True ⟨240, 210, 311, 225⟩ := by
  have hlength := (ips200_float_text_spec (show 0 < 4 by decide) (by decide) (show 0 < 3 by decide)
    time.coe_nonneg).1
  have htiles := char_windows_tiles 210 (ips200_float_text (time : ℚ) 4 3) 240
  rw [hlength] at htiles
  exact (Draws.of_eq (ips200_show_float_eq 240 210 time.coe_nonneg) htiles).of_iff (by decide)

/-- **The page is drawn** as long as each column has its thirteen rows; one more, and an assertion
    of the screen stops the program. -/
theorem result_page_returns (c : Classes) (time : ℚ≥0) :
    (result_page c time).isSome ↔ c.Class_Number.toNat ≤ 26 := by
  rw [result_page_eq, isSome_both, and_iff_left ((result_time_draws time).returns.mpr trivial)]
  by_cases h13 : c.Class_Number.toNat ≤ 13
  · rw [result_diaplay_left h13, isSome_both, left_head_draws.returns, (column_draws _ _).returns,
      true_and]
    omega
  · rw [result_diaplay_right (not_le.mp h13), isSome_both, isSome_both, heads_draws.returns,
      (column_draws _ _).returns, (column'_draws _ _).returns, true_and]
    omega

/-- What is drawn is on the screen. -/
def OnScreen (d : Option (List Window)) : Prop :=
  ∀ ws, d = some ws → ∀ w ∈ ws, w.area.In ⟨0, 0, 319, 239⟩

theorem OnScreen.both (h : OnScreen d) (h' : OnScreen d') : OnScreen (both d d') := by
  intro ws hws w hw
  obtain ⟨ws₁, ws₂, hd, hd', rfl⟩ := both_eq_some_iff.mp hws
  exact (List.mem_append.mp hw).elim (h ws₁ hd w) (h' ws₂ hd' w)

theorem Draws.onScreen (h : Draws d ok a) (ha : ok → a.In ⟨0, 0, 319, 239⟩) : OnScreen d := by
  intro ws hws w hw
  exact ((h.tiles hws).inside w hw).trans (ha (h.returns.mp (hws ▸ rfl)))

theorem column_onScreen (n : ℕ) : OnScreen (column Class_Info n) := by
  refine (column_draws Class_Info n).onScreen fun hn => ⟨le_rfl, Nat.zero_le _, ?_, ?_⟩ <;>
  · dsimp only
    omega

theorem column'_onScreen (n : ℕ) : OnScreen (column' Class_Info n) := by
  refine (column'_draws Class_Info n).onScreen fun hn =>
    ⟨Nat.zero_le _, Nat.zero_le _, le_rfl, ?_⟩
  dsimp only
  omega

theorem result_page_onScreen (c : Classes) (time : ℚ≥0) :
    OnScreen (result_page c time) := by
  have htime : OnScreen (result_time time) :=
    (result_time_draws time).onScreen fun _ => by decide
  rw [result_page_eq]
  refine OnScreen.both ?_ htime
  by_cases h13 : c.Class_Number.toNat ≤ 13
  · rw [result_diaplay_left h13]
    exact (left_head_draws.onScreen fun _ => by decide).both (column_onScreen _)
  · rw [result_diaplay_right (not_le.mp h13)]
    exact (heads_draws.onScreen fun _ => by decide).both
      ((column_onScreen _).both (column'_onScreen _))

/-- **Up to 24 entries** nothing overlaps: the second column then ends above the time. -/
theorem result_page_tiles {ws : List Window} (h24 : c.Class_Number.toNat ≤ 24)
    (h : result_page c time = some ws) : Tiles Window.area ws ⟨0, 0, 319, 239⟩ := by
  rw [result_page_eq] at h
  by_cases h13 : c.Class_Number.toNat ≤ 13
  · -- one column: the time stands to the right of it
    rw [result_diaplay_left h13, both_assoc] at h
    have hleft : Draws (both (column c.Class_Info c.Class_Number.toNat) (result_time time))
        (c.Class_Number.toNat ≤ 13 ∧ True) ⟨0, 32, 319, 239⟩ := by
      refine Draws.append (column_draws c.Class_Info c.Class_Number.toNat)
        (result_time_draws time) (Or.inl ?_) ⟨le_rfl, le_rfl, ?_, ?_⟩ (by decide) <;>
      · dsimp only
        omega
    have hpage : Draws (both left_head _) (True ∧ _) ⟨0, 0, 319, 239⟩ :=
      Draws.append left_head_draws hleft (by decide) (by decide) (by decide)
    exact hpage.tiles h
  · rw [result_diaplay_right (not_le.mp h13), both_assoc, both_assoc] at h
    -- the time stands below the second column
    have hright : Draws (both (column' c.Class_Info (c.Class_Number.toNat - 13))
        (result_time time)) (c.Class_Number.toNat - 13 ≤ 13 ∧ True) ⟨176, 32, 319, 239⟩ := by
      refine Draws.append (column'_draws c.Class_Info (c.Class_Number.toNat - 13))
        (result_time_draws time) (Or.inr (Or.inr (Or.inl ?_)))
        ⟨le_rfl, le_rfl, le_rfl, ?_⟩ (by decide) <;>
      · dsimp only
        omega
    have hrows : Draws (both (column c.Class_Info 13) _) (_ ∧ _) ⟨0, 32, 319, 239⟩ :=
      Draws.append (column_draws c.Class_Info 13) hright (by decide) (by decide) (by decide)
    have hpage : Draws (both heads _) (True ∧ _) ⟨0, 0, 319, 239⟩ :=
      Draws.append heads_draws hrows (by decide) (by decide) (by decide)
    exact hpage.tiles h

/-- A row of a column. -/
theorem show_entries_row {x_num x_kind first n row : ℕ} (hrow : row < n) :
    ∀ {ws : List Window}, show_entries x_num x_kind first Class_Info n = some ws →
      ∃ ws', show_entry x_num x_kind row (first + row) Class_Info = some ws' ∧ ws' ⊆ ws := by
  induction n with
  | zero => cases hrow
  | succ n ih =>
    intro ws h
    obtain ⟨ws₁, ws₂, h₁, h₂, rfl⟩ := both_eq_some_iff.mp h
    rcases Nat.lt_succ_iff_lt_or_eq.mp hrow with hlt | rfl
    · obtain ⟨ws', hws', hsub⟩ := ih hlt h₁
      exact ⟨ws', hws', List.subset_append_of_subset_left _ hsub⟩
    · exact ⟨ws₂, h₂, List.subset_append_right _ _⟩

/-- The first window of a class. -/
theorem show_Class_Small_first {Class_Small : UInt8} {ws : List Window}
    (h : show_Class_Small x y Class_Small = some ws) :
    ∃ w ∈ ws, w.area.x1 = x ∧ w.area.y1 = y ∧ x + 7 ≤ w.area.x2 ∧ w.area.y2 = y + 15 := by
  rw [show_Class_Small] at h
  cases hword : Class_words.lookup Class_Small with
  | none =>
    rw [hword] at h
    dsimp only at h
    rw [ips200_show_int_eq] at h
    obtain ⟨hlength, -⟩ := ips200_int_text_spec Class_Small.toNat (show 0 < 2 by decide) (by decide)
    split_ifs at h
    obtain rfl := Option.some.inj h
    cases htext : ips200_int_text Class_Small.toNat 2 with
    | nil =>
      rw [htext] at hlength
      cases hlength
    | cons dat text => exact ⟨_, List.mem_cons_self, rfl, rfl, le_rfl, rfl⟩
  | some word =>
    obtain ⟨chinese_buffer, number⟩ := word
    obtain ⟨hpos, -⟩ := Class_words_number _ (Class_words_lookup hword)
    rw [hword] at h
    dsimp only at h hpos
    rw [ips200_show_chinese_eq x y chinese_buffer hpos] at h
    split_ifs at h
    obtain rfl := Option.some.inj h
    refine ⟨_, List.mem_cons_self, rfl, rfl, ?_, rfl⟩
    show x + 7 ≤ number * 16 - 1 + x
    omega

/-- **From 25 entries on** the time is drawn over the class of entry 25. -/
theorem result_page_overlaps {ws : List Window} (h25 : 25 ≤ c.Class_Number.toNat)
    (h : result_page c time = some ws) :
    ¬ ws.Pairwise fun w w' => w.area.Apart w'.area := by
  intro hapart
  rw [result_page_eq, result_diaplay_right (by omega)] at h
  obtain ⟨table, digits, htable, hdigits, rfl⟩ := both_eq_some_iff.mp h
  obtain ⟨_, rows, _, hrows, rfl⟩ := both_eq_some_iff.mp htable
  obtain ⟨_, rows', _, hrows', rfl⟩ := both_eq_some_iff.mp hrows
  have h11 : 11 < c.Class_Number.toNat - 13 := by omega
  obtain ⟨entry, hentry, hsub⟩ := show_entries_row h11 hrows'
  obtain ⟨_, kind, _, hkind, rfl⟩ := both_eq_some_iff.mp hentry
  obtain ⟨w, hw, hx1, hy1, hx2, hy2⟩ := show_Class_Small_first hkind
  -- the first sign of the time
  obtain ⟨w', hw', hx1', hy1', hx2', hy2'⟩ : ∃ w ∈ digits,
      w.area.x1 = 240 ∧ w.area.y1 = 210 ∧ w.area.x2 = 247 ∧ w.area.y2 = 225 := by
    have hlength := (ips200_float_text_spec (show 0 < 4 by decide) (by decide)
      (show 0 < 3 by decide) time.coe_nonneg).1
    rw [result_time, ips200_show_float_eq 240 210 time.coe_nonneg, if_pos (by decide)] at hdigits
    obtain rfl := Option.some.inj hdigits
    cases htext : ips200_float_text (time : ℚ) 4 3 with
    | nil =>
      rw [htext] at hlength
      cases hlength
    | cons dat text => exact ⟨_, List.mem_cons_self, rfl, rfl, rfl, rfl⟩
  have hmem : w ∈ rows' := hsub (List.mem_append_right _ hw)
  have hw_apart := (List.pairwise_append.mp hapart).2.2 w
    (List.mem_append_right _ (List.mem_append_right _ hmem)) w' hw'
  rcases hw_apart with h | h | h | h <;> omega

/-- **Layout** — the page of results is drawn, without an assertion that stops the program, exactly if
    the record has at most 26 entries; and nothing on it overlaps exactly if it has at most 24.  The time
    has no say: its characters take the same nine places whatever they are. -/
theorem result_page_iff (c : Classes) (time : ℚ≥0) :
    ((result_page c time).isSome ↔ c.Class_Number ≤ 26) ∧
      ∀ ws, result_page c time = some ws →
        ((∀ w ∈ ws, w.area.x2 < ips200_x_max ∧ w.area.y2 < ips200_y_max) ∧
          (ws.Pairwise (fun w w' => w.area.Apart w'.area) ↔ c.Class_Number ≤ 24)) := by
  rw [UInt8.le_iff_toNat_le, UInt8.le_iff_toNat_le]
  refine ⟨result_page_returns c time, fun ws hws => ⟨?_, ?_⟩⟩
  · intro w hw
    obtain ⟨-, -, hx, hy⟩ := result_page_onScreen c time ws hws w hw
    exact ⟨Nat.lt_succ_of_le hx, Nat.lt_succ_of_le hy⟩
  · constructor
    · intro hapart
      by_contra h
      exact result_page_overlaps (not_le.mp h) hws hapart
    · exact fun h24 => (result_page_tiles h24 hws).apart

end

/-! ## The time -/

open CFloat in
/-- **The time** is a number that can be shown, and up to `2 ^ 24` milliseconds it is less than one of
    them away from the time of the run: the milliseconds are converted as they are, and the quotient moves
    by half a unit of its 24 bits. -/
theorem run_seconds_spec (R : Type) [CFloat R] [Single R] (run_time : UInt32) :
    ∃ time : ℚ≥0, Single.Is (run_seconds R run_time) (time : ℚ) ∧
      (run_time.toNat < 2 ^ 24 → |(time : ℚ) * 1000 - run_time.toNat| < 1) := by
  have hlt : run_time.toNat < 2 ^ 32 := run_time.toNat_lt
  generalize hn : run_time.toNat = n at hlt
  obtain ⟨p, hp, his⟩ := Single.ofInt (R := R) n (by rw [Nat.abs_cast]; exact_mod_cast hlt.le)
  have h1000 : Single.Is (CFloat.ofInt 1000 : R) 1000 := Single.ofInt_is (by norm_num)
  have hnear := abs_le.mp hp.near
  rw [Int.cast_natCast, Nat.abs_cast] at hnear
  have hn0 : (0 : ℚ) ≤ n := Nat.cast_nonneg n
  have hbig : (n : ℚ) ≤ 2 ^ 32 := by exact_mod_cast hlt.le
  have hp0 : 0 ≤ p := by linarith
  have hrange : InRange (p / 1000) := by
    rcases Nat.eq_zero_or_pos n with rfl | hpos
    · left
      rw [Nat.cast_zero] at hnear
      linarith
    · right
      have hone : (1 : ℚ) ≤ n := by exact_mod_cast hpos
      rw [abs_of_nonneg (div_nonneg hp0 (by norm_num))]
      constructor <;> linarith
  obtain ⟨q, hq, hisq⟩ := Single.div his h1000 (by norm_num) hrange
  have hnear' := abs_le.mp hq.near
  rw [abs_of_nonneg (div_nonneg hp0 (by norm_num))] at hnear'
  have hq0 : 0 ≤ q := by linarith
  refine ⟨⟨q, hq0⟩, ?_, fun h24 => ?_⟩
  · rw [run_seconds, hn]
    exact hisq
  · -- up to 24 bits nothing is lost in the conversion
    have hsmall : (n : ℚ) < 2 ^ 24 := by exact_mod_cast h24
    have hpn : p = n := hp.whole n rfl (by rw [Nat.abs_cast]; exact_mod_cast h24.le)
    rw [hpn] at hnear'
    show |q * 1000 - n| < 1
    rw [abs_lt]
    constructor <;> linarith

end Car2025
