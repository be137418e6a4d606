/-
  The page of results, read back.

  1. **Reading** — a reader sees at each place the window that begins there: a word, or the characters of
     a number.

  2. **Presence and absence** — an entry of the record has its row; below the last one there is nothing.

  3. **Round trip (`result_page_read`)** — up to 24 entries the page gives back every call of
     `Class_Add`, with its number, and the time of the run up to the last millisecond.
-/
import Mathlib
import Car2025.Display.Result

namespace Car2025

open Layout

/-! ## Reading -/

/-- What is seen at a place. -/
def sign_at (ws : List Window) (x y : ℕ) : Option Shown :=
  (ws.find? fun w => w.area.x1 = x ∧ w.area.y1 = y).map (·.shown)

/-- The text of up to `n` characters from a place on. -/
def text_at (ws : List Window) (x y : ℕ) : ℕ → List Char
  | 0 => []
  | n + 1 =>
    match sign_at ws x y with
    | some (.char dat) => dat :: text_at ws (x + 8) y n
    | _ => []

/-- The class at a place: the word names it, and a number is one less. -/
def class_at (ws : List Window) (x y : ℕ) : Option UInt8 :=
  match sign_at ws x y with
  | some (.chinese chinese_buffer _) =>
    (Class_words.find? fun e => e.2.1 = chinese_buffer).map (·.1)
  | some (.char _) => some (UInt8.ofNat (int_read (text_at ws x y 3) + 1))
  | none => none

/-- The number and the class in row `i`, counted down the first column and then the second. -/
def entry_at (ws : List Window) (i : ℕ) : Option (ℕ × UInt8) :=
  if i < 13 then
    (class_at ws 80 (32 + 16 * i)).map fun Class => (int_read (text_at ws 0 (32 + 16 * i) 3), Class)
  else
    (class_at ws 240 (32 + 16 * (i - 13))).map fun Class =>
      (int_read (text_at ws 176 (32 + 16 * (i - 13)) 3), Class)

section

variable {ws : List Window} {box : Rect} {x y : ℕ}

theorem sign_at_of_mem (h : Tiles Window.area ws box) {w : Window} (hw : w ∈ ws) :
    sign_at ws w.area.x1 w.area.y1 = some w.shown := by
  rw [sign_at, h.find hw]
  rfl

/-- **A text** is seen as it was written: each of its characters is found by its corner, since
    nothing on the page has the same one. -/
theorem text_at_of_windows (h : Tiles Window.area ws box) (y : ℕ) (text : List Char) :
    ∀ x, char_windows x y text ⊆ ws → text_at ws x y text.length = text := by
  induction text with
  | nil => exact fun _ _ => rfl
  | cons dat text ih =>
    intro x hsub
    rw [char_windows, List.cons_subset] at hsub
    rw [List.length_cons, text_at, sign_at_of_mem h hsub.1]
    exact congrArg (dat :: ·) (ih (x + 8) hsub.2)

theorem Class_words_find : ∀ e ∈ Class_words,
    (Class_words.find? fun e' => e'.2.1 = e.2.1).map (·.1) = some e.1 ∧ Class_Wrench ≤ e.1 := by
  decide

/-- Every class from `Class_Wrench` to `Class_Sound` has a word. -/
theorem Class_words_complete {Class : UInt8} (h : Class_Wrench ≤ Class) (h' : Class ≤ Class_Sound) :
    Class_words.lookup Class ≠ none := by
  have hall : ∀ k < 256, 101 ≤ k → k ≤ 115 → Class_words.lookup (UInt8.ofNat k) ≠ none := by
    decide +kernel
  have hClass := hall Class.toNat (UInt8.toNat_lt Class) (UInt8.le_iff_toNat_le.mp h)
    (UInt8.le_iff_toNat_le.mp h')
  rwa [UInt8.ofNat_toNat] at hClass

/-- The text of an integer with two places. -/
theorem show_int_at {dat : ℕ} {num : List Window} (h : Tiles Window.area ws box)
    (hnum : ips200_show_int x y dat 2 = some num) (hsub : num ⊆ ws) :
    (∃ c, sign_at ws x y = some (.char c)) ∧ int_read (text_at ws x y 3) = dat % 100 := by
  obtain ⟨hlength, hread⟩ := ips200_int_text_spec dat (show 0 < 2 by decide) (by decide)
  rw [ips200_show_int_eq] at hnum
  split_ifs at hnum
  obtain rfl := Option.some.inj hnum
  have htext := text_at_of_windows h y (ips200_int_text dat 2) x hsub
  rw [hlength] at htext
  rw [htext]
  refine ⟨?_, hread⟩
  cases hcons : ips200_int_text dat 2 with
  | nil =>
    rw [hcons] at hlength
    cases hlength
  | cons c text =>
    rw [hcons] at hsub
    exact ⟨c, sign_at_of_mem h (hsub List.mem_cons_self)⟩

/-- **A class** is seen as it was recorded, by the signs that are drawn for it, which tell it from
    all others. -/
theorem class_at_of_windows (h : Tiles Window.area ws box) {Class : UInt8} (hpos : 0 < Class)
    (hle : Class ≤ Class_Sound) {kind : List Window}
    (hkind : show_Class_Small x y (if Class < Class_Wrench then Class - 1 else Class) = some kind)
    (hsub : kind ⊆ ws) : class_at ws x y = some Class := by
  have hone : (Class - 1).toNat = Class.toNat - 1 :=
    UInt8.toNat_sub_of_le Class 1 (UInt8.le_iff_toNat_le.mpr (UInt8.lt_iff_toNat_lt.mp hpos))
  by_cases hnumber : Class < Class_Wrench
  · -- a number has no word
    have hlt : Class.toNat < 101 := UInt8.lt_iff_toNat_lt.mp hnumber
    have hnone : Class_words.lookup (Class - 1) = none := by
      cases hword : Class_words.lookup (Class - 1) with
      | none => rfl
      | some word =>
        have htool := (Class_words_find _ (Class_words_lookup hword)).2
        have htool' : 101 ≤ (Class - 1).toNat := UInt8.le_iff_toNat_le.mp htool
        omega
    rw [if_pos hnumber, show_Class_Small, hnone] at hkind
    obtain ⟨⟨c, hsign⟩, hread⟩ := show_int_at h hkind hsub
    have hsucc : (Class - 1).toNat % 100 + 1 = Class.toNat := by
      have hpos' : 0 < Class.toNat := UInt8.lt_iff_toNat_lt.mp hpos
      omega
    rw [class_at, hsign]
    dsimp only
    rw [hread, hsucc, UInt8.ofNat_toNat]
  · rw [if_neg hnumber] at hkind
    -- from `Class_Wrench` on each class has a word of its own
    obtain ⟨⟨chinese_buffer, number⟩, hword⟩ := Option.ne_none_iff_exists'.mp
      (Class_words_complete (UInt8.not_lt.mp hnumber) hle)
    obtain ⟨hfind, -⟩ := Class_words_find _ (Class_words_lookup hword)
    obtain ⟨hsigns, -⟩ := Class_words_number _ (Class_words_lookup hword)
    rw [show_Class_Small, hword] at hkind
    dsimp only at hkind hsigns
    rw [ips200_show_chinese_eq x y chinese_buffer hsigns] at hkind
    split_ifs at hkind
    obtain rfl := Option.some.inj hkind
    have hsign := sign_at_of_mem h (hsub List.mem_cons_self)
    dsimp only at hsign
    rw [class_at, hsign]
    exact hfind

/-! ## Presence and absence -/

variable {c : Classes} {time : ℚ≥0} {i : ℕ}

/-- **An entry** has its row, with its number in front of its class. -/
theorem entry_at_of_entry (h : Tiles Window.area ws box) {x_num x_kind row : ℕ} {entry : List Window}
    (hentry : show_entry x_num x_kind row i c.Class_Info = some entry) (hsub : entry ⊆ ws)
    (hi : i < 99) {Class : UInt8} (hpos : 0 < Class) (hle : Class ≤ Class_Sound)
    (hClass : (c.Class_Info i).Class_Small = if Class < Class_Wrench then Class - 1 else Class) :
    (class_at ws x_kind (32 + 16 * row)).map (fun Class =>
      (int_read (text_at ws x_num (32 + 16 * row) 3), Class)) = some (i + 1, Class) := by
  obtain ⟨num, kind, hnum, hkind, rfl⟩ := both_eq_some_iff.mp hentry
  obtain ⟨hsub, hsub'⟩ := List.append_subset.mp hsub
  rw [hClass] at hkind
  rw [class_at_of_windows h hpos hle hkind hsub', (show_int_at h hnum hsub).2,
    Nat.mod_eq_of_lt (by omega)]
  rfl

/-- No window begins at this place. -/
def Misses (d : Option (List Window)) (x y : ℕ) : Prop :=
  ∀ ws, d = some ws → ∀ w ∈ ws, ¬ (w.area.x1 = x ∧ w.area.y1 = y)

variable {d d' : Option (List Window)} {ok : Prop} {a : Rect}

theorem Misses.both (h : Misses d x y) (h' : Misses d' x y) : Misses (both d d') x y := by
  intro ws hws w hw
  obtain ⟨ws₁, ws₂, hd, hd', rfl⟩ := both_eq_some_iff.mp hws
  exact (List.mem_append.mp hw).elim (h ws₁ hd w) (h' ws₂ hd' w)

theorem Draws.misses (h : Draws d ok a) (ha : y < a.y1 ∨ a.y2 < y ∨ x < a.x1 ∨ a.x2 < x) :
    Misses d x y := by
  rintro ws hws w hw ⟨rfl, rfl⟩
  obtain ⟨hx, hy⟩ := (h.tiles hws).proper w hw
  obtain ⟨hx1, hy1, hx2, hy2⟩ := (h.tiles hws).inside w hw
  omega

theorem Misses.class_at (h : Misses d x y) (hd : d = some ws) : class_at ws x y = none := by
  have hnone : ws.find? (fun w => w.area.x1 = x ∧ w.area.y1 = y) = none := by
    rw [List.find?_eq_none]
    intro w hw
    rw [decide_eq_true_iff]
    exact h ws hd w hw
  rw [Car2025.class_at, sign_at, hnone]
  rfl

/-- **Below the last entry** there is nothing, so a reader knows how many there are. -/
theorem result_page_misses (time : ℚ≥0) (hn : c.Class_Number.toNat ≤ i) (hi : i < 24) :
    Misses (result_page c time) (if i < 13 then 80 else 240)
      (32 + 16 * if i < 13 then i else i - 13) := by
  rw [result_page_eq]
  have htime : Misses (result_time time) (if i < 13 then 80 else 240)
      (32 + 16 * if i < 13 then i else i - 13) := by
    refine (result_time_draws time).misses ?_
    dsimp only
    split <;> omega
  refine Misses.both ?_ htime
  by_cases h13 : c.Class_Number.toNat ≤ 13
  · rw [result_diaplay_left h13]
    refine (left_head_draws.misses ?_).both ((column_draws _ _).misses ?_)
    · dsimp only
      omega
    · dsimp only
      split <;> omega
  · rw [result_diaplay_right (not_le.mp h13)]
    refine (heads_draws.misses ?_).both (((column_draws _ _).misses ?_).both
      ((column'_draws _ _).misses ?_))
    · dsimp only
      omega
    · dsimp only
      split <;> omega
    · dsimp only
      split <;> omega

/-- **Each entry** is drawn in its row: thirteen in the first column, the others in the second. -/
theorem result_page_row (h : result_page c time = some ws) (hi : i < c.Class_Number.toNat) :
    ∃ entry, entry ⊆ ws ∧
      (if i < 13 then show_entry 0 80 i i c.Class_Info
        else show_entry 176 240 (i - 13) i c.Class_Info) = some entry := by
  rw [result_page_eq] at h
  obtain ⟨table, _, htable, -, rfl⟩ := both_eq_some_iff.mp h
  by_cases h13 : c.Class_Number.toNat ≤ 13
  · rw [result_diaplay_left h13] at htable
    obtain ⟨_, rows, _, hrows, rfl⟩ := both_eq_some_iff.mp htable
    obtain ⟨entry, hentry, hsub⟩ := show_entries_row hi hrows
    rw [Nat.zero_add] at hentry
    refine ⟨entry, fun w hw => ?_, by rw [if_pos (by omega), hentry]⟩
    exact List.mem_append_left _ (List.mem_append_right _ (hsub hw))
  · rw [result_diaplay_right (not_le.mp h13)] at htable
    obtain ⟨_, _, _, hcolumns, rfl⟩ := both_eq_some_iff.mp htable
    obtain ⟨rows, rows', hrows, hrows', rfl⟩ := both_eq_some_iff.mp hcolumns
    by_cases hleft : i < 13
    · obtain ⟨entry, hentry, hsub⟩ := show_entries_row hleft hrows
      rw [Nat.zero_add] at hentry
      refine ⟨entry, fun w hw => ?_, by rw [if_pos hleft, hentry]⟩
      exact List.mem_append_left _ (List.mem_append_right _ (List.mem_append_left _ (hsub hw)))
    · have hright : i - 13 < c.Class_Number.toNat - 13 := by omega
      obtain ⟨entry, hentry, hsub⟩ := show_entries_row hright hrows'
      rw [Nat.add_sub_cancel' (not_lt.mp hleft)] at hentry
      refine ⟨entry, fun w hw => ?_, by rw [if_neg hleft, hentry]⟩
      exact List.mem_append_left _ (List.mem_append_right _ (List.mem_append_right _ (hsub hw)))

/-- **The time** reads as the last seven digits of its milliseconds: four places before the point,
    three behind it, and the rest cut off. -/
theorem result_page_time (h : Tiles Window.area ws box) (hpage : result_page c time = some ws) :
    number_read (text_at ws 240 210 9) = ((⌊(time : ℚ) * 1000⌋₊ % 10 ^ 7 : ℕ) : ℚ) / 1000 := by
  rw [result_page_eq] at hpage
  obtain ⟨table, _, -, hdigits, rfl⟩ := both_eq_some_iff.mp hpage
  obtain ⟨hlength, hread⟩ := ips200_float_text_spec (show 0 < 4 by decide) (by decide)
    (show 0 < 3 by decide) time.coe_nonneg
  rw [result_time, ips200_show_float_eq 240 210 time.coe_nonneg, if_pos (by decide)] at hdigits
  obtain rfl := Option.some.inj hdigits
  have htext := text_at_of_windows h 210 _ 240 (List.subset_append_right table _)
  rw [hlength] at htext
  rw [htext, hread]
  norm_num

/-- **A time that is within a millisecond** loses at most that one, as the rest of it is cut off. -/
theorem floor_seconds {n : ℕ} (h : |(time : ℚ) * 1000 - n| < 1) :
    ⌊(time : ℚ) * 1000⌋₊ = n ∨ ⌊(time : ℚ) * 1000⌋₊ + 1 = n := by
  obtain ⟨hlow, hhigh⟩ := abs_lt.mp h
  have h0 : 0 ≤ (time : ℚ) * 1000 := mul_nonneg time.coe_nonneg (by norm_num)
  have hle : ⌊(time : ℚ) * 1000⌋₊ < n + 1 := by
    rw [Nat.floor_lt h0]
    push_cast
    linarith
  have hge : n < ⌊(time : ℚ) * 1000⌋₊ + 2 := by
    have hlt := Nat.lt_floor_add_one ((time : ℚ) * 1000)
    have hcast : (n : ℚ) < ⌊(time : ℚ) * 1000⌋₊ + 2 := by linarith
    exact_mod_cast hcast
  omega

/-! ## Round trip -/

/-- The record of these calls of `Class_Add`, as far as it is shown: how many there were, and the
    class of each in their order. -/
structure Recorded (c : Classes) (calls : List UInt8) : Prop where
  number : c.Class_Number.toNat = calls.length
  small : ∀ i Class, calls[i]? = some Class →
    (c.Class_Info i).Class_Small = if Class < Class_Wrench then Class - 1 else Class

/-- **A record is read back**, whatever time stands below it: nothing overlaps, so each row shows its own
    entry, and the time is seen by itself. -/
theorem Recorded.read {calls : List UInt8} (h : Recorded c calls)
    (hcodes : ∀ Class ∈ calls, 0 < Class ∧ Class ≤ Class_Sound) (hle : calls.length ≤ 24)
    (time : ℚ≥0) :
    ∃ ws, result_page c time = some ws ∧
      (∀ i < 24, entry_at ws i = calls[i]?.map fun Class => (i + 1, Class)) ∧
      number_read (text_at ws 240 210 9) = ((⌊(time : ℚ) * 1000⌋₊ % 10 ^ 7 : ℕ) : ℚ) / 1000 := by
  have hnumber := h.number
  obtain ⟨ws, hws⟩ := Option.isSome_iff_exists.mp
    ((result_page_returns c time).mpr (by omega))
  have htiles := result_page_tiles (by omega) hws
  refine ⟨ws, hws, fun i hi => ?_, result_page_time htiles hws⟩
  by_cases hin : i < calls.length
  · obtain ⟨entry, hsub, hentry⟩ := result_page_row hws (by omega : i < c.Class_Number.toNat)
    obtain ⟨hpos, hsound⟩ := hcodes calls[i] (List.getElem_mem hin)
    have hsome : calls[i]? = some calls[i] := List.getElem?_eq_getElem hin
    have hsmall := h.small i calls[i] hsome
    rw [hsome, Option.map_some, entry_at]
    by_cases hleft : i < 13
    · rw [if_pos hleft] at hentry ⊢
      exact entry_at_of_entry htiles hentry hsub (by omega) hpos hsound hsmall
    · rw [if_neg hleft] at hentry ⊢
      exact entry_at_of_entry htiles hentry hsub (by omega) hpos hsound hsmall
  · -- past the record the row is empty, whichever column it is in
    have hmisses := result_page_misses time (by omega : c.Class_Number.toNat ≤ i) hi
    have hnone := hmisses.class_at hws
    rw [List.getElem?_eq_none (not_lt.mp hin), Option.map_none, entry_at]
    by_cases hleft : i < 13
    · rw [if_pos hleft, if_pos hleft] at hnone
      rw [if_pos hleft, hnone]
      rfl
    · rw [if_neg hleft, if_neg hleft] at hnone
      rw [if_neg hleft, hnone]
      rfl

/-- **Round trip** — for up to 24 calls of `Class_Add`, with classes from 1 to `Class_Sound`, the page of
    results is drawn, and a reader gets from it every call with its number, and no other entry.  The time
    that is read, of a run below 10000 seconds, is that of the run or one millisecond less. -/
theorem result_page_read (R : Type) [CFloat R] [CFloat.Single R] (junk : UInt8) (c : Classes)
    (calls : List UInt8) (run_time : UInt32)
    (h : ∀ Class ∈ calls, 0 < Class ∧ Class ≤ Class_Sound) (hle : calls.length ≤ 24) :
    ∃ time : ℚ≥0, CFloat.Single.Is (run_seconds R run_time) (time : ℚ) ∧
      ∃ ws, result_page ((Class_Init c).run junk calls) time = some ws ∧
        (∀ i < 24, entry_at ws i = calls[i]?.map fun Class => (i + 1, Class)) ∧
        (run_time.toNat < 10 ^ 7 →
          number_read (text_at ws 240 210 9) * 1000 = run_time.toNat ∨
          number_read (text_at ws 240 210 9) * 1000 = run_time.toNat - 1) := by
  have hcalls : ∀ Class ∈ calls, Class ≤ Class_Sound := fun Class hC => (h Class hC).2
  have hrecorded : Recorded ((Class_Init c).run junk calls) calls := by
    refine ⟨run_number_toNat hcalls (by omega), fun i Class hi => ?_⟩
    rw [run_entries junk c hcalls (by omega) i Class hi, Class_entry]
  obtain ⟨time, his, hnear⟩ := run_seconds_spec R run_time
  obtain ⟨ws, hws, hentries, hread⟩ := hrecorded.read h hle time
  refine ⟨time, his, ws, hws, hentries, fun h7 => ?_⟩
  have hmilli := floor_seconds (hnear (h7.trans (by decide)))
  generalize ⌊(time : ℚ) * 1000⌋₊ = milli at hread hmilli
  -- seven digits are enough, so none is cut off at the front
  rw [hread, Nat.mod_eq_of_lt (by omega), div_mul_cancel₀ _ (by norm_num)]
  rcases hmilli with hmilli | hmilli
  · exact Or.inl (congrArg Nat.cast hmilli)
  · right
    rw [← hmilli]
    push_cast
    ring

end

/-- A number, a tool and a device, after twelve seconds and a third. -/
theorem result_page_read_three :
    ∃ time : ℚ≥0, CFloat.Single.Is (run_seconds ℚ 12345) (time : ℚ) ∧
      ∃ ws, result_page ((Class_Init Classes.zero).run 0 [5, 101, 115]) time = some ws ∧
        (∀ i < 24, entry_at ws i =
          ([5, 101, 115] : List UInt8)[i]?.map fun Class => (i + 1, Class)) ∧
        ((12345 : UInt32).toNat < 10 ^ 7 →
          number_read (text_at ws 240 210 9) * 1000 = (12345 : UInt32).toNat ∨
          number_read (text_at ws 240 210 9) * 1000 = (12345 : UInt32).toNat - 1) :=
  result_page_read ℚ 0 Classes.zero [5, 101, 115] 12345 (by decide +kernel) (by decide)

end Car2025
