/-
  `button.c`: long and short presses of a button.

  1. **Program** — four states: a press that goes down starts the debounce time (`BUTTON_FLIT`), which
     ends in a wait for the release (`BUTTON_TICK`).  The release is a short press, or takes the
     button to `BUTTON_LONG`, from where it goes back to `BUTTON_IDLE`.

  2. **Steps** — what a scan does, for each state.  No scan returns `BUTTON_LONGPRESS`.

  3. **Phases** — a press that is held and released takes the button through these states, each for
     its own time.  Only one scan can report it: the first one in `BUTTON_TICK` that reads a release.

  4. **Classification (`button_scan_longshort_classified_iff`)** — so a press is reported, once, exactly
     where that scan finds it short.
-/
import Mathlib
import Car2025.Button

namespace Car2025

/-! ## Program -/

/-- `BUTTON_SHORTPRESS` -/
def BUTTON_SHORTPRESS : UInt8 := 0x01
/-- `BUTTON_LONGPRESS` -/
def BUTTON_LONGPRESS : UInt8 := 0x02

/-- `BUTTON_IDLE` -/
def BUTTON_IDLE : UInt8 := 0x00
/-- `BUTTON_TICK` -/
def BUTTON_TICK : UInt8 := 0x01
/-- `BUTTON_FLIT` -/
def BUTTON_FLIT : UInt8 := 0x02
/-- `BUTTON_LONG` -/
def BUTTON_LONG : UInt8 := 0x03

/-- `button_scan_longshort`.  A scan reads the pin once, or not at all. -/
def button_scan_longshort (long_tick short_tick : UInt16) (s : ButtonScan) (button : button_t) :
    UInt8 × button_t :=
  if button.button_status = BUTTON_IDLE then
    if s.level1 = PUSH_DOWN_LEVEL then
      (0, { button with button_status := BUTTON_FLIT, Denoi_tick := s.rt_tick.toUInt16 })
    else (0, button)
  else if button.button_status = BUTTON_FLIT then
    -- the pin is not read here
    if elapsed button.Denoi_tick short_tick s.rt_tick = true then
      (0, { button with button_status := BUTTON_TICK })
    else (0, button)
  else if button.button_status = BUTTON_TICK then
    if s.level1 = !PUSH_DOWN_LEVEL then
      if elapsed button.Denoi_tick long_tick s.rt_tick = true then
        (0, { button with button_status := BUTTON_LONG })
      else (BUTTON_SHORTPRESS, { button with button_status := BUTTON_IDLE })
    else (0, button)
  else if button.button_status = BUTTON_LONG then
    if s.level1 = !PUSH_DOWN_LEVEL then (0, { button with button_status := BUTTON_IDLE })
    else (0, button)
  else (0, button)

/-- The button after the first `n` scans. -/
def button_t.watched (button : button_t) (long_tick short_tick : UInt16) (scan : ℕ → ButtonScan) :
    ℕ → button_t
  | 0 => button
  | n + 1 => (button_scan_longshort long_tick short_tick (scan n)
      (button.watched long_tick short_tick scan n)).2

/-- What scan `n` returns. -/
def button_t.event (button : button_t) (long_tick short_tick : UInt16) (scan : ℕ → ButtonScan) (n : ℕ) :
    UInt8 :=
  (button_scan_longshort long_tick short_tick (scan n) (button.watched long_tick short_tick scan n)).1

/-- A press that goes down at tick `T`, is held for `d` ticks and is then released, scanned at every
    tick from `T` on. -/
def press (T d n : ℕ) : ButtonScan :=
  let level := if n < d then PUSH_DOWN_LEVEL else !PUSH_DOWN_LEVEL
  ⟨T + n, level, level⟩

/-! ## Steps -/

section

variable {long_tick short_tick : UInt16} {s : ButtonScan} {button : button_t}

/-- An idle button waits for a press. -/
theorem scan_idle (h : button.button_status = BUTTON_IDLE) :
    button_scan_longshort long_tick short_tick s button =
      if s.level1 = PUSH_DOWN_LEVEL then
        (0, { button with button_status := BUTTON_FLIT, Denoi_tick := s.rt_tick.toUInt16 })
      else (0, button) := by
  rw [button_scan_longshort, if_pos h]

/-- The debounce time. -/
theorem scan_flit (h : button.button_status = BUTTON_FLIT) :
    button_scan_longshort long_tick short_tick s button =
      if elapsed button.Denoi_tick short_tick s.rt_tick = true then
        (0, { button with button_status := BUTTON_TICK })
      else (0, button) := by
  rw [button_scan_longshort, if_neg (by rw [h]; decide), if_pos h]

/-- A release decides what the press was. -/
theorem scan_tick (h : button.button_status = BUTTON_TICK) :
    button_scan_longshort long_tick short_tick s button =
      if s.level1 = !PUSH_DOWN_LEVEL then
        if elapsed button.Denoi_tick long_tick s.rt_tick = true then
          (0, { button with button_status := BUTTON_LONG })
        else (BUTTON_SHORTPRESS, { button with button_status := BUTTON_IDLE })
      else (0, button) := by
  rw [button_scan_longshort, if_neg (by rw [h]; decide), if_neg (by rw [h]; decide), if_pos h]

/-- After a long press the button is idle again, with the next scan that reads a release. -/
theorem scan_long (h : button.button_status = BUTTON_LONG) :
    button_scan_longshort long_tick short_tick s button =
      if s.level1 = !PUSH_DOWN_LEVEL then (0, { button with button_status := BUTTON_IDLE })
      else (0, button) := by
  rw [button_scan_longshort, if_neg (by rw [h]; decide), if_neg (by rw [h]; decide),
    if_neg (by rw [h]; decide), if_pos h]

/-- The press is over: a scan that reads a release reports nothing and leaves the button idle. -/
theorem scan_over (h : button.button_status = BUTTON_LONG ∨ button.button_status = BUTTON_IDLE)
    (hup : s.level1 = !PUSH_DOWN_LEVEL) :
    (button_scan_longshort long_tick short_tick s button).1 = 0 ∧
      (button_scan_longshort long_tick short_tick s button).2.button_status = BUTTON_IDLE := by
  rcases h with hlong | hidle
  · rw [scan_long hlong, if_pos hup]
    exact ⟨rfl, rfl⟩
  · rw [scan_idle hidle, if_neg (by rw [hup]; decide)]
    exact ⟨rfl, hidle⟩

/-- **No scan** returns `BUTTON_LONGPRESS`, in whatever state the button is; the constant stands in
    no branch. -/
theorem scan_ne_longpress :
    (button_scan_longshort long_tick short_tick s button).1 ≠ BUTTON_LONGPRESS := by
  have hzero : (0 : UInt8) ≠ BUTTON_LONGPRESS := by decide
  have hshort : BUTTON_SHORTPRESS ≠ BUTTON_LONGPRESS := by decide
  rw [button_scan_longshort]
  split_ifs <;> first | exact hzero | exact hshort

end

/-! ## Phases -/

section

variable {button : button_t} {long_tick short_tick : UInt16} {T d n : ℕ}

@[simp] theorem press_rt_tick : (press T d n).rt_tick = UInt32.ofNat (T + n) := rfl

theorem press_down (h : n < d) : (press T d n).level1 = PUSH_DOWN_LEVEL := if_pos h

theorem press_up (h : d ≤ n) : (press T d n).level1 = !PUSH_DOWN_LEVEL := if_neg (Nat.not_lt.mpr h)

theorem press_not_up (h : n < d) : ¬ (press T d n).level1 = !PUSH_DOWN_LEVEL := by
  rw [press_down h]
  decide

/-- The scan that ends the debounce time of a press at tick `T`. -/
def flitScan (short_tick : UInt16) (T : ℕ) : ℕ :=
  if T % 2 ^ 32 < 65536 then max 1 short_tick.toNat else 1

/-- The scan that decides what the press was: the first one after the debounce time that reads the
    release. -/
def tickScan (short_tick : UInt16) (T d : ℕ) : ℕ := max d (flitScan short_tick T + 1)

theorem le_tickScan : d ≤ tickScan short_tick T d := le_max_left _ _

/-- The scan that decides finds the press long. -/
def FoundLong (long_tick short_tick : UInt16) (T d : ℕ) : Prop :=
  elapsed (UInt32.ofNat T).toUInt16 long_tick (UInt32.ofNat (T + tickScan short_tick T d)) = true

theorem flitScan_pos : 1 ≤ flitScan short_tick T := by
  rw [flitScan]
  split_ifs <;> omega

theorem flitScan_le : flitScan short_tick T ≤ 65535 := by
  have hshort : short_tick.toNat < 65536 := short_tick.toNat_lt
  rw [flitScan]
  split_ifs <;> omega

/-- The debounce time is over with scan `flitScan`, and not before. -/
theorem elapsed_flit (h1 : 1 ≤ n) (hn : n ≤ flitScan short_tick T) :
    elapsed (UInt32.ofNat T).toUInt16 short_tick (UInt32.ofNat (T + n)) = true ↔
      n = flitScan short_tick T := by
  have hle : flitScan short_tick T ≤ 65535 := flitScan_le
  rcases Nat.lt_or_ge (T % 2 ^ 32) 65536 with hearly | hlate
  · rw [elapsed_early hearly (by omega) (by omega)]
    rw [flitScan, if_pos hearly] at hn ⊢
    omega
  · rw [flitScan, if_neg (Nat.not_lt.mpr hlate)] at hn ⊢
    exact iff_of_true (elapsed_late hlate (by omega) (by omega)) (by omega)

instance : Decidable (FoundLong long_tick short_tick T d) := inferInstanceAs (Decidable (_ = true))

/-- **Found long**: a press at a counter of 2^16 or more, and one that lasts up to a scan `long_tick`
    or more ticks later. -/
theorem foundLong_iff (hspan : d < 65536) : FoundLong long_tick short_tick T d ↔
    65536 ≤ T % 2 ^ 32 ∨ long_tick.toNat ≤ max d (max 1 short_tick.toNat + 1) := by
  have hle : flitScan short_tick T ≤ 65535 := flitScan_le
  rw [FoundLong]
  rcases Nat.lt_or_ge (T % 2 ^ 32) 65536 with hearly | hlate
  · rw [elapsed_early hearly (by omega) (by rw [tickScan]; omega), tickScan, flitScan, if_pos hearly]
    omega
  · refine iff_of_true (elapsed_late hlate (by omega) ?_) (Or.inl hlate)
    rw [tickScan, flitScan, if_neg (Nat.not_lt.mpr hlate)]
    omega

/-- The press is under way: the button waits in state `status` and keeps the tick of the press, to
    16 bits, from which all times are measured. -/
structure Waits (T : ℕ) (status : UInt8) (button : button_t) : Prop where
  status : button.button_status = status
  stamp : button.Denoi_tick = (UInt32.ofNat T).toUInt16

/-- **Debounce time**, up to the scan that ends it: until then every scan finds too little time
    gone by, or has lost count of it. -/
theorem flit_until (hidle : button.button_status = BUTTON_IDLE) (hd : 0 < d) (h1 : 1 ≤ n) :
    n ≤ flitScan short_tick T →
      Waits T BUTTON_FLIT (button.watched long_tick short_tick (press T d) n) := by
  induction n, h1 using Nat.le_induction with
  | base =>
    intro _
    rw [button_t.watched, button_t.watched, scan_idle hidle, if_pos (press_down hd)]
    exact ⟨rfl, rfl⟩
  | succ n h1 ih =>
    intro hn
    obtain ⟨hstatus, hstamp⟩ := ih (by omega)
    have hnot : ¬ n = flitScan short_tick T := by omega
    rw [button_t.watched, scan_flit hstatus, hstamp, press_rt_tick,
      if_neg (mt (elapsed_flit h1 (by omega)).mp hnot)]
    exact ⟨hstatus, hstamp⟩

/-- **Wait for the release**, up to the scan that decides, which is the first one behind the
    debounce time that finds the button up. -/
theorem tick_until (hidle : button.button_status = BUTTON_IDLE) (hd : 0 < d)
    (h1 : flitScan short_tick T + 1 ≤ n) : n ≤ tickScan short_tick T d →
      Waits T BUTTON_TICK (button.watched long_tick short_tick (press T d) n) := by
  induction n, h1 using Nat.le_induction with
  | base =>
    intro _
    have hwait : Waits T BUTTON_FLIT
        (button.watched long_tick short_tick (press T d) (flitScan short_tick T)) :=
      flit_until hidle hd flitScan_pos le_rfl
    obtain ⟨hstatus, hstamp⟩ := hwait
    rw [button_t.watched, scan_flit hstatus, hstamp, press_rt_tick,
      if_pos ((elapsed_flit flitScan_pos le_rfl).mpr rfl)]
    exact ⟨rfl, rfl⟩
  | succ n h1 ih =>
    intro hn
    obtain ⟨hstatus, hstamp⟩ := ih (by omega)
    rw [tickScan] at hn
    rw [button_t.watched, scan_tick hstatus, if_neg (press_not_up (by omega))]
    exact ⟨hstatus, hstamp⟩

/-- **The scan that decides** reports a short press, or leaves the button to `BUTTON_LONG`, by the
    time that the stamp shows and not by the time that has passed. -/
theorem scan_decides (hidle : button.button_status = BUTTON_IDLE) (hd : 0 < d) :
    button.event long_tick short_tick (press T d) (tickScan short_tick T d) =
        (if FoundLong long_tick short_tick T d then 0 else BUTTON_SHORTPRESS) ∧
      (button.watched long_tick short_tick (press T d) (tickScan short_tick T d + 1)).button_status =
        if FoundLong long_tick short_tick T d then BUTTON_LONG else BUTTON_IDLE := by
  have hwait : Waits T BUTTON_TICK
      (button.watched long_tick short_tick (press T d) (tickScan short_tick T d)) :=
    tick_until hidle hd (le_max_right _ _) le_rfl
  obtain ⟨hstatus, hstamp⟩ := hwait
  rw [button_t.event, button_t.watched, scan_tick hstatus, if_pos (press_up le_tickScan), hstamp,
    press_rt_tick]
  by_cases hlong : FoundLong long_tick short_tick T d
  · rw [if_pos hlong, if_pos hlong]
    rw [FoundLong] at hlong
    rw [if_pos hlong]
    exact ⟨rfl, rfl⟩
  · rw [if_neg hlong, if_neg hlong]
    rw [FoundLong] at hlong
    rw [if_neg hlong]
    exact ⟨rfl, rfl⟩

/-- **Before** that scan nothing is reported, neither in the debounce time nor in the wait behind
    it. -/
theorem event_before (hidle : button.button_status = BUTTON_IDLE) (hd : 0 < d)
    (hn : n < tickScan short_tick T d) :
    button.event long_tick short_tick (press T d) n = 0 := by
  rw [button_t.event]
  rcases Nat.eq_zero_or_pos n with rfl | hpos
  · rw [button_t.watched, scan_idle hidle, if_pos (press_down hd)]
  rcases Nat.lt_or_ge (flitScan short_tick T) n with hflit | hflit
  · rw [scan_tick (tick_until hidle hd hflit hn.le).status]
    rw [tickScan] at hn
    rw [if_neg (press_not_up (by omega))]
  · rw [scan_flit (flit_until hidle hd hpos hflit).status]
    split_ifs <;> rfl

/-- **After** that scan the press is over: the button is idle, or in `BUTTON_LONG` on its way
    there. -/
theorem over_after (hidle : button.button_status = BUTTON_IDLE) (hd : 0 < d)
    (hn : tickScan short_tick T d + 1 ≤ n) :
    (button.watched long_tick short_tick (press T d) n).button_status = BUTTON_LONG ∨
      (button.watched long_tick short_tick (press T d) n).button_status = BUTTON_IDLE := by
  induction n, hn using Nat.le_induction with
  | base =>
    rw [(scan_decides hidle hd).2]
    split_ifs
    · exact Or.inl rfl
    · exact Or.inr rfl
  | succ n hn ih =>
    exact Or.inr (scan_over ih (press_up (le_tickScan.trans (Nat.le_of_succ_le hn)))).2

/-- **Events** — only the scan that decides can report the press, and only as a short one; a press
    that it finds long is not reported at all. -/
theorem event_eq (hidle : button.button_status = BUTTON_IDLE) (hd : 0 < d) (n : ℕ) :
    button.event long_tick short_tick (press T d) n =
      if n = tickScan short_tick T d ∧ ¬ FoundLong long_tick short_tick T d then BUTTON_SHORTPRESS
      else 0 := by
  rcases Nat.lt_trichotomy n (tickScan short_tick T d) with hbefore | rfl | hafter
  · rw [event_before hidle hd hbefore, if_neg fun hc => absurd hc.1 hbefore.ne]
  · rw [(scan_decides hidle hd).1]
    by_cases hlong : FoundLong long_tick short_tick T d
    · rw [if_pos hlong, if_neg fun hc => hc.2 hlong]
    · rw [if_neg hlong, if_pos ⟨rfl, hlong⟩]
  · have hup : d ≤ n := le_tickScan.trans hafter.le
    rw [button_t.event, (scan_over (over_after hidle hd hafter) (press_up hup)).1,
      if_neg fun hc => absurd hc.1 hafter.ne']

/-- **Idle** afterwards, at the second scan behind the one that decides at the latest. -/
theorem idle_after (hidle : button.button_status = BUTTON_IDLE) (hd : 0 < d)
    (hn : tickScan short_tick T d + 2 ≤ n) :
    (button.watched long_tick short_tick (press T d) n).button_status = BUTTON_IDLE := by
  obtain ⟨m, rfl⟩ : ∃ m, n = m + 1 := ⟨n - 1, by omega⟩
  have hm : tickScan short_tick T d + 1 ≤ m := by omega
  exact (scan_over (over_after hidle hd hm) (press_up (le_tickScan.trans (Nat.le_of_succ_le hm)))).2

end

/-! ## Classification -/

/-- **Classified**: the press is reported by exactly one scan, as what it is, and the button is idle
    afterwards. -/
structure Classified (button : button_t) (long_tick short_tick : UInt16) (T d : ℕ) : Prop where
  once : ∃! n, button.event long_tick short_tick (press T d) n ≠ 0
  short : short_tick.toNat ≤ d → d < long_tick.toNat →
    ∃ n, button.event long_tick short_tick (press T d) n = BUTTON_SHORTPRESS
  long : long_tick.toNat ≤ d →
    ∃ n, button.event long_tick short_tick (press T d) n = BUTTON_LONGPRESS
  idle : ∃ N, ∀ n, N ≤ n →
    (button.watched long_tick short_tick (press T d) n).button_status = BUTTON_IDLE

/-- A press is classified exactly where the scan that decides does not find it long. -/
theorem classified_iff {button : button_t} {long_tick short_tick : UInt16} {T d : ℕ}
    (hidle : button.button_status = BUTTON_IDLE) (hd : 0 < d) (hspan : d < 65536) :
    Classified button long_tick short_tick T d ↔ ¬ FoundLong long_tick short_tick T d := by
  constructor
  · rintro ⟨⟨n, hn, -⟩, -, -, -⟩ hlong
    exact hn (by rw [event_eq hidle hd, if_neg fun hc => hc.2 hlong])
  · intro hlong
    have hevent : button.event long_tick short_tick (press T d) (tickScan short_tick T d) =
        BUTTON_SHORTPRESS := by
      rw [event_eq hidle hd, if_pos ⟨rfl, hlong⟩]
    refine ⟨⟨tickScan short_tick T d, ?_, fun n hn => ?_⟩, fun _ _ => ⟨_, hevent⟩, fun hle => ?_,
      ⟨tickScan short_tick T d + 2, fun n hn => idle_after hidle hd hn⟩⟩
    · show button.event long_tick short_tick (press T d) (tickScan short_tick T d) ≠ 0
      rw [hevent]
      decide
    · by_contra hne
      exact hn (by rw [event_eq hidle hd, if_neg fun hc => hne hc.1])
    · rw [foundLong_iff hspan] at hlong
      omega

/-- **Press classification** — exactly for a press that goes down at a counter below 2^16, is shorter
    than `long_tick`, and where the scan after the debounce time comes before `long_tick`. -/
theorem button_scan_longshort_classified_iff (button : button_t) (long_tick short_tick : UInt16)
    (T d : ℕ) (hidle : button.button_status = BUTTON_IDLE) (hd : 0 < d) (hspan : d < 65536) :
    Classified button long_tick short_tick T d ↔
      T % 2 ^ 32 < 65536 ∧ d < long_tick.toNat ∧ max 1 short_tick.toNat + 1 < long_tick.toNat := by
  rw [classified_iff hidle hd hspan, foundLong_iff hspan]
  omega

/-- 100 ticks, with bounds of 20 and 500 ticks. -/
theorem button_scan_longshort_classified_hundred :
    Classified button_t.idle 500 20 0 100 ↔ 0 % 2 ^ 32 < 65536 ∧ 100 < (500 : UInt16).toNat ∧
      max 1 (20 : UInt16).toNat + 1 < (500 : UInt16).toNat :=
  button_scan_longshort_classified_iff button_t.idle 500 20 0 100 rfl (by decide) (by decide)

/-- A press of 1000 ticks is not reported as long. -/
theorem button_scan_longshort_silent :
    button_t.idle.button_status = BUTTON_IDLE ∧ ¬ Classified button_t.idle 500 20 0 1000 := by
  refine ⟨rfl, fun hclass => ?_⟩
  obtain ⟨n, hn⟩ := hclass.long (by decide)
  exact scan_ne_longpress hn

end Car2025
