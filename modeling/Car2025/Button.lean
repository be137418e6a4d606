/-
  `button.c`: a button that is scanned again and again.

  1. **Program** — a press locks the button, and a release later than the debounce time unlocks it.
     The tick of the press is kept in 16 bits and compared with the 32-bit counter.

  2. **Elapsed time (`elapsed_iff`)** — so the time since a press is right where the counter was below
     2^16 at the press, and at least 2^16 everywhere else.

  3. **Runs** — a locked button stays locked up to a release that is late enough, and a free one stays
     free up to a press.

  4. **Debounce (`button_scan_pushdown_debounced_iff`)** — presses keep their distance, unless the
     counter had passed 2^16 and the button bounced.

  The pins are named by the two buttons of the program; here the levels that a scan reads are inputs.
-/
import Mathlib

namespace Car2025

/-! ## Program -/

/-- `PUSH_DOWN_LEVEL`: a pressed button reads low. -/
def PUSH_DOWN_LEVEL : Bool := false

/-- `button_t`, without its pin. -/
structure button_t where
  Denoi_tick : UInt16
  lock_flag : UInt16
  button_status : UInt8
  deriving DecidableEq, Repr

/-- One scan: the ticks since power-on, and the two readings of the pin. -/
structure ButtonScan where
  time : ℕ
  level1 : Bool
  level2 : Bool

/-- `rt_tick_get` -/
def ButtonScan.rt_tick (s : ButtonScan) : UInt32 := UInt32.ofNat s.time

/-- `(rt_tick_get() - button->Denoi_tick) >= tick`, in 32 bits. -/
def elapsed (Denoi_tick tick : UInt16) (rt_tick : UInt32) : Bool :=
  decide (tick.toUInt32 ≤ rt_tick - Denoi_tick.toUInt32)

/-- `button_scan_pushdown` -/
def button_scan_pushdown (tick : UInt16) (s : ButtonScan) (button : button_t) : UInt8 × button_t :=
  if s.level1 = PUSH_DOWN_LEVEL ∧ button.lock_flag = 0 then
    (1, { button with lock_flag := 1, Denoi_tick := s.rt_tick.toUInt16 })
  else if s.level2 = !PUSH_DOWN_LEVEL ∧ button.lock_flag ≠ 0 ∧
      elapsed button.Denoi_tick tick s.rt_tick = true then
    (0, { button with lock_flag := 0 })
  else (0, button)

/-- The button after the first `n` scans. -/
def button_t.after (button : button_t) (tick : UInt16) (scan : ℕ → ButtonScan) : ℕ → button_t
  | 0 => button
  | n + 1 => (button_scan_pushdown tick (scan n) (button.after tick scan n)).2

/-- Scan `n` returns 1: it reports a press. -/
def Reports (button : button_t) (tick : UInt16) (scan : ℕ → ButtonScan) (n : ℕ) : Prop :=
  (button_scan_pushdown tick (scan n) (button.after tick scan n)).1 = 1

/-! ## Elapsed time -/

section

variable {tick : UInt16} {t t' : ℕ}

/-- **Early**: where the counter was below 2^16 at the press, the stamp is the counter, and the
    difference is the time that passed. -/
theorem elapsed_early (ht : t % 2 ^ 32 < 65536) (hle : t ≤ t') (hspan : t' ≤ t + 65536) :
    elapsed (UInt32.ofNat t).toUInt16 tick (UInt32.ofNat t') = true ↔ t + tick.toNat ≤ t' := by
  rw [elapsed, decide_eq_true_iff, UInt32.le_iff_toNat_le, UInt32.toNat_sub, UInt16.toNat_toUInt32,
    UInt16.toNat_toUInt32, UInt32.toNat_toUInt16, UInt32.toNat_ofNat', UInt32.toNat_ofNat']
  omega

/-- **Late**: everywhere else the stamp has lost 2^16 ticks or more, so the difference is beyond
    any debounce time that 16 bits can hold. -/
theorem elapsed_late (ht : 65536 ≤ t % 2 ^ 32) (hle : t ≤ t') (hspan : t' < t + 65536) :
    elapsed (UInt32.ofNat t).toUInt16 tick (UInt32.ofNat t') = true := by
  have htick : tick.toNat < 65536 := tick.toNat_lt
  rw [elapsed, decide_eq_true_iff, UInt32.le_iff_toNat_le, UInt32.toNat_sub, UInt16.toNat_toUInt32,
    UInt16.toNat_toUInt32, UInt32.toNat_toUInt16, UInt32.toNat_ofNat', UInt32.toNat_ofNat']
  omega

/-- **Elapsed time**, within 2^16 ticks of the press: the debounce time is over, or the counter was
    beyond 16 bits at the press. -/
theorem elapsed_iff (hle : t ≤ t') (hspan : t' < t + 65536) :
    elapsed (UInt32.ofNat t).toUInt16 tick (UInt32.ofNat t') = true ↔
      65536 ≤ t % 2 ^ 32 ∨ t + tick.toNat ≤ t' := by
  rcases Nat.lt_or_ge (t % 2 ^ 32) 65536 with hearly | hlate
  · rw [elapsed_early hearly hle hspan.le, or_iff_right (Nat.not_le_of_lt hearly)]
  · exact iff_of_true (elapsed_late hlate hle hspan) (Or.inl hlate)

end

/-! ## Runs -/

section

variable {button : button_t} {tick : UInt16} {scan : ℕ → ButtonScan} {s : ButtonScan} {i n : ℕ}

/-- A free button is locked by a press, and else left alone. -/
theorem scan_free (h : button.lock_flag = 0) :
    button_scan_pushdown tick s button =
      if s.level1 = PUSH_DOWN_LEVEL then
        (1, { button with lock_flag := 1, Denoi_tick := s.rt_tick.toUInt16 })
      else (0, button) := by
  rw [button_scan_pushdown]
  by_cases hdown : s.level1 = PUSH_DOWN_LEVEL
  · rw [if_pos ⟨hdown, h⟩, if_pos hdown]
  · rw [if_neg fun hc => hdown hc.1, if_neg fun hc => hc.2.1 h, if_neg hdown]

/-- A locked button is freed by a release that is late enough. -/
theorem scan_locked (h : button.lock_flag ≠ 0) :
    button_scan_pushdown tick s button =
      if s.level2 = !PUSH_DOWN_LEVEL ∧ elapsed button.Denoi_tick tick s.rt_tick = true then
        (0, { button with lock_flag := 0 })
      else (0, button) := by
  rw [button_scan_pushdown, if_neg fun hc => h hc.2]
  by_cases hup : s.level2 = !PUSH_DOWN_LEVEL ∧ elapsed button.Denoi_tick tick s.rt_tick = true
  · rw [if_pos ⟨hup.1, h, hup.2⟩, if_pos hup]
  · rw [if_neg fun hc => hup ⟨hc.1, hc.2.2⟩, if_neg hup]

/-- **A report** is a press of a free button; the level that a scan reads first decides it. -/
theorem reports_iff : Reports button tick scan n ↔
    (scan n).level1 = PUSH_DOWN_LEVEL ∧ (button.after tick scan n).lock_flag = 0 := by
  have hzero : ¬ (0 : UInt8) = 1 := by decide
  rw [Reports]
  by_cases h : (button.after tick scan n).lock_flag = 0
  · rw [scan_free h]
    by_cases hdown : (scan n).level1 = PUSH_DOWN_LEVEL
    · rw [if_pos hdown]
      exact iff_of_true rfl ⟨hdown, h⟩
    · rw [if_neg hdown]
      exact iff_of_false hzero fun hc => hdown hc.1
  · rw [scan_locked h]
    refine iff_of_false ?_ fun hc => h hc.2
    split <;> exact hzero

/-- The button is locked, by a press at scan `i`, and its stamp is the low half of the counter
    there. -/
structure Locked (scan : ℕ → ButtonScan) (i : ℕ) (button : button_t) : Prop where
  lock : button.lock_flag ≠ 0
  stamp : button.Denoi_tick = (scan i).rt_tick.toUInt16

theorem locked_of_reports (h : Reports button tick scan i) :
    Locked scan i (button.after tick scan (i + 1)) := by
  obtain ⟨hdown, hfree⟩ := reports_iff.mp h
  rw [button_t.after, scan_free hfree, if_pos hdown]
  exact ⟨by show (1 : UInt16) ≠ 0; decide, rfl⟩

/-- A release that frees the button that scan `i` has locked. -/
def Frees (tick : UInt16) (scan : ℕ → ButtonScan) (i j : ℕ) : Prop :=
  (scan j).level2 = !PUSH_DOWN_LEVEL ∧
    elapsed (scan i).rt_tick.toUInt16 tick (scan j).rt_tick = true

/-- **Locked** up to a release that is late enough: a press changes nothing while the button is
    locked, and a release that is too early does not either. -/
theorem locked_until (h : Reports button tick scan i) :
    ∀ n, i < n → (∀ j, i < j → j < n → ¬ Frees tick scan i j) →
      Locked scan i (button.after tick scan n) := by
  intro n
  induction n with
  | zero => exact fun hi => absurd hi (Nat.not_lt_zero i)
  | succ n ih =>
    intro hi hnone
    rcases Nat.lt_succ_iff_lt_or_eq.mp hi with hlt | rfl
    · obtain ⟨hlock, hstamp⟩ := ih hlt fun j h1 h2 => hnone j h1 (by omega)
      have hnot := hnone n hlt (Nat.lt_succ_self n)
      rw [Frees, ← hstamp] at hnot
      rw [button_t.after, scan_locked hlock, if_neg hnot]
      exact ⟨hlock, hstamp⟩
    · exact locked_of_reports h

/-- **Between two presses** that are reported the button was freed, as it was locked after the
    first and free at the second. -/
theorem exists_frees {k : ℕ} (hi : Reports button tick scan i) (hk : Reports button tick scan k)
    (hik : i < k) : ∃ j, i < j ∧ j < k ∧ Frees tick scan i j := by
  by_contra hnone
  rw [not_exists] at hnone
  have hlocked := locked_until hi k hik fun j h1 h2 h3 => hnone j ⟨h1, h2, h3⟩
  exact hlocked.lock (reports_iff.mp hk).2

/-- **Free** up to a press: only a report locks the button. -/
theorem free_until {j : ℕ} (h : (button.after tick scan j).lock_flag = 0) :
    ∀ n, j ≤ n → (∀ m, j ≤ m → m < n → (scan m).level1 ≠ PUSH_DOWN_LEVEL) →
      (button.after tick scan n).lock_flag = 0 := by
  intro n
  induction n with
  | zero =>
    intro hj _
    obtain rfl : j = 0 := Nat.le_zero.mp hj
    exact h
  | succ n ih =>
    intro hj hup
    rcases Nat.le_succ_iff.mp hj with hle | rfl
    · have hfree := ih hle fun m h1 h2 => hup m h1 (by omega)
      rw [button_t.after, scan_free hfree, if_neg (hup n hle (Nat.lt_succ_self n))]
      exact hfree
    · exact h

/-- **A release that frees the button**, and a press after it: one that is reported comes no later.
    The least press behind the release that frees first is the one. -/
theorem exists_reports {j k : ℕ} (hi : Reports button tick scan i) (hij : i < j) (hjk : j < k)
    (hfrees : ∀ j, i < j → (scan j).level2 = !PUSH_DOWN_LEVEL → j < k → Frees tick scan i j)
    (hup : (scan j).level2 = !PUSH_DOWN_LEVEL) (hdown : (scan k).level1 = PUSH_DOWN_LEVEL) :
    ∃ k' ≤ k, i < k' ∧ Reports button tick scan k' ∧
      ∀ m, i < m → m < k' → ¬ Reports button tick scan m := by
  have hexup : ∃ j, i < j ∧ (scan j).level2 = !PUSH_DOWN_LEVEL := ⟨j, hij, hup⟩
  -- the first release frees the button, and the first press after it is reported
  obtain ⟨hfirst, hfirstup⟩ := Nat.find_spec hexup
  have hbefore : ∀ m, i < m → m < Nat.find hexup → (scan m).level2 ≠ !PUSH_DOWN_LEVEL :=
    fun m h1 h2 h3 => Nat.find_min hexup h2 ⟨h1, h3⟩
  have hle : Nat.find hexup ≤ j := Nat.find_le ⟨hij, hup⟩
  generalize Nat.find hexup = j0 at hfirst hfirstup hbefore hle
  have hlocked : ∀ m, i < m → m ≤ j0 → Locked scan i (button.after tick scan m) := fun m h1 h2 =>
    locked_until hi m h1 fun j h3 h4 hc => hbefore j h3 (by omega) hc.1
  have hfree : (button.after tick scan (j0 + 1)).lock_flag = 0 := by
    obtain ⟨hlock, hstamp⟩ := hlocked j0 hfirst (le_refl j0)
    have hnow := hfrees j0 hfirst hfirstup (by omega)
    rw [Frees, ← hstamp] at hnow
    rw [button_t.after, scan_locked hlock, if_pos hnow]
  have hexdown : ∃ k, j0 < k ∧ (scan k).level1 = PUSH_DOWN_LEVEL := ⟨k, by omega, hdown⟩
  obtain ⟨hlater, hpress⟩ := Nat.find_spec hexdown
  have hquiet : ∀ m, j0 < m → m < Nat.find hexdown → (scan m).level1 ≠ PUSH_DOWN_LEVEL :=
    fun m h1 h2 h3 => Nat.find_min hexdown h2 ⟨h1, h3⟩
  have hle' : Nat.find hexdown ≤ k := Nat.find_le ⟨by omega, hdown⟩
  generalize Nat.find hexdown = k0 at hlater hpress hquiet hle'
  refine ⟨k0, hle', by omega, reports_iff.mpr ⟨hpress, ?_⟩, fun m h1 h2 hc => ?_⟩
  · exact free_until hfree k0 hlater fun m h1 h2 => hquiet m h1 h2
  · rcases Nat.lt_or_ge j0 m with h3 | h3
    · exact hquiet m h3 h2 (reports_iff.mp hc).1
    · exact (hlocked m h1 h3).lock (reports_iff.mp hc).2

end

/-! ## Debounce -/

/-- **Debounced**: two presses that are reported one after the other are at least `tick` ticks apart. -/
def Debounced (button : button_t) (tick : UInt16) (scan : ℕ → ButtonScan) (N : ℕ) : Prop :=
  ∀ i k, i < k → k < N → Reports button tick scan i → Reports button tick scan k →
    (∀ j, i < j → j < k → ¬ Reports button tick scan j) →
      (scan i).time + tick.toNat ≤ (scan k).time

/-- **Bounces** after a press at scan `i`: a release, and a press before the debounce time is over. -/
def Bounces (tick : UInt16) (scan : ℕ → ButtonScan) (N i : ℕ) : Prop :=
  ∃ j k, i < j ∧ j < k ∧ k < N ∧ (scan j).level2 = !PUSH_DOWN_LEVEL ∧
    (scan k).level1 = PUSH_DOWN_LEVEL ∧ (scan k).time < (scan i).time + tick.toNat

/-- **Debounce** — of `N` scans within 2^16 ticks, exactly where the button does not bounce after a press
    of the free button at a counter of 2^16 or more. -/
theorem button_scan_pushdown_debounced_iff (button : button_t) (tick : UInt16) (scan : ℕ → ButtonScan)
    (N : ℕ) (horder : ∀ i j, i ≤ j → j < N → (scan i).time ≤ (scan j).time)
    (hspan : ∀ i j, i ≤ j → j < N → (scan j).time < (scan i).time + 65536) :
    Debounced button tick scan N ↔ ∀ i, (scan i).level1 = PUSH_DOWN_LEVEL →
      (button.after tick scan i).lock_flag = 0 → 65536 ≤ (scan i).time % 2 ^ 32 →
        ¬ Bounces tick scan N i := by
  have helapsed : ∀ i j, i ≤ j → j < N →
      (elapsed (scan i).rt_tick.toUInt16 tick (scan j).rt_tick = true ↔
        65536 ≤ (scan i).time % 2 ^ 32 ∨ (scan i).time + tick.toNat ≤ (scan j).time) :=
    fun i j hij hj => elapsed_iff (horder i j hij hj) (hspan i j hij hj)
  constructor
  · rintro hdeb i hdown hfree hlate ⟨j, k, hij, hjk, hk, hup, hdown', hsoon⟩
    have hi : Reports button tick scan i := reports_iff.mpr ⟨hdown, hfree⟩
    obtain ⟨k', hk', hik', hreports, hnone⟩ := exists_reports hi hij hjk
      (fun m h1 h2 h3 => ⟨h2, (helapsed i m h1.le (by omega)).mpr (Or.inl hlate)⟩) hup hdown'
    have hapart := hdeb i k' hik' (by omega) hi hreports hnone
    have hlater := horder k' k hk' hk
    omega
  · intro hcond i k hik hk hi hreports _
    obtain ⟨j, hij, hjk, hup, hfrees⟩ := exists_frees hi hreports hik
    by_contra hsoon
    rcases (helapsed i j hij.le (by omega)).mp hfrees with hlate | hapart
    · obtain ⟨hdown, hfree⟩ := reports_iff.mp hi
      exact hcond i hdown hfree hlate
        ⟨j, k, hij, hjk, hk, hup, (reports_iff.mp hreports).1, not_le.mp hsoon⟩
    · have hlater := horder j k hjk.le hk
      omega

/-- A button that was never pressed. -/
def button_t.idle : button_t := ⟨0, 0, 0⟩

/-- A press, a release and a press, one tick after the other. -/
def bounce (start n : ℕ) : ButtonScan := ⟨start + n, n % 2 = 1, n % 2 = 1⟩

/-- At power-on they are debounced as the theorem says. -/
theorem button_scan_pushdown_debounced_start :
    Debounced button_t.idle 20 (bounce 0) 3 ↔ ∀ i, (bounce 0 i).level1 = PUSH_DOWN_LEVEL →
      (button_t.idle.after 20 (bounce 0) i).lock_flag = 0 → 65536 ≤ (bounce 0 i).time % 2 ^ 32 →
        ¬ Bounces 20 (bounce 0) 3 i :=
  button_scan_pushdown_debounced_iff button_t.idle 20 (bounce 0) 3
    (fun i j hij _ => by show 0 + i ≤ 0 + j; omega)
    (fun i j _ hj => by show 0 + j < 0 + i + 65536; omega)

/-- From tick 65536 on both presses are reported. -/
theorem button_scan_pushdown_bounce :
    (∀ i j, i ≤ j → j < 3 → (bounce 65536 i).time ≤ (bounce 65536 j).time) ∧
      (∀ i j, i ≤ j → j < 3 → (bounce 65536 j).time < (bounce 65536 i).time + 65536) ∧
      ¬ Debounced button_t.idle 20 (bounce 65536) 3 := by
  refine ⟨fun i j hij _ => ?_, fun i j _ hj => ?_, fun hdeb => ?_⟩
  · show 65536 + i ≤ 65536 + j
    omega
  · show 65536 + j < 65536 + i + 65536
    omega
  · have hapart : 65536 + 0 + (20 : UInt16).toNat ≤ 65536 + 2 := by
      apply hdeb 0 2 (by decide) (by decide)
      · show (button_scan_pushdown 20 (bounce 65536 0) _).1 = 1
        decide +kernel
      · show (button_scan_pushdown 20 (bounce 65536 2) _).1 = 1
        decide +kernel
      · intro j h1 h2
        obtain rfl : j = 1 := by omega
        show ¬ (button_scan_pushdown 20 (bounce 65536 1) _).1 = 1
        decide +kernel
    exact absurd hapart (by decide)

end Car2025
