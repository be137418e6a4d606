/-
  The zebra crossing: how `Vision_IsZebra` sees it and when `Vision_ZebraHandle` ends the run there.

  1. **Crossings of row 60** — two loops run outwards from the middle column, and both of them count
     the pair at the middle.  `Vision_IsZebra_iff`: that matters for nine crossings.

  2. **Starts** — the car is started by its first zebra crossing or from the shell.  Only the crossing
     records the tick of the start (`Zebra_tick`), which `CarStart` leaves at 0.

  3. **Finish (`Vision_ZebraHandle_late_iff`)** — so the run ends no earlier than 5000 ticks after the
     start, unless it was started from the shell.
-/
import Mathlib
import Car2025.Lib.Runs
import Car2025.Lib.Outcome
import Car2025.Lib.Count
import Car2025.Vision.FindMyLine
import Car2025.Vision.RSHandle

namespace Car2025

open Finset Runs Count

/-! ## Crossings of row 60 -/

/-- `Zebra_Y`, `Zebra_TH` and `Zebra_Range` -/
def Zebra_Y : ℤ := 60
def Zebra_TH : ℤ := 10
def Zebra_Range : ℤ := 8

/-- The columns `i` and `i + 1` lie on two sides of the threshold, and not close to it. -/
def zebra_cross (Threshold : ℤ) (row : ℤ → ℤ) (i : ℤ) : Bool :=
  decide (row i > Threshold + Zebra_Range) && decide (row (i + 1) < Threshold - Zebra_Range) ||
    decide (row i < Threshold - Zebra_Range) && decide (row (i + 1) > Threshold + Zebra_Range)

/-- `for(;i<bound;i++) if(cross) change_num++;` with `bound - i` passes left. -/
def zebra_up (cross : ℤ → Bool) : ℕ → ℤ → ℤ → ℤ
  | 0, _, change_num => change_num
  | n + 1, i, change_num =>
    zebra_up cross n (i + 1) (if cross i then change_num + 1 else change_num)

/-- `for(;i>bound;i--) if(cross) change_num++;` with `i - bound` passes left. -/
def zebra_down (cross : ℤ → Bool) : ℕ → ℤ → ℤ → ℤ
  | 0, _, change_num => change_num
  | n + 1, i, change_num =>
    zebra_down cross n (i - 1) (if cross i then change_num + 1 else change_num)

/-- `Vision_IsZebra` -/
def Vision_IsZebra (Threshold : ℤ) (my_image : ℤ → ℤ) : UInt8 :=
  let mid := imgCol.tdiv 2
  let cross := zebra_cross Threshold (pixel my_image Zebra_Y)
  let change_num := zebra_up cross (188 - 30 - mid).toNat mid 0
  let change_num := zebra_down cross (mid - 30).toNat mid change_num
  if change_num ≥ Zebra_TH then 1 else 0

section

variable {cross : ℤ → Bool}

theorem zebra_up_eq : ∀ (n : ℕ) (i change_num : ℤ), zebra_up cross n i change_num =
    change_num + #{k ∈ Ico i (i + n) | cross k = true}
  | 0, i, change_num => by simp [zebra_up]
  | n + 1, i, change_num => by
    rw [zebra_up, zebra_up_eq n, Ico_eq_insert, card_filter_insert (by simp)]
    split <;> omega

theorem zebra_down_eq : ∀ (n : ℕ) (i change_num : ℤ), zebra_down cross n i change_num =
    change_num + #{k ∈ Ioc (i - n) i | cross k = true}
  | 0, i, change_num => by simp [zebra_down]
  | n + 1, i, change_num => by
    rw [zebra_down, zebra_down_eq n, Ioc_eq_insert, card_filter_insert (by simp)]
    split <;> omega

/-- **Both loops together** count every pair from 31 to 157, and the pair at 94 a second time, as
    each of them begins there. -/
theorem zebra_loops_eq : zebra_down cross 64 94 (zebra_up cross 64 94 0) =
    #{i ∈ Icc (31 : ℤ) 157 | cross i = true} + (if cross 94 = true then 1 else 0) := by
  have hup : Ico (94 : ℤ) (94 + (64 : ℕ)) = insert 94 (Icc 95 157) := by
    ext k
    simp only [mem_Ico, mem_insert, mem_Icc]
    omega
  have hall : Icc (31 : ℤ) 157 = Ioc (94 - ((64 : ℕ) : ℤ)) 94 ∪ Icc 95 157 := by
    ext k
    simp only [mem_union, mem_Ioc, mem_Icc]
    omega
  have hapart : Disjoint {k ∈ Ioc (94 - ((64 : ℕ) : ℤ)) 94 | cross k = true}
      {k ∈ Icc (95 : ℤ) 157 | cross k = true} := by
    apply disjoint_filter_filter
    rw [disjoint_left]
    intro k hk hk'
    rw [mem_Ioc] at hk
    rw [mem_Icc] at hk'
    omega
  rw [zebra_down_eq, zebra_up_eq, hup, card_filter_insert (by simp), hall, filter_union,
    card_union_of_disjoint hapart]
  push_cast
  split <;> omega

end

/-- **Verdict** — the verdict is that of the crossings with each pair of columns counted once, except
    where nine pairs cross and the middle one is among them. -/
theorem Vision_IsZebra_iff (Threshold : ℤ) (my_image : ℤ → ℤ) :
    (Vision_IsZebra Threshold my_image = 1 ↔
        10 ≤ #{i ∈ Icc 31 157 | zebra_cross Threshold (pixel my_image Zebra_Y) i = true}) ↔
      ¬ (zebra_cross Threshold (pixel my_image Zebra_Y) 94 = true ∧
        #{i ∈ Icc 31 157 | zebra_cross Threshold (pixel my_image Zebra_Y) i = true} = 9) := by
  have hverdict : Vision_IsZebra Threshold my_image = 1 ↔
      zebra_down (zebra_cross Threshold (pixel my_image Zebra_Y)) 64 94
        (zebra_up (zebra_cross Threshold (pixel my_image Zebra_Y)) 64 94 0) ≥ Zebra_TH := by
    show (if _ then (1 : UInt8) else 0) = 1 ↔ _
    split
    · exact iff_of_true rfl ‹_›
    · exact iff_of_false (by decide) ‹_›
  rw [hverdict, zebra_loops_eq, Zebra_TH]
  by_cases hmid : zebra_cross Threshold (pixel my_image Zebra_Y) 94 = true
  · rw [if_pos hmid]
    constructor
    · rintro hiff ⟨-, hnine⟩
      omega
    · intro hnine
      have hne : #{i ∈ Icc 31 157 | zebra_cross Threshold (pixel my_image Zebra_Y) i = true} ≠ 9 :=
        fun h => hnine ⟨hmid, h⟩
      omega
  · rw [if_neg hmid]
    constructor
    · intro _ h
      exact hmid h.1
    · intro _
      omega

/-- A row with nine edges, eight of them left of the middle and the ninth at the middle. -/
def nine_edges (k : ℤ) : ℤ :=
  let j := k - Zebra_Y * imgCol
  if j < 40 then 0 else if j < 48 then 255 * (j % 2) else if j ≤ 94 then 0 else 255

/-- Nine crossings are taken for ten. -/
theorem Vision_IsZebra_nine_edges :
    ¬ (Vision_IsZebra 100 nine_edges = 1 ↔
      10 ≤ #{i ∈ Icc 31 157 | zebra_cross 100 (pixel nine_edges Zebra_Y) i = true}) := by
  decide +kernel

/-! ## Starts -/

section

variable {R : Type}

/-- `CarStart`, the shell command. -/
def CarStart (s : Vision R) : Vision R := { s with Start_Flag := true }

variable (R) in
/-- What may start the car or end its run: a frame on a zebra crossing, or the shell command. -/
inductive Start where
  | zebra (inp : Inputs R)
  | shell

variable (R) in
/-- An event, and the ticks since the event before it. -/
structure Event where
  wait : ℕ
  start : Start R

variable (R) in
/-- The ticks since power-on, and the state of the vision code. -/
structure Clocked where
  now : ℕ
  vision : Vision R

/-- One event.  `rt_tick_get` returns the clock modulo 2^32. -/
def Clocked.step (x : Clocked R) (e : Event R) : Except Stop (Clocked R) := do
  let now := x.now + e.wait
  let s ← match e.start with
    | .zebra inp => Vision_ZebraHandle { inp with rt_tick := (now : ℤ) % 2 ^ 32 } x.vision
    | .shell => pure (CarStart x.vision)
  pure ⟨now, s⟩

/-- The time of the last event. -/
def clock (es : List (Event R)) : ℕ := (es.map Event.wait).sum

theorem clock_append (es es' : List (Event R)) : clock (es ++ es') = clock es + clock es' := by
  rw [clock, List.map_append, List.sum_append, clock, clock]

theorem clock_le_of_prefix {es es' : List (Event R)} (h : es <+: es') : clock es ≤ clock es' := by
  obtain ⟨later, rfl⟩ := h
  rw [clock_append]
  exact Nat.le_add_right _ _

/-- The tick that the event which starts the car records. -/
def Event.recorded (e : Event R) : ℤ :=
  match e.start with
  | .zebra _ => (e.wait : ℤ) % 2 ^ 32
  | .shell => 0

/-- A zebra crossing at this event ends a run that began with `start`. -/
def Ending (start : Event R) (now : ℕ) : Prop := ((now : ℤ) % 2 ^ 32 - start.recorded) % 2 ^ 32 > 5000

/-- What the first event leaves, at any later event: the car has started, and the tick is the one
    of the crossing that started it, or 0. -/
structure Started (start : Event R) (x : Clocked R) : Prop where
  flag : x.vision.Start_Flag = true
  tick : x.vision.Zebra_tick = start.recorded

/-- **A later event** keeps that, or it is a zebra crossing that ends the run.  A crossing that
    comes too early does nothing, and the tick is not recorded again. -/
theorem step_started {start : Event R} {x : Clocked R} (hx : Started start x) (e : Event R) :
    (∃ inp, e.start = .zebra inp ∧ Ending start (x.now + e.wait) ∧
        x.step e = .error .finished) ∨
      (¬ (∃ inp, e.start = .zebra inp ∧ Ending start (x.now + e.wait)) ∧
        ∃ y, x.step e = .ok y ∧ y.now = x.now + e.wait ∧ Started start y) := by
  obtain ⟨wait, act⟩ := e
  cases act with
  | shell =>
    right
    refine ⟨fun ⟨_, h, _⟩ => ?_, _, rfl, rfl, rfl, hx.tick⟩
    cases h
  | zebra inp =>
    by_cases hend : Ending start (x.now + wait)
    · left
      refine ⟨inp, rfl, hend, ?_⟩
      rw [Ending, ← hx.tick] at hend
      simp only [Clocked.step, Vision_ZebraHandle]
      rw [if_pos ⟨hx.flag, hend⟩]
      rfl
    · right
      refine ⟨fun ⟨_, _, h⟩ => hend h, ⟨x.now + wait, { x.vision with Current_Road := .NormalRoads }⟩,
        ?_, rfl, hx.flag, hx.tick⟩
      rw [Ending, ← hx.tick] at hend
      simp only [Clocked.step, Vision_ZebraHandle]
      rw [if_neg fun h => hend h.2, if_neg (by rw [hx.flag]; decide)]
      rfl

/-- **A start by a crossing** is recorded: the run ends late, by the time since that crossing. -/
theorem ending_zebra {start : Event R} {inp : Inputs R} (h : start.start = .zebra inp) {now : ℕ}
    (hle : start.wait ≤ now) (hend : Ending start now) : start.wait + 5000 < now := by
  rw [Ending, Event.recorded, h] at hend
  dsimp only at hend
  omega

theorem ending_shell {start : Event R} (h : start.start = .shell) {now : ℕ} :
    Ending start now ↔ 5000 < now % 2 ^ 32 := by
  rw [Ending, Event.recorded, h]
  dsimp only
  omega

/-! ## Finish -/

variable [CFloat R]

/-- A run from power-on. -/
def Clocked.run (I : Image) (es : List (Event R)) : Except Stop (Clocked R) :=
  es.foldlM Clocked.step ⟨0, Vision.start I⟩

/-- `Start_Flag` went from 0 to 1 at time `t`. -/
def StartedAt (I : Image) (es : List (Event R)) (t : ℕ) : Prop :=
  ∃ pre e x y, pre ++ [e] <+: es ∧ Clocked.run I pre = .ok x ∧ x.vision.Start_Flag = false ∧
    x.step e = .ok y ∧ y.vision.Start_Flag = true ∧ y.now = t

/-- **Late finish**: an event that takes the finishing branch comes more than 5000 ticks after the
    start. -/
def FinishesLate (I : Image) (es : List (Event R)) : Prop :=
  EachStep (fun pre e => ∀ x, Clocked.run I pre = .ok x → x.step e = .error .finished →
    ∃ t, StartedAt I pre t ∧ t + 5000 < clock (pre ++ [e])) es

/-- A start from the shell, and a zebra crossing within 5000 ticks that ends the run. -/
def EndsEarly (pre : List (Event R)) (e : Event R) : Prop :=
  ∃ start inp, pre.head? = some start ∧ start.start = .shell ∧ e.start = .zebra inp ∧
    clock (pre ++ [e]) ≤ start.wait + 5000 ∧ 5000 < clock (pre ++ [e]) % 2 ^ 32

variable {I : Image}

theorem run_concat (es : List (Event R)) (e : Event R) :
    Clocked.run I (es ++ [e]) = Clocked.run I es >>= fun x => x.step e :=
  Outcome.foldlM_concat es e _

/-- **The first event** starts the car, be it the shell or a crossing; only a crossing records the
    tick. -/
theorem step_first (I : Image) (e : Event R) :
    ∃ y, Clocked.step ⟨0, Vision.start I⟩ e = .ok y ∧ y.now = e.wait ∧ Started e y := by
  obtain ⟨wait, act⟩ := e
  cases act with
  | zebra inp => exact ⟨_, rfl, Nat.zero_add wait, rfl, by simp [Event.recorded]⟩
  | shell => exact ⟨_, rfl, Nat.zero_add wait, rfl, rfl⟩

/-- **Invariant** of a run, by induction from its end: the clock has added up the waits, and the
    start is as it was left. -/
theorem run_started {start : Event R} {es : List (Event R)} : ∀ {x : Clocked R},
    Clocked.run I (start :: es) = .ok x → x.now = clock (start :: es) ∧ Started start x := by
  induction es using List.reverseRecOn with
  | nil =>
    intro x hx
    obtain ⟨y, hy, hnow, hstarted⟩ := step_first I start
    rw [← List.nil_append [start], run_concat] at hx
    obtain rfl : y = x := Except.ok.inj (hy.symm.trans hx)
    exact ⟨by simp [hnow, clock], hstarted⟩
  | append_singleton es e ih =>
    intro x hx
    rw [← List.cons_append, run_concat] at hx
    obtain ⟨x0, hx0, hstep⟩ := Outcome.exists_of_bind hx
    obtain ⟨hnow, hstarted⟩ := ih hx0
    rcases step_started hstarted e with ⟨_, _, _, herr⟩ | ⟨_, y, hy, hynow, hy'⟩
    · rw [herr] at hstep
      cases hstep
    · obtain rfl : y = x := Except.ok.inj (hy.symm.trans hstep)
      rw [← List.cons_append, clock_append, hynow, hnow]
      exact ⟨by simp [clock], hy'⟩

/-- The car is started by the first event, and only by it. -/
theorem startedAt_iff {start : Event R} {es : List (Event R)} {t : ℕ} :
    StartedAt I (start :: es) t ↔ t = start.wait := by
  constructor
  · rintro ⟨pre, e, x, y, hpre, hx, hflag, hstep, -, rfl⟩
    cases pre with
    | nil =>
      obtain rfl : e = start := (List.cons_prefix_cons.mp hpre).1
      obtain rfl : _ = x := Except.ok.inj hx
      obtain ⟨y', hy', hnow, -⟩ := step_first I e
      obtain rfl : y' = y := Except.ok.inj (hy'.symm.trans hstep)
      exact hnow
    | cons first pre =>
      rw [(run_started hx).2.flag] at hflag
      cases hflag
  · rintro rfl
    obtain ⟨y, hy, hnow, hstarted⟩ := step_first I start
    exact ⟨[], start, _, y, by simp, rfl, rfl, hy, hstarted.flag, hnow⟩

/-- **The finishing branch**, after any run: only a zebra crossing can take it, and the invariant
    says which tick it is compared with. -/
theorem finishes_iff {start : Event R} {later : List (Event R)} {x : Clocked R}
    (hx : Clocked.run I (start :: later) = .ok x) (e : Event R) :
    x.step e = .error .finished ↔
      ∃ inp, e.start = .zebra inp ∧ Ending start (clock (start :: later ++ [e])) := by
  obtain ⟨hnow, hstarted⟩ := run_started hx
  have htime : clock (start :: later ++ [e]) = x.now + e.wait := by
    rw [clock_append, hnow]
    simp [clock]
  rw [htime]
  rcases step_started hstarted e with ⟨inp, hzebra, hend, herr⟩ | ⟨hnot, y, hy, -⟩
  · exact iff_of_true herr ⟨inp, hzebra, hend⟩
  · refine iff_of_false (fun herr => ?_) hnot
    cases hy.symm.trans herr

/-- A run that stops has finished at one of its events, after the first. -/
theorem exists_finish {start : Event R} {later : List (Event R)} {err : Stop}
    (h : Clocked.run I (start :: later) = .error err) :
    ∃ later' e x, start :: later' ++ [e] <+: start :: later ∧
      Clocked.run I (start :: later') = .ok x ∧ x.step e = .error .finished := by
  obtain ⟨pre, e, x, hpre, hx, herr⟩ := Outcome.exists_of_foldlM_error h
  cases pre with
  | nil =>
    obtain rfl : _ = x := Except.ok.inj hx
    obtain ⟨y, hy, -⟩ := step_first I e
    cases hy.symm.trans herr
  | cons first later' =>
    obtain rfl : first = start := (List.cons_prefix_cons.mp hpre).1
    rcases step_started (run_started hx).2 e with ⟨_, _, _, hfinished⟩ | ⟨_, y, hy, _⟩
    · exact ⟨later', e, x, hpre, hx, hfinished⟩
    · cases hy.symm.trans herr

/-- **Finish** — the run ends late exactly when it is not started from the shell with a zebra crossing
    within 5000 ticks, at a clock beyond 5000. -/
theorem Vision_ZebraHandle_late_iff (I : Image) (es : List (Event R)) :
    FinishesLate I es ↔ EachStep (fun pre e => ¬ EndsEarly pre e) es := by
  constructor
  · rintro hlate pre e hpre ⟨start, inp, hhead, hshell, hzebra, hsoon, hbeyond⟩
    obtain ⟨later, rfl⟩ := List.head?_eq_some_iff.mp hhead
    -- the run finishes at `e`, or it has finished before
    have hfinish : ∃ later' e' x, start :: later' ++ [e'] <+: start :: later ++ [e] ∧
        Clocked.run I (start :: later') = .ok x ∧ x.step e' = .error .finished := by
      cases hrun : Clocked.run I (start :: later) with
      | ok x =>
        refine ⟨later, e, x, List.prefix_refl _, hrun, (finishes_iff hrun e).mpr ⟨inp, hzebra, ?_⟩⟩
        exact (ending_shell hshell).mpr hbeyond
      | error err =>
        obtain ⟨later', e', x, hpre', hx, herr⟩ := exists_finish hrun
        exact ⟨later', e', x, hpre'.trans (List.prefix_append _ [e]), hx, herr⟩
    obtain ⟨later', e', x, hpre', hx, herr⟩ := hfinish
    obtain ⟨t, ht, htlate⟩ := hlate _ e' (hpre'.trans hpre) x hx herr
    have hclock := clock_le_of_prefix hpre'
    rw [startedAt_iff] at ht
    omega
  · intro hcond pre e hpre x hx herr
    cases pre with
    | nil =>
      obtain rfl : _ = x := Except.ok.inj hx
      obtain ⟨y, hy, -⟩ := step_first I e
      cases hy.symm.trans herr
    | cons start later =>
      refine ⟨start.wait, startedAt_iff.mpr rfl, ?_⟩
      obtain ⟨inp, hzebra, hend⟩ := (finishes_iff hx e).mp herr
      cases hstart : start.start with
      | zebra inp0 =>
        apply ending_zebra hstart _ hend
        rw [List.cons_append, clock, List.map_cons, List.sum_cons]
        exact Nat.le_add_right _ _
      | shell =>
        by_contra hsoon
        exact hcond _ e hpre
          ⟨start, inp, rfl, hstart, hzebra, not_lt.mp hsoon, (ending_shell hstart).mp hend⟩

end

/-- The car is started from the shell at tick 6000, and a crossing comes with the next tick. -/
def shell_start : List (Event ℚ) := [⟨6000, .shell⟩, ⟨1, .zebra ⟨true, 0, 0, 0⟩⟩]

/-- The crossing ends the run. -/
theorem Vision_ZebraHandle_early :
    ¬ FinishesLate ⟨fun _ => 0, fun _ => 187⟩ shell_start := by
  intro hlate
  obtain ⟨t, ht, hlt⟩ := hlate [⟨6000, .shell⟩] ⟨1, .zebra ⟨true, 0, 0, 0⟩⟩ (List.prefix_refl _) _ rfl rfl
  rw [startedAt_iff] at ht
  rw [ht] at hlt
  exact absurd hlt (by decide)

end Car2025
