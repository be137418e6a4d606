/-
  The hand-over from the tracing thread to the push-box thread and back: its phases.

  1. **Log (`SpacedEntries`)** — between two entries into the push task there is the return from the
     first, and a call for detection more than 2000 ticks later.

  2. **Phases (`Phase`)** — the tracing thread drives until a detection, hands over, gets the turn
     back, rests, calls for the next detection.  A phase says where the two threads can be and whose
     turn it is, and what the flags, the clock and the log tell.

  3. **Around the threads** — interrupts and the clock stay in a phase; and in no phase do both
     threads drive.
-/
import Mathlib
import Car2025.Handover.Program

namespace Car2025

open Semaphore MCX_Current_Mode

/-! ## Log -/

/-- Two entries with no other in between: the newer comes first.  What lies between them is then
    known to the last event, a return and a late enough call for detection. -/
def SpacedEntries (log : List HandoverEvent) : Prop :=
  ∀ newer between older t t', log = newer ++ .enter t' :: between ++ .enter t :: older →
    (∀ u, .enter u ∉ between) → ∃ r d, between = [.detect d, .exit r] ∧ r + 2000 < d

/-- Another entry may follow: there has been none yet, or the newest events are those that have to
    lie between two of them. -/
def AdmitsEntry (log : List HandoverEvent) : Prop :=
  log = [] ∨ ∃ d r t l, log = .detect d :: .exit r :: .enter t :: l ∧ r + 2000 < d

theorem SpacedEntries.nil : SpacedEntries [] := by
  intro newer between older t t' h
  exact absurd h.symm (List.append_ne_nil_of_right_ne_nil _ (List.cons_ne_nil _ _))

theorem SpacedEntries.cons {e : HandoverEvent} {log : List HandoverEvent} (h : SpacedEntries log)
    (he : ∀ t, e ≠ .enter t) : SpacedEntries (e :: log) := by
  intro newer between older t t' heq hnone
  cases newer with
  | nil => exact absurd (List.cons.inj heq).1 (he t')
  | cons e' newer => exact h newer between older t t' (List.cons.inj heq).2 hnone

/-- **An entry** after a detection that came late enough: the events on top of the last entry are
    those of `AdmitsEntry`, and what lies further back is as it was. -/
theorem SpacedEntries.enter {log : List HandoverEvent} (h : SpacedEntries log)
    (ho : AdmitsEntry log) (t' : ℕ) : SpacedEntries (.enter t' :: log) := by
  intro newer between older t u heq hnone
  cases newer with
  | cons e' newer => exact h newer between older t u (List.cons.inj heq).2 hnone
  | nil =>
    have hlog := (List.cons.inj heq).2
    rcases ho with rfl | ⟨d, r, t₀, l, rfl, hlate⟩
    · exact absurd hlog.symm (List.append_ne_nil_of_right_ne_nil _ (List.cons_ne_nil _ _))
    · cases between with
      | nil => exact nomatch (List.cons.inj hlog).1
      | cons e between =>
        obtain ⟨rfl, hexit⟩ := List.cons.inj hlog
        cases between with
        | nil => exact nomatch (List.cons.inj hexit).1
        | cons e' between =>
          obtain ⟨rfl, henter⟩ := List.cons.inj hexit
          cases between with
          | nil => exact ⟨r, d, rfl, hlate⟩
          | cons e'' between =>
            obtain ⟨rfl, -⟩ := List.cons.inj henter
            exact absurd (List.mem_cons_of_mem _ (List.mem_cons_of_mem _ List.mem_cons_self))
              (hnone t₀)

/-! ## Phases -/

/-- Where the hand-over is.  The phases follow one another in this order, and the last one leads
    back to the first. -/
inductive Phase where
  /-- the tracing thread follows the line, and a detection is welcome -/
  | ready
  /-- the push-box thread has been released -/
  | called
  | pushing
  | returned
  /-- the tracing thread has been released -/
  | back
  | stamped
  | raised
  /-- the tracing thread follows the line, and the camera is in its reset mode -/
  | resting
  | due
  | detected
  deriving DecidableEq, Repr

namespace Phase

/-- Before a semaphore. -/
def waits : List LocatePc := [.sem_take .take, .sem_take .waiting]

/-- Following the line. -/
def follow : List TracePc := [.loop, .Vision_Handle, .trace_line_method, .clearFinish, .delay]

/-- Where the tracing thread can be. -/
def trace : Phase → List TracePc
  | ready => follow ++ [.detection, .stop, .stopDelay, .release, .timer]
  | called | pushing | returned => [.sem_take .take, .sem_take .waiting]
  | back => [.sem_take .take, .sem_take .waiting, .tick]
  | stamped => [.pushFlag]
  | raised => [.clearDetection]
  | resting => follow ++ [.detection, .timer]
  | due => [.Change_Mode]
  | detected => [.clearPush]

/-- Where the push-box thread can be. -/
def locate : Phase → List LocatePc
  | called => [.sem_take .take, .sem_take .waiting, .call]
  | pushing => [.direction_correction_test1]
  | returned => [.release]
  | _ => waits

/-- It is the push-box thread's turn. -/
def away : Phase → Bool
  | called | pushing | returned => true
  | _ => false

def push_flag : Phase → Bool
  | resting | due | detected | raised => true
  | _ => false

/-- The push task has returned and the camera has been left alone since. -/
def rested : Phase → Bool
  | returned | back | stamped | raised | resting => true
  | _ => false

/-- The tracing thread has looked at the clock. -/
def timed : Phase → Bool
  | stamped | raised | resting => true
  | _ => false

/-- The newest events; the last return was at `r`. -/
def Log (r : ℕ) (log : List HandoverEvent) : Phase → Prop
  | ready | called | detected => AdmitsEntry log
  | pushing => ∃ t l, log = .enter t :: l
  | _ => ∃ t l, log = .exit r :: .enter t :: l

end Phase

/-- How far a thread is with its take. -/
def TracePc.pending : TracePc → Option Stage
  | .sem_take stage => some stage
  | _ => none

def LocatePc.pending : LocatePc → Option Stage
  | .sem_take stage => some stage
  | _ => none

section

variable {R : Type}

/-- Whose turn it is: of the two semaphores it is the one of this thread that has been released, or
    the thread has taken it, and the other thread can only wait. -/
def Handover.Turn (s : Handover R) : Bool → Prop
  | false =>
    Semaphore.Turn Thread.trace_line .locate_box s.trace.pending s.locate.pending
      s.trace_line_sem s.locate_box_sem
  | true =>
    Semaphore.Turn Thread.locate_box .trace_line s.locate.pending s.trace.pending
      s.locate_box_sem s.trace_line_sem

/-- It is told by the places of the threads and their semaphores. -/
theorem Handover.turn_congr {s s' : Handover R} {away : Bool} (ht : s'.trace = s.trace)
    (hl : s'.locate = s.locate) (hst : s'.trace_line_sem = s.trace_line_sem)
    (hsl : s'.locate_box_sem = s.locate_box_sem) (h : s.Turn away) : s'.Turn away := by
  cases away with
  | false =>
    rw [Turn, ht, hl, hst, hsl]
    exact h
  | true =>
    rw [Turn, ht, hl, hst, hsl]
    exact h

/-- The state is in this phase; the last return was at `r`, and at `T` the tracing thread took the
    time.  `turn` carries the exclusion and `spaced` the order of the events; the other fields are
    what the phases hand on to each other for them: from the return on the camera is in its reset
    mode, so the tracing thread sees no detection before it has asked for one, and it asks late
    enough as `r ≤ T`. -/
structure InPhase (s : Handover R) (φ : Phase) (r T : ℕ) : Prop where
  trace : s.trace ∈ φ.trace
  locate : s.locate ∈ φ.locate
  turn : s.Turn φ.away
  debug : s.locate_debug_flag = 1
  push_flag : s.push_flag = φ.push_flag
  log : φ.Log r s.log
  spaced : SpacedEntries s.log
  rested : φ.rested = true → s.push.mcx.mcxCurrent_Mode = Reset_Mode ∧ r ≤ s.now
  timed : φ.timed = true → r ≤ T ∧ T ≤ s.now ∧ s.tick = (rt_tick_get T).toInt32
  quiet : φ = .resting → s.push.mcx.MCX_Detection_Flag = false
  due : φ = .due → r + 2000 < s.now
  told : φ = .pushing → Told s.push

/-- The state is in some phase. -/
def Cycle (s : Handover R) : Prop := ∃ φ r T, InPhase s φ r T

variable {s : Handover R} {φ : Phase} {r T : ℕ}

theorem Handover.start_cycle (push : PushBox R) (now : ℕ) : Cycle (start push now) :=
  ⟨.ready, 0, 0, show TracePc.loop ∈ _ by decide, show LocatePc.sem_take .take ∈ _ by decide,
    ⟨Has.past, Lacks.take⟩, rfl, rfl, Or.inl rfl, SpacedEntries.nil, nofun, nofun, nofun,
    nofun, nofun⟩

/-- **The turn** excludes the other: the thread that has it may be anywhere, the other one is
    before its semaphore. -/
theorem InPhase.exclusive (h : InPhase s φ r T) :
    ¬ (s.Tracing ∧ s.Pushing) ∧ s.trace_line_sem.value ≤ 1 ∧ s.locate_box_sem.value ≤ 1 := by
  have hturn := h.turn
  cases haway : φ.away with
  | false =>
    rw [haway] at hturn
    refine ⟨fun hboth => hturn.waits ?_, hturn.values_le⟩
    rw [hboth.2]
    rfl
  | true =>
    rw [haway] at hturn
    refine ⟨fun hboth => hturn.waits ?_, hturn.values_le.symm⟩
    rcases hboth.1 with htrace | htrace
    · rw [htrace]
      rfl
    · rw [htrace]
      rfl

/-! ## Steps of a thread -/

/-- A step that moves the push-box thread only. -/
theorem InPhase.locate_to (h : InPhase s φ r T) (pc : LocatePc) (sem : Sem Thread)
    (hpc : pc ∈ φ.locate)
    (hturn : Handover.Turn { s with locate := pc, locate_box_sem := sem } φ.away) :
    InPhase { s with locate := pc, locate_box_sem := sem } φ r T :=
  ⟨h.trace, hpc, hturn, h.debug, h.push_flag, h.log, h.spaced, h.rested, h.timed, h.quiet, h.due,
    h.told⟩

/-- A step that moves the tracing thread, and on the side of the push task anything but the camera's
    link. -/
theorem InPhase.trace_to (h : InPhase s φ r T) (pc : TracePc) (sem : Sem Thread) (push : PushBox R)
    (hmcx : push.mcx = s.push.mcx) (hpc : pc ∈ φ.trace)
    (hturn : Handover.Turn { s with trace := pc, trace_line_sem := sem } φ.away)
    (htold : φ = .pushing → Told push) :
    InPhase { s with trace := pc, trace_line_sem := sem, push := push } φ r T := by
  refine ⟨hpc, h.locate, Handover.turn_congr rfl rfl rfl rfl hturn, h.debug, h.push_flag, h.log,
    h.spaced, fun hr => ?_, h.timed, fun hq => ?_, h.due, htold⟩
  · rw [hmcx]
    exact h.rested hr
  · rw [hmcx]
    exact h.quiet hq

/-- A step along the line, in a phase in which the thread follows it. -/
theorem InPhase.trace_along (h : InPhase s φ r T) (pc : TracePc) (push : PushBox R)
    (hmcx : push.mcx = s.push.mcx) (hpc : pc ∈ φ.trace) (haway : φ.away = false)
    (hs : s.trace.pending = none) (hp : pc.pending = none) :
    Cycle { s with trace := pc, push := push } := by
  refine ⟨φ, r, T, h.trace_to pc s.trace_line_sem push hmcx hpc ?_
    fun hp => absurd (hp ▸ haway) (by decide)⟩
  have hturn := h.turn
  rw [haway] at hturn ⊢
  rw [Handover.Turn, hs] at hturn
  rw [Handover.Turn, hp]
  exact hturn

/-! ## Interrupts and the clock -/

variable [CFloat R]

/-- An interrupt leaves the camera's link, or feeds it; the one that feeds it nothing is both. -/
theorem PushBox.interrupt_mcx {p : PushBox R} (a : PushBox.Action R) (ha : ∀ i, a ≠ .thread i) :
    ∃ bytes, (p.act a).mcx = p.mcx.feed bytes := by
  cases a with
  | thread i => exact absurd rfl (ha i)
  | mcx bytes => exact ⟨bytes, rfl⟩
  | art bytes => exact ⟨[], rfl⟩
  | image => exact ⟨[], rfl⟩
  | attitude yaw => exact ⟨[], rfl⟩
  | motion count =>
    exact ⟨[], iteInduction (motive := fun q : PushBox R => q.mcx = p.mcx) (fun _ => rfl)
      fun _ => rfl⟩

/-- **Interrupts** stay in the phase.  The only one that could matter is the camera's: its bytes do
    not change its mode, and in the reset mode they raise no detection. -/
theorem InPhase.interrupt (h : InPhase s φ r T) (a : {a : PushBox.Action R // ∀ i, a ≠ .thread i}) :
    InPhase (s.act (.interrupt a)) φ r T := by
  obtain ⟨bytes, hmcx⟩ := PushBox.interrupt_mcx (p := s.push) a.1 a.2
  refine ⟨h.trace, h.locate, Handover.turn_congr rfl rfl rfl rfl h.turn, h.debug, h.push_flag, h.log,
    h.spaced, fun hr => ?_, h.timed, fun hq => ?_, h.due, fun ht => (h.told ht).act a.1⟩
  · obtain ⟨hmode, hnow⟩ := h.rested hr
    refine ⟨?_, hnow⟩
    show (s.push.act a.1).mcx.mcxCurrent_Mode = Reset_Mode
    rw [hmcx]
    exact (MCX.feed_mode bytes s.push.mcx).trans hmode
  · have hmode : s.push.mcx.mcxCurrent_Mode = Reset_Mode := by
      subst hq
      exact (h.rested rfl).1
    show (s.push.act a.1).mcx.MCX_Detection_Flag = false
    rw [hmcx]
    exact (MCX.feed_quiet bytes hmode).trans (h.quiet hq)

/-- **Time** only goes by: what is late enough stays so, and no time that was taken lies in the
    future. -/
theorem InPhase.clock (h : InPhase s φ r T) (ticks : ℕ) : InPhase (s.act (.clock ticks)) φ r T := by
  refine ⟨h.trace, h.locate, Handover.turn_congr rfl rfl rfl rfl h.turn, h.debug, h.push_flag, h.log,
    h.spaced, fun hr => ?_, fun ht => ?_, h.quiet, fun hd => ?_, h.told⟩
  · obtain ⟨hmode, hnow⟩ := h.rested hr
    exact ⟨hmode, hnow.trans (Nat.le_add_right _ _)⟩
  · obtain ⟨hr, hnow, htick⟩ := h.timed ht
    exact ⟨hr, hnow.trans (Nat.le_add_right _ _), htick⟩
  · exact (h.due hd).trans_le (Nat.le_add_right _ _)

end

end Car2025
