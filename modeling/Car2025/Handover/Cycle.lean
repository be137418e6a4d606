/-
  The hand-over from the tracing thread to the push-box thread and back: its runs.

  1. **The push-box thread (`InPhase.locate_step`)** — it waits, is called, runs the push task to its
     end and hands back.

  2. **The tracing thread (`InPhase.trace_step`)** — it follows the line, hands over at a detection,
     and once the turn has come back follows the line for 2000 ticks before it calls for detection.

  3. **The hand-over (`handover`)** — over every run.
-/
import Mathlib
import Car2025.Handover.Phase

namespace Car2025

open Semaphore MCX_Current_Mode

section

variable {R : Type} [CFloat R] {s : Handover R} {φ : Phase} {r T : ℕ}

/-! ## The push-box thread -/

theorem Phase.mem_waits {pc : LocatePc} : pc ∈ waits ↔ ∃ stage, pc = .sem_take stage := by
  constructor
  · intro h
    rcases List.mem_pair.mp h with rfl | rfl
    · exact ⟨.take, rfl⟩
    · exact ⟨.waiting, rfl⟩
  · rintro ⟨stage, rfl⟩
    cases stage <;> decide

theorem Handover.locate_take (i : PushInput) {stage : Stage} (h : s.locate = .sem_take stage) :
    s.locate_box_entry i =
      { s with
        locate := (s.locate_box_sem.take .locate_box stage).1.elim .call .sem_take
        locate_box_sem := (s.locate_box_sem.take .locate_box stage).2 } := by
  rw [locate_box_entry, h]

/-- **While it is the tracing thread's turn** the push-box thread waits: its semaphore has no
    count, and it gets in line for it or stays there. -/
theorem InPhase.locate_waits (h : InPhase s φ r T) (i : PushInput) (haway : φ.away = false)
    (hwaits : φ.locate = Phase.waits) : InPhase (s.locate_box_entry i) φ r T := by
  have hloc := h.locate
  rw [hwaits] at hloc
  obtain ⟨stage, hstage⟩ := Phase.mem_waits.mp hloc
  have hturn := h.turn
  rw [haway, Handover.Turn, hstage] at hturn
  obtain ⟨stage', hstage', hstays⟩ := Turn.stays (k := stage) hturn
  rw [Handover.locate_take i hstage, hstage']
  refine h.locate_to (.sem_take stage') _ ?_ ?_
  · rw [hwaits]
    exact Phase.mem_waits.mpr ⟨stage', rfl⟩
  · rw [haway]
    exact hstays

/-- **Once it is released** it goes past its semaphore, whether it was in line for it or comes to
    it only now. -/
theorem InPhase.locate_goes (h : InPhase s .called r T) (i : PushInput) {stage : Stage}
    (hstage : s.locate = .sem_take stage) : InPhase (s.locate_box_entry i) .called r T := by
  have hturn : s.Turn true := h.turn
  rw [Handover.Turn, hstage] at hturn
  obtain ⟨hnone, hpast⟩ := Turn.goes (k := stage) hturn
  rw [Handover.locate_take i hstage, hnone]
  exact h.locate_to .call _ (by decide) hpast

/-- **It calls the push task**, as `locate_debug_flag` is 1.  This is where the log gets an entry,
    and the phases from `due` on have seen to it that another one may follow. -/
theorem InPhase.locate_called (h : InPhase s .called r T) (i : PushInput) :
    Cycle (s.locate_box_entry i) := by
  have hloc := h.locate
  simp only [Phase.locate, List.mem_cons, List.not_mem_nil, or_false] at hloc
  rcases hloc with hstage | hstage | hcall
  · exact ⟨.called, r, T, h.locate_goes i hstage⟩
  · exact ⟨.called, r, T, h.locate_goes i hstage⟩
  · obtain ⟨trace, tick, push_flag, locate, debug, tsem, lsem, push, now, log⟩ := s
    obtain rfl : locate = .call := hcall
    refine iteInduction (motive := Cycle) (fun _ => ?_) fun hdebug => absurd h.debug hdebug
    exact ⟨.pushing, r, T, h.trace, List.mem_singleton.mpr rfl, h.turn, h.debug, h.push_flag,
      ⟨now, log, rfl⟩, h.spaced.enter h.log now, nofun, nofun, nofun, nofun,
      fun _ => push.enter_told []⟩

/-- **The push task runs**; at its return the camera is in its reset mode, which is the end of the
    story that the task tells. -/
theorem InPhase.locate_pushing (h : InPhase s .pushing r T) (i : PushInput) :
    Cycle (s.locate_box_entry i) := by
  obtain ⟨trace, tick, push_flag, locate, debug, tsem, lsem, push, now, log⟩ := s
  obtain rfl : locate = .direction_correction_test1 := List.mem_singleton.mp h.locate
  obtain ⟨t, l, hlog⟩ := h.log
  refine iteInduction (motive := Cycle) (fun hdone => ?_) fun _ => ?_
  · exact ⟨.returned, now, T, h.trace, List.mem_singleton.mpr rfl, h.turn, h.debug, h.push_flag,
      ⟨t, l, congrArg (List.cons _) hlog⟩, h.spaced.cons fun _ => HandoverEvent.noConfusion,
      fun _ => ⟨(h.told rfl).reset_of_done hdone, le_rfl⟩, nofun, nofun, nofun, nofun⟩
  · exact ⟨.pushing, r, T, h.trace, h.locate, h.turn, h.debug, h.push_flag, h.log, h.spaced,
      nofun, nofun, nofun, nofun, fun _ => (h.told rfl).thread i⟩

/-- **It hands back**: with its release the turn is the tracing thread's, and it has no semaphore
    of its own left to take. -/
theorem InPhase.locate_returned (h : InPhase s .returned r T) (i : PushInput) :
    Cycle (s.locate_box_entry i) := by
  have htrace := h.trace
  obtain ⟨trace, tick, push_flag, locate, debug, tsem, lsem, push, now, log⟩ := s
  obtain rfl : locate = .release := List.mem_singleton.mp h.locate
  refine ⟨.back, r, T, ?_, show LocatePc.sem_take .take ∈ _ by decide, ?_, h.debug, h.push_flag,
    h.log, h.spaced, h.rested, nofun, nofun, nofun, nofun⟩
  · exact (show Phase.trace .returned ⊆ Phase.trace .back by decide) htrace
  · exact Turn.pass (show 0 < RT_SEM_VALUE_MAX by decide) h.turn

/-- **A step of the push-box thread**, phase by phase; in all phases but three it is not its turn. -/
theorem InPhase.locate_step (h : InPhase s φ r T) (i : PushInput) :
    Cycle (s.locate_box_entry i) := by
  cases φ with
  | called => exact h.locate_called i
  | pushing => exact h.locate_pushing i
  | returned => exact h.locate_returned i
  | ready | back | stamped | raised | resting | due | detected =>
    exact ⟨_, r, T, h.locate_waits i rfl rfl⟩

/-! ## The tracing thread -/

theorem Handover.trace_take (i : TraceInput R) {stage : Stage} (h : s.trace = .sem_take stage) :
    s.trace_line_entry i =
      { s with
        trace := (s.trace_line_sem.take .trace_line stage).1.elim .tick .sem_take
        trace_line_sem := (s.trace_line_sem.take .trace_line stage).2 } := by
  rw [trace_line_entry, h]

/-- **While it is the push-box thread's turn** the tracing thread waits, as it has gone straight
    from its release to its take. -/
theorem InPhase.trace_waits (h : InPhase s φ r T) (i : TraceInput R) (haway : φ.away = true) :
    InPhase (s.trace_line_entry i) φ r T := by
  have hpcs : φ.trace = [.sem_take .take, .sem_take .waiting] := by
    revert haway
    cases φ <;> decide
  have htrace := h.trace
  rw [hpcs] at htrace
  obtain ⟨stage, hstage⟩ : ∃ stage, s.trace = .sem_take stage := by
    rcases List.mem_pair.mp htrace with htake | hwait
    · exact ⟨.take, htake⟩
    · exact ⟨.waiting, hwait⟩
  have hturn := h.turn
  rw [haway, Handover.Turn, hstage] at hturn
  obtain ⟨stage', hstage', hstays⟩ := Turn.stays (k := stage) hturn
  rw [Handover.trace_take i hstage, hstage']
  refine h.trace_to (.sem_take stage') _ s.push rfl ?_ ?_ h.told
  · rw [hpcs]
    cases stage' <;> decide
  · rw [haway]
    exact hstays

/-- **Once it is released** it goes past its semaphore, as the push-box thread before it. -/
theorem InPhase.trace_goes (h : InPhase s .back r T) (i : TraceInput R) {stage : Stage}
    (hstage : s.trace = .sem_take stage) : InPhase (s.trace_line_entry i) .back r T := by
  have hturn : s.Turn false := h.turn
  rw [Handover.Turn, hstage] at hturn
  obtain ⟨hnone, hpast⟩ := Turn.goes (k := stage) hturn
  rw [Handover.trace_take i hstage, hnone]
  exact h.trace_to .tick _ s.push rfl (by decide) hpast fun hp => absurd hp (by decide)

/-- **Following the line**, the thread goes round its loop.  Its frames and the speeds it sets are
    no concern of the phase, which only looks at the camera's link. -/
theorem InPhase.trace_follows (h : InPhase s φ r T) (i : TraceInput R) (haway : φ.away = false)
    (hsub : Phase.follow ++ [.detection] ⊆ φ.trace) (hpc : s.trace ∈ Phase.follow) :
    Cycle (s.trace_line_entry i) := by
  obtain ⟨trace, tick, push_flag, locate, debug, tsem, lsem, push, now, log⟩ := s
  simp only [Phase.follow, List.mem_cons, List.not_mem_nil, or_false] at hpc
  rcases hpc with rfl | rfl | rfl | rfl | rfl
  · -- loop
    exact iteInduction (motive := Cycle)
      (fun _ => h.trace_along .Vision_Handle push rfl (hsub (by decide)) haway rfl rfl)
      fun _ => h.trace_along .delay push rfl (hsub (by decide)) haway rfl rfl
  · -- Vision_Handle
    cases hmore : i.more with
    | true =>
      rw [Handover.trace_line_entry, hmore]
      exact h.trace_along .Vision_Handle _ rfl (hsub (by decide)) haway rfl rfl
    | false =>
      rw [Handover.trace_line_entry, hmore]
      exact h.trace_along .trace_line_method _ rfl (hsub (by decide)) haway rfl rfl
  · -- trace_line_method
    cases hmore : i.more with
    | true =>
      rw [Handover.trace_line_entry, hmore]
      exact h.trace_along .trace_line_method _ rfl (hsub (by decide)) haway rfl rfl
    | false =>
      rw [Handover.trace_line_entry, hmore]
      exact h.trace_along .clearFinish _ rfl (hsub (by decide)) haway rfl rfl
  · -- clearFinish
    exact h.trace_along .delay _ rfl (hsub (by decide)) haway rfl rfl
  · -- delay
    exact h.trace_along .detection push rfl (hsub (by decide)) haway rfl rfl

/-- **Ready**: a detection takes the thread to the hand-over.  It stops the car, releases the other
    thread, and with that the turn is passed on; the log still admits an entry. -/
theorem InPhase.trace_ready (h : InPhase s .ready r T) (i : TraceInput R) :
    Cycle (s.trace_line_entry i) := by
  rcases List.mem_append.mp h.trace with hfollow | hrest
  · exact h.trace_follows i rfl (by decide) hfollow
  · obtain ⟨trace, tick, push_flag, locate, debug, tsem, lsem, push, now, log⟩ := s
    simp only [List.mem_cons, List.not_mem_nil, or_false] at hrest
    rcases hrest with rfl | rfl | rfl | rfl | rfl
    · -- detection
      exact iteInduction (motive := Cycle)
        (fun _ => h.trace_along .stop push rfl (by decide) rfl rfl rfl)
        fun _ => h.trace_along .timer push rfl (by decide) rfl rfl rfl
    · -- stop
      exact h.trace_along .stopDelay _ rfl (by decide) rfl rfl rfl
    · -- stopDelay
      exact h.trace_along .release push rfl (by decide) rfl rfl rfl
    · -- release: the turn is passed on
      refine ⟨.called, r, T, show TracePc.sem_take .take ∈ _ by decide, ?_, ?_, h.debug,
        h.push_flag, h.log, h.spaced, nofun, nofun, nofun, nofun, nofun⟩
      · exact (show Phase.locate .ready ⊆ Phase.locate .called by decide) h.locate
      · exact Turn.pass (show 0 < RT_SEM_VALUE_MAX by decide) h.turn
    · -- timer: nothing is to be waited for
      have hflag : ¬ push_flag = true := by
        rw [show push_flag = false from h.push_flag]
        exact Bool.false_ne_true
      exact iteInduction (motive := Cycle) (fun hand => absurd hand.1 hflag)
        fun _ => h.trace_along .loop push rfl (by decide) rfl rfl rfl

/-- **The time is taken** when the turn has come back, so it is not before the return. -/
theorem InPhase.trace_back (h : InPhase s .back r T) (i : TraceInput R) :
    Cycle (s.trace_line_entry i) := by
  have hpc := h.trace
  simp only [Phase.trace, List.mem_cons, List.not_mem_nil, or_false] at hpc
  rcases hpc with hstage | hstage | htick
  · exact ⟨.back, r, T, h.trace_goes i hstage⟩
  · exact ⟨.back, r, T, h.trace_goes i hstage⟩
  · obtain ⟨trace, tick, push_flag, locate, debug, tsem, lsem, push, now, log⟩ := s
    obtain rfl : trace = .tick := htick
    exact ⟨.stamped, r, now, List.mem_singleton.mpr rfl, h.locate, h.turn, h.debug, h.push_flag,
      h.log, h.spaced, h.rested, fun _ => ⟨(h.rested rfl).2, le_rfl, rfl⟩, nofun, nofun, nofun⟩

theorem InPhase.trace_stamped (h : InPhase s .stamped r T) (i : TraceInput R) :
    Cycle (s.trace_line_entry i) := by
  obtain ⟨trace, tick, push_flag, locate, debug, tsem, lsem, push, now, log⟩ := s
  obtain rfl : trace = .pushFlag := List.mem_singleton.mp h.trace
  exact ⟨.raised, r, T, List.mem_singleton.mpr rfl, h.locate, h.turn, h.debug, rfl, h.log, h.spaced,
    h.rested, h.timed, nofun, nofun, nofun⟩

/-- **What was detected meanwhile** is forgotten, and in its reset mode the camera detects nothing;
    so `quiet` holds until the tracing thread asks for a detection. -/
theorem InPhase.trace_raised (h : InPhase s .raised r T) (i : TraceInput R) :
    Cycle (s.trace_line_entry i) := by
  obtain ⟨trace, tick, push_flag, locate, debug, tsem, lsem, push, now, log⟩ := s
  obtain rfl : trace = .clearDetection := List.mem_singleton.mp h.trace
  exact ⟨.resting, r, T, show TracePc.timer ∈ _ by decide, h.locate, h.turn, h.debug, h.push_flag,
    h.log, h.spaced, h.rested, h.timed, fun _ => rfl, nofun, nofun⟩

/-- What the tick counter shows to have passed has passed, whether or not it wrapped around: the
    difference of the two readings is the time that passed, less whole turns of the counter. -/
theorem rt_tick_elapsed {now : ℕ} (hT : T ≤ now)
    (h : 2000 < rt_tick_get now - (rt_tick_get T).toInt32.toUInt32) : T + 2000 < now := by
  rw [UInt32.toUInt32_toInt32, rt_tick_get, rt_tick_get, ← UInt32.ofNat_sub hT,
    UInt32.lt_iff_toNat_lt, UInt32.toNat_ofNat'] at h
  have hmod : (now - T) % 2 ^ 32 ≤ now - T := Nat.mod_le _ _
  have hlate : 2000 < now - T := h.trans_le hmod
  omega

/-- **Resting**: the thread follows the line until the time has come.  No flag is raised, so it
    cannot hand over, and the timer lets it pass only after 2000 ticks. -/
theorem InPhase.trace_resting (h : InPhase s .resting r T) (i : TraceInput R) :
    Cycle (s.trace_line_entry i) := by
  rcases List.mem_append.mp h.trace with hfollow | hrest
  · exact h.trace_follows i rfl (by decide) hfollow
  · obtain ⟨trace, tick, push_flag, locate, debug, tsem, lsem, push, now, log⟩ := s
    rcases List.mem_pair.mp hrest with rfl | rfl
    · -- detection
      have hquiet : ¬ push.mcx.MCX_Detection_Flag = true := by
        rw [h.quiet rfl]
        exact Bool.false_ne_true
      exact iteInduction (motive := Cycle) (fun hflag => absurd hflag hquiet)
        fun _ => h.trace_along .timer push rfl (by decide) rfl rfl rfl
    · -- timer
      refine iteInduction (motive := Cycle) (fun hdue => ?_)
        fun _ => h.trace_along .loop push rfl (by decide) rfl rfl rfl
      obtain ⟨hr, hnow, htick⟩ := h.timed rfl
      have hlate : T + 2000 < now := rt_tick_elapsed hnow (htick ▸ hdue.2)
      exact ⟨.due, r, T, List.mem_singleton.mpr rfl, h.locate, h.turn, h.debug, h.push_flag, h.log,
        h.spaced, nofun, nofun, nofun, fun _ => (Nat.add_le_add_right hr 2000).trans_lt hlate, nofun⟩

/-- **The camera is to detect again**, late enough: with this event on top the log admits an entry. -/
theorem InPhase.trace_due (h : InPhase s .due r T) (i : TraceInput R) :
    Cycle (s.trace_line_entry i) := by
  obtain ⟨trace, tick, push_flag, locate, debug, tsem, lsem, push, now, log⟩ := s
  obtain rfl : trace = .Change_Mode := List.mem_singleton.mp h.trace
  obtain ⟨t, l, hlog⟩ := h.log
  exact ⟨.detected, r, T, List.mem_singleton.mpr rfl, h.locate, h.turn, h.debug, h.push_flag,
    Or.inr ⟨now, r, t, l, congrArg (List.cons _) hlog, h.due rfl⟩,
    h.spaced.cons fun _ => HandoverEvent.noConfusion, nofun, nofun, nofun, nofun, nofun⟩

theorem InPhase.trace_detected (h : InPhase s .detected r T) (i : TraceInput R) :
    Cycle (s.trace_line_entry i) := by
  obtain ⟨trace, tick, push_flag, locate, debug, tsem, lsem, push, now, log⟩ := s
  obtain rfl : trace = .clearPush := List.mem_singleton.mp h.trace
  exact ⟨.ready, r, T, show TracePc.loop ∈ _ by decide, h.locate, h.turn, h.debug, rfl, h.log,
    h.spaced, nofun, nofun, nofun, nofun, nofun⟩

/-- **A step of the tracing thread**, phase by phase; in the three that are the other thread's it
    waits. -/
theorem InPhase.trace_step (h : InPhase s φ r T) (i : TraceInput R) :
    Cycle (s.trace_line_entry i) := by
  cases φ with
  | ready => exact h.trace_ready i
  | called | pushing | returned => exact ⟨_, r, T, h.trace_waits i rfl⟩
  | back => exact h.trace_back i
  | stamped => exact h.trace_stamped i
  | raised => exact h.trace_raised i
  | resting => exact h.trace_resting i
  | due => exact h.trace_due i
  | detected => exact h.trace_detected i

/-! ## The hand-over -/

theorem Cycle.act (h : Cycle s) (a : Handover.Action R) : Cycle (s.act a) := by
  obtain ⟨φ, r, T, h⟩ := h
  cases a with
  | trace_line i => exact h.trace_step i
  | locate_box i => exact h.locate_step i
  | interrupt a => exact ⟨φ, r, T, h.interrupt a⟩
  | clock ticks => exact ⟨φ, r, T, h.clock ticks⟩

/-- **Every run** goes round the cycle, by induction on the run: whatever thread or interrupt acts
    next, the state stays in its phase or goes on to the next one. -/
theorem Handover.run_cycle (push : PushBox R) (now : ℕ) (as : List (Action R)) :
    Cycle ((start push now).run as) := by
  induction as using List.reverseRecOn with
  | nil => exact start_cycle push now
  | append_singleton as a ih =>
    rw [run_concat]
    exact ih.act a

/-- **The hand-over**: after every run at most one thread drives, the semaphores have been counted
    up to 1 at most, and between two entries into the push task there were the return from the first
    and, more than 2000 ticks after it, a call for detection. -/
theorem handover (push : PushBox R) (now : ℕ) (as : List (Handover.Action R)) :
    ¬ (((Handover.start push now).run as).Tracing ∧ ((Handover.start push now).run as).Pushing) ∧
    ((Handover.start push now).run as).trace_line_sem.value ≤ 1 ∧
    ((Handover.start push now).run as).locate_box_sem.value ≤ 1 ∧
    SpacedEntries ((Handover.start push now).run as).log := by
  obtain ⟨φ, r, T, h⟩ := Handover.run_cycle push now as
  obtain ⟨hboth, htrace, hlocate⟩ := h.exclusive
  exact ⟨hboth, htrace, hlocate, h.spaced⟩

end

/-! ## A run with two entries -/

namespace Handover.Action

/-- Steps of the tracing thread, whose driving code does nothing. -/
def traces (n : ℕ) : List (Action ℚ) := List.replicate n (trace_line ⟨id, false⟩)

/-- An action of the push task, in the push-box thread or as an interrupt. -/
def ofPush : PushBox.Action ℚ → Action ℚ
  | .thread i => locate_box i
  | .mcx bytes => interrupt ⟨.mcx bytes, nofun⟩
  | .art bytes => interrupt ⟨.art bytes, nofun⟩
  | .image => interrupt ⟨.image, nofun⟩
  | .attitude yaw => interrupt ⟨.attitude yaw, nofun⟩
  | .motion count => interrupt ⟨.motion count, nofun⟩

/-- A detection, the hand-over, a wrench pushed away and the way back. -/
def pushed : List (Action ℚ) :=
  (ofPush PushBox.Action.centred :: traces 7) ++
    (PushBox.Action.steps 2 false ++ PushBox.Action.pushWrench ++
      PushBox.Action.steps 2 false).map ofPush ++ traces 4

end Handover.Action

open Handover.Action

example : ((Handover.start .parked 0).run
    (pushed ++ clock 2001 :: traces 3 ++ pushed)).log =
    [.exit 2001, .enter 2001, .detect 2001, .exit 0, .enter 0] := by
  decide +kernel

end Car2025
