/-
  No state of the program is a dead end.

  1. **Heard (`Program.Tuned`)** — as long as the push task needs the camera it is not in its reset mode.

  2. **The push task, in the program (`can_release`)** — what it can reach alone it can reach here; the
     car's thread and the attitude have no say in where it goes.

  3. **Onward (`line_again`)** — so from every state the tracing thread can come back to the line:
     no hand-over is lost, and no push task keeps the turn for ever.
-/
import Mathlib
import Car2025.PushBox.Return
import Car2025.Whole.Results

namespace Car2025

open Reach MCX_Current_Mode Semaphore

/-! ## Heard -/

namespace Handover

variable {R : Type} [CFloat R] {s : Handover R}

/-- The camera is not in its reset mode, or the push task has asked for that.  The invariant that
    keeps a task from waiting for ever: the only call of the reset mode is the task's own, at its
    end, and before the next task the tracing thread asks for detections again. -/
def Tuned (s : Handover R) : Prop :=
  s.push.mcx.Looking ∨ (∃ r l, s.log = .exit r :: l) ∨
    (s.Pushing ∧ (s.push.pc = .finish ∨ s.push.finish_flag = true))

omit [CFloat R] in
/-- While the task runs it is heard. -/
theorem Tuned.hears (h : s.Tuned) (hcycle : Cycle s) (hpush : s.Pushing) : s.push.Hears := by
  rcases h with hlook | ⟨r, l, hlog⟩ | ⟨-, hend⟩
  · exact Or.inl hlook
  · -- the newest event is the call of the task
    obtain ⟨φ, r', T, hphase⟩ := hcycle
    have hlocate := hphase.locate
    rw [show s.locate = .direction_correction_test1 from hpush] at hlocate
    obtain rfl : φ = .pushing := by
      revert hlocate
      cases φ <;> decide
    obtain ⟨t, l', hlog'⟩ := hphase.log
    rw [hlog] at hlog'
    cases hlog'
  · exact Or.inr hend

omit [CFloat R] in
/-- **A call of the task** comes after a call for detection: the log admits an entry only behind a
    detection, and a detection is reported only by a camera that looks for pictures. -/
theorem Tuned.looking (h : s.Tuned) (hcycle : Cycle s) (hcall : s.locate = .call) :
    s.push.mcx.Looking := by
  -- before a call the newest event is a detection, never a return of the task
  rcases h with hlook | ⟨r, l, hlog⟩ | ⟨hpush, -⟩
  · exact hlook
  · obtain ⟨φ, r', T, hphase⟩ := hcycle
    have hlocate := hphase.locate
    rw [hcall] at hlocate
    obtain rfl : φ = .called := by
      revert hlocate
      cases φ <;> decide
    have hadmits : AdmitsEntry s.log := hphase.log
    rw [hlog] at hadmits
    rcases hadmits with hnil | ⟨d, r, t, l, hlog, -⟩
    · cases hnil
    · cases hlog
  · exact absurd (hcall.symm.trans hpush) (by decide)

/-- **The push-box thread** keeps it: when its task returns, the newest event of the log is the
    exit. -/
theorem Tuned.locate (h : s.Tuned) (hcycle : Cycle s) (i : PushInput) :
    (s.locate_box_entry i).Tuned := by
  rw [locate_box_entry]
  cases hlocate : s.locate with
  | sem_take stage =>
    refine h.imp_right fun h => Or.inl (h.resolve_right fun hpush => ?_)
    exact absurd (hlocate.symm.trans hpush.1) (by simp)
  | release =>
    refine h.imp_right fun h => Or.inl (h.resolve_right fun hpush => ?_)
    exact absurd (hlocate.symm.trans hpush.1) (by decide)
  | call =>
    have hlook := h.looking hcycle hlocate
    dsimp only
    split <;> exact Or.inl hlook
  | direction_correction_test1 =>
    dsimp only
    split
    · exact Or.inr (Or.inl ⟨_, _, rfl⟩)
    · have hears := (h.hears hcycle hlocate).act (.thread i)
      rcases hears with hlook | hend
      · exact Or.inl hlook
      · exact Or.inr (Or.inr ⟨rfl, hend⟩)

theorem Tuned.trace (h : s.Tuned) (i : TraceInput R) : (s.trace_line_entry i).Tuned := by
  rw [trace_line_entry]
  cases s.trace with
  | loop | detection | timer =>
    dsimp only
    split <;> exact h
  | Change_Mode => exact Or.inl (Or.inl rfl)
  | _ => exact h

end Handover

/-! ## The push task, in the program -/

section

variable {R : Type} [CFloat R]

omit [CFloat R] in
/-- A choice that the car has no part in. -/
theorem PushBox.ite_setMotion {cond cond' : Prop} [Decidable cond] [Decidable cond']
    {p q p' q' : PushBox R} (hcond : cond ↔ cond')
    (hp : ∃ m d, p = { p' with motion := m, data := d })
    (hq : ∃ m d, q = { q' with motion := m, data := d }) :
    ∃ m d, (if cond then p else q) =
      { (if cond' then p' else q') with motion := m, data := d } := by
  by_cases h : cond
  · rw [if_pos h, if_pos (hcond.mp h)]
    exact hp
  · rw [if_neg h, if_neg fun h' => h (hcond.mpr h')]
    exact hq

/-- **Where the task goes** is no matter of the car or of its controllers.  So a run of the task
    alone, with any car, tells where the task in the program can go, whatever the other threads
    have done to the car meanwhile. -/
theorem PushBox.thread_setMotion (i : PushInput) (p : PushBox R) (m : CarMotion R)
    (d : LocateBoxData R) : ∃ m' d', ({ p with motion := m, data := d } : PushBox R).thread i =
      { p.thread i with motion := m', data := d' } := by
  obtain ⟨pc, _, _, _, _, _, _, _, _, _, _, _, _, _, _⟩ := p
  rw [PushBox.thread, PushBox.thread]
  cases pc with
  | loop | image | flag | seekX | angleX | angleY | wait | vote | poll | compare | voted | shouldPush |
      pushX | low | high =>
    exact ite_setMotion Iff.rfl ⟨_, _, rfl⟩ ⟨_, _, rfl⟩
  | _ => exact ⟨_, _, rfl⟩

end

/-- Where the tracing thread can be off the line. -/
def TracePc.off : List TracePc :=
  [.detection, .stop, .stopDelay, .release, .sem_take .take, .sem_take .waiting, .tick, .pushFlag,
    .clearDetection, .timer, .Change_Mode, .clearPush]

theorem TracePc.mem_off {pc : TracePc} (h : pc ∉ Phase.follow) : pc ∈ off := by
  revert h
  cases pc with
  | sem_take stage => cases stage <;> decide
  | _ => decide

namespace Program

variable {o : Outside} {s : Program ℚ} {b : Boot ℚ}

/-- **One step** keeps it: besides the two threads only received bytes reach the link, and they
    never bring it into the reset mode. -/
theorem act_tuned (h : s.hand.Tuned) (hcycle : Cycle s.hand) (a : Action ℚ) :
    (s.act o a).hand.Tuned := by
  cases a with
  | trace_line working c =>
    show (s.trace_line_entry o working c).hand.Tuned
    rcases (trace_line_entry_cases (o := o) (s := s) working c).hand with heq | ⟨i, heq⟩
    · rw [heq]
      exact h
    · rw [heq]
      exact h.trace i
  | locate_box i => exact h.locate hcycle i
  | mcx bytes =>
    refine h.imp_left fun hlook => ?_
    show (s.hand.push.mcx.feed bytes).Looking
    rw [MCX.Looking, MCX.feed_mode]
    exact hlook
  | _ => exact h

/-- Some run leads here. -/
def Reached (o : Outside) (b : Boot ℚ) (s : Program ℚ) : Prop := ∃ as, b.start.run o as = s

theorem Reached.act (h : Reached o b s) (a : Action ℚ) : Reached o b (s.act o a) := by
  obtain ⟨as, rfl⟩ := h
  exact ⟨as ++ [a], run_concat o b.start as a⟩

theorem Reached.sound (h : Reached o b s) : s.Sound := by
  obtain ⟨as, rfl⟩ := h
  exact run_sound b as

theorem Reached.tuned (h : Reached o b s) (hlook : b.push.mcx.Looking) : s.hand.Tuned := by
  obtain ⟨as, rfl⟩ := h
  induction as using List.reverseRecOn with
  | nil => exact Or.inl hlook
  | append_singleton as a ih =>
    rw [run_concat]
    exact act_tuned ih (run_cycle b as) a

/-- The task in the program has come as far as the task alone: all of its state agrees but the car
    and the controllers. -/
def Follows (o : Outside) (b : Boot ℚ) (p : PushBox ℚ) (s : Program ℚ) : Prop :=
  Reached o b s ∧ s.hand.Pushing ∧ ∃ m d, s.hand.push = { p with motion := m, data := d }

/-- **Every action of the task** can be followed by an action of the program, or by none.  This is
    the simulation that carries `push_can_return` over to the whole program. -/
theorem Follows.act {p : PushBox ℚ} (h : Follows o b p s) (a : PushBox.Action ℚ) :
    CanReach (Program.act o) (Follows o b (p.act a)) s := by
  obtain ⟨hreached, hpush, m, d, heq⟩ := h
  cases a with
  | thread i =>
    -- the task alone would stay at its end, where the thread in the program goes on
    by_cases hdone : p.pc = .done
    · refine .here ⟨hreached, hpush, m, d, ?_⟩
      have hstays : p.act (.thread i) = p := by
        show p.thread i = p
        rw [PushBox.thread, hdone]
      rw [hstays]
      exact heq
    · refine .next (.locate_box i) ⟨hreached.act _, ?_⟩
      have hmore : s.hand.push.pc ≠ .done := by
        rw [heq]
        exact hdone
      have hact : (s.act o (.locate_box i)).hand = { s.hand with push := s.hand.push.thread i } :=
        Handover.locate_thread i hpush hmore
      rw [hact, heq]
      exact ⟨hpush, p.thread_setMotion i m d⟩
  | mcx bytes =>
    refine .next (.mcx bytes) ⟨hreached.act _, hpush, m, d, ?_⟩
    show ({ s.hand.push with mcx := s.hand.push.mcx.feed bytes } : PushBox ℚ) = _
    rw [heq]
    rfl
  | art bytes =>
    refine .next (.art bytes) ⟨hreached.act _, hpush, m, d, ?_⟩
    show ({ s.hand.push with art := s.hand.push.art.feed bytes } : PushBox ℚ) = _
    rw [heq]
    rfl
  | image =>
    refine .next .image ⟨hreached.act _, hpush, m, d, ?_⟩
    show ({ s.hand.push with mt9v03x_finish_flag := true } : PushBox ℚ) = _
    rw [heq]
    rfl
  -- the car has no part in where the task goes, so nothing need be done for these two
  | attitude yaw => exact .here ⟨hreached, hpush, m, d, heq⟩
  | motion count =>
    refine .here ⟨hreached, hpush, m, d, heq.trans ?_⟩
    exact iteInduction (motive := fun q : PushBox ℚ =>
      ({ p with motion := m, data := d } : PushBox ℚ) = { q with motion := m, data := d })
      (fun _ => rfl) fun _ => rfl

/-- **A task that runs** can return: it is heard, so the task alone can reach its end, and the
    program can follow it there. -/
theorem Reached.can_release (h : Reached o b s) (hlook : b.push.mcx.Looking)
    (hpush : s.hand.Pushing) :
    CanReach (Program.act o) (fun t => Reached o b t ∧ t.hand.locate = .release) s := by
  have hcycle := h.sound.cycle
  have hreturn := (hcycle.pushing hpush).2.can_return ((h.tuned hlook).hears hcycle hpush)
  have hfollow : CanReach (Program.act o)
      (fun t => ∃ p : PushBox ℚ, p.pc = .done ∧ Follows o b p t) s :=
    hreturn.lift (fun p t a ht => ht.act a) ⟨h, hpush, _, _, rfl⟩
  refine hfollow.trans ?_
  rintro t ⟨p, hdone, hreached, hpush', m, d, heq⟩
  refine .next (.locate_box ⟨false, false, 0⟩) ⟨hreached.act _, ?_⟩
  show (t.hand.locate_box_entry _).locate = .release
  have hpc : t.hand.push.pc = .done := by
    rw [heq]
    exact hdone
  rw [Handover.locate_exit _ hpush' hpc]

/-! ## Onward -/

/-- The tracing thread follows the line. -/
def OnLine (s : Program ℚ) : Prop := s.hand.trace ∈ Phase.follow

/-- From everywhere that the program comes to with the tracing thread at one of these places it can come
    back to the line. -/
def Onward (o : Outside) (b : Boot ℚ) (pcs : List TracePc) : Prop :=
  Region (Program.act o) OnLine (Reached o b) (fun s => s.hand.trace) pcs

/-- Outside its driving code the thread takes the steps of `Handover`. -/
theorem act_along (hfinish : s.finish = none) (htrace : ¬ s.hand.Tracing) :
    (s.act o (.trace_line false lostPicture)).hand = s.hand.trace_line_entry ⟨id, false⟩ := by
  show (s.trace_line_entry o false lostPicture).hand = _
  rw [trace_line_entry, hfinish]
  cases hs : s.hand.trace with
  | Vision_Handle => exact absurd (Or.inl hs) htrace
  | trace_line_method => exact absurd (Or.inr hs) htrace
  | _ => rfl

/-- **A step of the tracing thread** on its way: off the line it is not in its driving code, so no
    frame is needed, and the run has not ended. -/
theorem Reached.trace_step (h : Reached o b s) (htrace : ¬ s.hand.Tracing) :
    (s.act o (.trace_line false lostPicture)).hand = s.hand.trace_line_entry ⟨id, false⟩ := by
  refine act_along (not_not.mp fun hfinish => ?_) htrace
  exact htrace (Or.inl (h.sound.finish hfinish))

variable {pcs : List TracePc}

theorem Onward.step (h : Onward o b pcs) (pc : TracePc)
    (hpc : pc ≠ .Vision_Handle ∧ pc ≠ .trace_line_method)
    (hnext : ∀ t : Handover ℚ, t.trace = pc → (t.trace_line_entry ⟨id, false⟩).trace ∈ pcs) :
    Onward o b (pc :: pcs) := by
  refine Region.cons h fun s hreached hs => Or.inl ?_
  have htrace : ¬ s.hand.Tracing := by
    rw [Handover.Tracing, hs]
    exact not_or.mpr hpc
  refine .next (.trace_line false lostPicture) ⟨hreached.act _, ?_⟩
  show (s.act o (.trace_line false lostPicture)).hand.trace ∈ pcs
  rw [hreached.trace_step htrace]
  exact hnext s.hand hs

/-- A step that leads to one place. -/
theorem Onward.next {pc' : TracePc} (h : Onward o b (pc' :: pcs)) (pc : TracePc)
    (hpc : pc ≠ .Vision_Handle ∧ pc ≠ .trace_line_method)
    (hnext : ∀ t : Handover ℚ, t.trace = pc → (t.trace_line_entry ⟨id, false⟩).trace = pc') :
    Onward o b (pc :: pc' :: pcs) := by
  refine h.step pc hpc fun t ht => ?_
  rw [hnext t ht]
  exact List.mem_cons_self

/-- A choice between two places. -/
theorem trace_ite {cond : Prop} [Decidable cond] {t t' : Handover ℚ} (ht : t.trace ∈ pcs)
    (ht' : t'.trace ∈ pcs) : (if cond then t else t').trace ∈ pcs :=
  iteInduction (motive := fun u : Handover ℚ => u.trace ∈ pcs) (fun _ => ht) fun _ => ht'

/-- **Once the turn has come back** only the time is taken: from behind its semaphore the tracing
    thread needs nobody else to come back to the loop. -/
theorem onward_tick : Onward o b
    [.tick, .pushFlag, .clearDetection, .timer, .Change_Mode, .clearPush, .loop] := by
  have hloop : Onward o b [.loop] := Region.nil.cons fun s _ hs => by
    refine Or.inr (.here ?_)
    rw [OnLine, hs]
    decide
  have hclear := hloop.next .clearPush (by decide) fun t ht => by
    rw [Handover.trace_line_entry, ht]
  have hmode := hclear.next .Change_Mode (by decide) fun t ht => by
    rw [Handover.trace_line_entry, ht]
  have htimer := hmode.step .timer (by decide) fun t ht => by
    rw [Handover.trace_line_entry, ht]
    exact trace_ite List.mem_cons_self (show TracePc.loop ∈ _ by decide)
  have hdetection := htimer.next .clearDetection (by decide) fun t ht => by
    rw [Handover.trace_line_entry, ht]
  have hflag := hdetection.next .pushFlag (by decide) fun t ht => by
    rw [Handover.trace_line_entry, ht]
  exact hflag.next .tick (by decide) fun t ht => by
    rw [Handover.trace_line_entry, ht]

/-- **A thread whose turn it is** goes past its semaphore: the token is there, or has been handed
    to it while it waited. -/
theorem Reached.back (h : Reached o b s) {stage : Semaphore.Stage}
    (hstage : s.hand.trace = .sem_take stage) (hturn : s.hand.Turn false) :
    CanReach (Program.act o) OnLine s := by
  have htrace : ¬ s.hand.Tracing := by
    rw [Handover.Tracing, hstage]
    exact not_or.mpr ⟨fun h => TracePc.noConfusion h, fun h => TracePc.noConfusion h⟩
  rw [Handover.Turn, hstage] at hturn
  obtain ⟨hnone, -⟩ := Turn.goes (k := stage) hturn
  refine .before (.trace_line false lostPicture) (onward_tick _ (h.act _) ?_)
  show (s.act o (.trace_line false lostPicture)).hand.trace ∈ _
  rw [h.trace_step htrace, Handover.trace_take _ hstage, hnone]
  exact List.mem_cons_self

/-- **The push-box thread hands back** with its next step, and then it is the tracing thread's
    turn, whether that waits already or is about to. -/
theorem Reached.released (h : Reached o b s) (hlocate : s.hand.locate = .release) :
    CanReach (Program.act o) OnLine s := by
  obtain ⟨φ, r, T, hphase⟩ := h.sound.cycle
  have hin := hphase.locate
  rw [hlocate] at hin
  obtain rfl : φ = .returned := by
    revert hin
    cases φ <;> decide
  obtain ⟨stage, hstage⟩ : ∃ stage, s.hand.trace = .sem_take stage := by
    rcases List.mem_pair.mp hphase.trace with htake | hwait
    · exact ⟨.take, htake⟩
    · exact ⟨.waiting, hwait⟩
  have hact : (s.act o (.locate_box ⟨false, false, 0⟩)).hand =
      { s.hand with
        locate := .sem_take .take
        trace_line_sem := s.hand.trace_line_sem.release RT_SEM_VALUE_MAX } := by
    show s.hand.locate_box_entry _ = _
    rw [Handover.locate_box_entry, hlocate]
  have hstage' : (s.act o (.locate_box ⟨false, false, 0⟩)).hand.trace = .sem_take stage := by
    rw [hact]
    exact hstage
  refine .before (.locate_box ⟨false, false, 0⟩) ((h.act _).back hstage' ?_)
  have hturn : s.hand.Turn true := hphase.turn
  rw [Handover.Turn, hlocate] at hturn
  rw [hact]
  exact Turn.pass (show 0 < RT_SEM_VALUE_MAX by decide) hturn

/-- **The push-box thread is called**: its next step enters the task, which can return and hand
    back. -/
theorem Reached.called (h : Reached o b s) (hlook : b.push.mcx.Looking)
    (hcall : s.hand.locate = .call) : CanReach (Program.act o) OnLine s := by
  obtain ⟨φ, r, T, hphase⟩ := h.sound.cycle
  refine .before (.locate_box ⟨false, false, 0⟩) ?_
  have hpush : (s.act o (.locate_box ⟨false, false, 0⟩)).hand.Pushing := by
    show (s.hand.locate_box_entry _).Pushing
    rw [Handover.locate_box_entry, hcall]
    dsimp only
    rw [if_pos hphase.debug]
    rfl
  exact ((h.act _).can_release hlook hpush).trans fun t ht => ht.1.released ht.2

/-- **A thread that waits** gets its turn, whoever has it now.  The cycle names the four places
    where the turn can be, and from each of them it comes back by the lemmas before this one. -/
theorem Reached.waits (h : Reached o b s) (hlook : b.push.mcx.Looking) {stage : Semaphore.Stage}
    (hstage : s.hand.trace = .sem_take stage) : CanReach (Program.act o) OnLine s := by
  obtain ⟨φ, r, T, hphase⟩ := h.sound.cycle
  have hin := hphase.trace
  rw [hstage] at hin
  have hφ : φ = .called ∨ φ = .pushing ∨ φ = .returned ∨ φ = .back := by
    revert hin
    cases φ <;> cases stage <;> decide
  rcases hφ with rfl | rfl | rfl | rfl
  · -- called: before its semaphore, or past it
    have hlocate := hphase.locate
    have hgoes : ∀ stage, s.hand.locate = .sem_take stage →
        CanReach (Program.act o) OnLine s := by
      intro stage hstage
      have hturn : s.hand.Turn true := hphase.turn
      rw [Handover.Turn, hstage] at hturn
      obtain ⟨hnone, -⟩ := Turn.goes (k := stage) hturn
      refine .before (.locate_box ⟨false, false, 0⟩) ((h.act _).called hlook ?_)
      show (s.hand.locate_box_entry _).locate = .call
      rw [Handover.locate_take _ hstage, hnone]
      rfl
    simp only [Phase.locate, List.mem_cons, List.not_mem_nil, or_false] at hlocate
    rcases hlocate with hstage | hstage | hcall
    · exact hgoes _ hstage
    · exact hgoes _ hstage
    · exact h.called hlook hcall
  · -- pushing
    have hpush : s.hand.Pushing := List.mem_singleton.mp hphase.locate
    exact (h.can_release hlook hpush).trans fun t ht => ht.1.released ht.2
  · -- returned
    exact h.released (List.mem_singleton.mp hphase.locate)
  · -- back
    exact h.back hstage hphase.turn

/-- **From every place**: the places off the line are passed in a fixed order, so it is enough to
    go through them backwards, each by one step of the tracing thread to the next; only at the
    semaphore the others have to move. -/
theorem onward (hlook : b.push.mcx.Looking) : Onward o b TracePc.off := by
  -- backwards from the places behind the semaphore to the detection before it
  have hwaiting : Onward o b (.sem_take .waiting :: _) :=
    Region.cons onward_tick fun s h hs => Or.inr (h.waits hlook hs)
  have htake : Onward o b (.sem_take .take :: _) :=
    Region.cons hwaiting fun s h hs => Or.inr (h.waits hlook hs)
  have hrelease := htake.next .release (by decide) fun t ht => by
    rw [Handover.trace_line_entry, ht]
  have hdelay := hrelease.next .stopDelay (by decide) fun t ht => by
    rw [Handover.trace_line_entry, ht]
  have hstop := hdelay.next .stop (by decide) fun t ht => by
    rw [Handover.trace_line_entry, ht]
  have hdetection := hstop.step .detection (by decide) fun t ht => by
    rw [Handover.trace_line_entry, ht]
    exact trace_ite List.mem_cons_self (show TracePc.timer ∈ _ by decide)
  exact hdetection.mono (by decide)

/-- **Onward** — after every run of the steps of `Program.Action`, from the link as `MCX_UART_Init` leaves
    it, there is a continuation, of the same kind of steps, in which the tracing thread is back at the
    line, and no push task runs. -/
theorem line_again (o : Outside) (b : Boot ℚ) (as : List (Action ℚ)) (m : MCX)
    (h : b.push.mcx = MCX_UART_Init m) :
    ∃ bs : List (Action ℚ), (b.start.run o (as ++ bs)).hand.trace ∈ Phase.follow ∧
      ¬ (b.start.run o (as ++ bs)).hand.Pushing := by
  have hlook : b.push.mcx.Looking := by
    rw [h]
    exact Or.inl rfl
  have hreached : Reached o b (b.start.run o as) := ⟨as, rfl⟩
  have hback : CanReach (Program.act o) OnLine (b.start.run o as) := by
    by_cases hline : (b.start.run o as).hand.trace ∈ Phase.follow
    · exact .here hline
    · exact onward hlook _ hreached (TracePc.mem_off hline)
  obtain ⟨bs, hbs⟩ := hback
  have hline : (b.start.run o (as ++ bs)).hand.trace ∈ Phase.follow := by
    rw [run_append]
    exact hbs
  refine ⟨bs, hline, (run_cycle b (as ++ bs)).not_pushing fun stage hstage => ?_⟩
  rw [hstage] at hline
  revert hline
  cases stage <;> decide

/-- The push task has cleared the class and waits, and a frame has come too early. -/
def earlyRun : List (Action ℚ) :=
  [PushBox.Action.centred].filterMap Action.ofPush ++
    List.replicate 6 (.trace_line false lostPicture) ++
    (PushBox.Action.steps 2 false ++ PushBox.Action.early ++
      PushBox.Action.steps 1 false).filterMap Action.ofPush

theorem line_again_early :
    ∃ bs : List (Action ℚ),
      (Boot.parked.start.run .reads (earlyRun ++ bs)).hand.trace ∈ Phase.follow ∧
        ¬ (Boot.parked.start.run .reads (earlyRun ++ bs)).hand.Pushing :=
  line_again .reads Boot.parked earlyRun MCX.zero rfl

example : (Boot.parked.start.run .reads earlyRun).hand.Pushing ∧
    (Boot.parked.start.run .reads earlyRun).hand.push.pc = .wait :=
  ⟨by rw [Handover.Pushing]; decide +kernel, by decide +kernel⟩

end Program

end Car2025
