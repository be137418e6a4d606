/-
  What the page of results tells about the run.

  1. **Classified (`Program.classified`)** — the classes that the push tasks of a run add to the record.

  2. **Tally (`Program.Tally`)** — the record holds just these, and there is one for every task that has
     returned, and one for a task that has come past its classification.

  3. **Result (`results_shown`)** — so at the end the page shows one entry for every push task, in their
     order.
-/
import Mathlib
import Car2025.Display.Reading
import Car2025.Whole.Finish

namespace Car2025

/-! ## Classified -/

def PushEvent.isAdd : PushEvent → Bool
  | .Class_Add _ _ => true
  | _ => false

def HandoverEvent.isExit : HandoverEvent → Bool
  | .exit _ => true
  | _ => false

section

variable {R : Type} [CFloat R] {calls : List UInt8} {c : Classes} {Class : UInt8}

/-- Only the step `add` touches the record. -/
theorem PushBox.thread_classes (i : PushInput) (p : PushBox R) :
    (p.thread i).classes =
      if p.pc = .add then (Class_Add i.junk (Art_GetData p.art) p.classes).2 else p.classes := by
  rw [PushBox.thread]
  cases p.pc with
  | loop | image | flag | seekX | angleX | angleY | wait | vote | poll | compare | voted | shouldPush |
      pushX | low | high =>
    dsimp only
    split <;> rfl
  | _ => rfl

/-- And it logs the call. -/
theorem PushBox.thread_adds (i : PushInput) (p : PushBox R) :
    (p.thread i).log.countP PushEvent.isAdd =
      p.log.countP PushEvent.isAdd + if p.pc = .add then 1 else 0 := by
  rw [PushBox.thread]
  cases p.pc with
  | loop | image | flag | seekX | angleX | angleY | wait | vote | poll | compare | voted | shouldPush |
      pushX | low | high =>
    dsimp only
    split <;> rfl
  | add => exact List.countP_cons_of_pos rfl
  | _ => rfl

/-- One more call. -/
theorem Recorded.add (h : Recorded c calls) (hle : Class ≤ Class_Sound) (hlt : calls.length < 255)
    (junk : UInt8) : Recorded (Class_Add junk Class c).2 (calls ++ [Class]) := by
  obtain ⟨hinfo, hnumber⟩ : (Class_Add junk Class c).2.Class_Info = _ ∧ _ := Class_Add_eq hle c
  constructor
  · rw [hnumber, UInt8.toNat_add, h.number, List.length_append, List.length_singleton]
    exact Nat.mod_eq_of_lt (by simpa using by omega)
  · intro i Class' hi
    rw [hinfo, h.number]
    -- the new entry comes right behind the old ones
    rcases Nat.lt_trichotomy i calls.length with hbefore | rfl | hafter
    · rw [List.getElem?_append_left hbefore] at hi
      rw [Function.update_of_ne hbefore.ne]
      exact h.small i Class' hi
    · rw [List.getElem?_concat_length] at hi
      obtain rfl := Option.some.inj hi
      rw [Function.update_self, Class_entry]
    · have hnone : (calls ++ [Class])[i]? = none := by
        apply List.getElem?_eq_none
        rw [List.length_append, List.length_singleton]
        omega
      rw [hnone] at hi
      cases hi

end

namespace Program

variable {o : Outside} {s : Program ℚ} {calls : List UInt8}

/-- The class that a step adds. -/
def classifies (s : Program ℚ) : Action ℚ → List UInt8
  | .locate_box _ =>
    if s.hand.locate = .direction_correction_test1 ∧ s.hand.push.pc = .add then
      [Art_GetData s.hand.push.art]
    else []
  | _ => []

/-- The classes that a run adds. -/
def classified (o : Outside) : Program ℚ → List (Action ℚ) → List UInt8
  | _, [] => []
  | s, a :: as => s.classifies a ++ classified o (s.act o a) as

theorem classified_append (as : List (Action ℚ)) (bs : List (Action ℚ)) : ∀ s : Program ℚ,
    s.classified o (as ++ bs) = s.classified o as ++ (s.run o as).classified o bs := by
  induction as with
  | nil => exact fun _ => rfl
  | cons a as ih =>
    intro s
    rw [List.cons_append, classified, classified, ih, List.append_assoc]
    rfl

/-! ## Tally -/

/-- How many classes the running task has added. -/
def adding (s : Program ℚ) : ℕ :=
  if s.hand.locate = .direction_correction_test1 then s.hand.push.log.countP PushEvent.isAdd else 0

theorem adding_of_pushing (h : s.hand.Pushing) :
    s.adding = s.hand.push.log.countP PushEvent.isAdd := if_pos h

theorem adding_of_not_pushing (h : ¬ s.hand.Pushing) : s.adding = 0 := if_neg h

/-- The record after these calls.  The second part is what ties the record to the tasks: a task
    logs its one call of `Class_Add`, and when it returns that call is counted with its exit. -/
structure Tally (s : Program ℚ) (calls : List UInt8) : Prop where
  recorded : (∀ Class ∈ calls, Class ≤ Class_Sound) → calls.length ≤ 255 →
    Recorded s.hand.push.classes calls
  count : calls.length = s.hand.log.countP HandoverEvent.isExit + s.adding

/-- A step that adds nothing. -/
theorem Tally.keep {s' : Program ℚ} (h : s.Tally calls)
    (hclasses : s'.hand.push.classes = s.hand.push.classes)
    (hcount : s'.hand.log.countP HandoverEvent.isExit + s'.adding =
      s.hand.log.countP HandoverEvent.isExit + s.adding) : s'.Tally (calls ++ []) := by
  rw [List.append_nil]
  refine ⟨fun hcodes hle => ?_, h.count.trans hcount.symm⟩
  rw [hclasses]
  exact h.recorded hcodes hle

/-- **A step of the push task** adds the class that `classifies` names, and logs the call; every
    other step leaves both. -/
theorem Tally.thread (h : s.Tally calls) (hpush : s.hand.Pushing) (hdone : s.hand.push.pc ≠ .done)
    (i : PushInput) : (s.act o (.locate_box i)).Tally (calls ++ s.classifies (.locate_box i)) := by
  have hact : (s.act o (.locate_box i)).hand = { s.hand with push := s.hand.push.thread i } :=
    Handover.locate_thread i hpush hdone
  have hpush' : (s.act o (.locate_box i)).hand.Pushing := by
    rw [hact]
    exact hpush
  have hcount := h.count
  rw [adding_of_pushing hpush] at hcount
  have hclasses := PushBox.thread_classes i s.hand.push
  have hadds := PushBox.thread_adds i s.hand.push
  have hcall : s.classifies (.locate_box i) =
      if s.hand.push.pc = .add then [Art_GetData s.hand.push.art] else [] :=
    if_congr (and_iff_right hpush) rfl rfl
  rw [hcall]
  -- the step that adds a class logs it, every other step leaves both
  by_cases hadd : s.hand.push.pc = .add
  · rw [if_pos hadd] at hclasses hadds ⊢
    refine ⟨fun hcodes hle => ?_, ?_⟩
    · rw [List.length_append, List.length_singleton] at hle
      rw [hact, hclasses]
      refine (h.recorded (fun Class hC => hcodes Class (List.mem_append_left _ hC)) (by omega)).add
        (hcodes _ List.mem_concat_self) (by omega) i.junk
    · rw [adding_of_pushing hpush', hact, List.length_append, List.length_singleton, hcount, hadds]
      exact Nat.add_assoc _ _ _
  · rw [if_neg hadd] at hclasses hadds ⊢
    refine h.keep ?_ ?_
    · rw [hact, hclasses]
    · rw [adding_of_pushing hpush', adding_of_pushing hpush, hact, hadds, Nat.add_zero]

/-- **A step of the push-box thread**: the classes of a task that has returned are counted with it.
    By its story a task that comes to its end has exactly one call of `Class_Add` in its log, so
    the count stays the same when the exit takes its place. -/
theorem Tally.locate (h : s.Tally calls) (hsound : s.Sound) (i : PushInput) :
    (s.act o (.locate_box i)).Tally (calls ++ s.classifies (.locate_box i)) := by
  by_cases hpush : s.hand.Pushing
  swap
  · rw [classifies, if_neg fun hboth => hpush hboth.1]
    have hzero : s.adding = 0 := adding_of_not_pushing hpush
    -- away from the task it can only come to it, with an empty log
    have hpart : (s.hand.locate_box_entry i).push.classes = s.hand.push.classes ∧
        (s.hand.locate_box_entry i).log.countP HandoverEvent.isExit =
          s.hand.log.countP HandoverEvent.isExit ∧
        ((s.hand.locate_box_entry i).Pushing → (s.hand.locate_box_entry i).push.log = []) := by
      rw [Handover.Pushing] at hpush
      rw [Handover.locate_box_entry, Handover.Pushing]
      cases hlocate : s.hand.locate with
      | sem_take stage =>
        refine ⟨rfl, rfl, fun hnow => ?_⟩
        dsimp only at hnow
        generalize (s.hand.locate_box_sem.take .locate_box stage).1 = stage' at hnow
        cases stage' <;> cases hnow
      | call =>
        dsimp only
        split
        · exact ⟨rfl, rfl, fun _ => rfl⟩
        · exact ⟨rfl, rfl, fun hnow => LocatePc.noConfusion hnow⟩
      | direction_correction_test1 => exact absurd hlocate hpush
      | release => exact ⟨rfl, rfl, fun hnow => LocatePc.noConfusion hnow⟩
    obtain ⟨hclasses, hexits, hfresh⟩ := hpart
    refine h.keep hclasses ?_
    have hzero' : (s.act o (.locate_box i)).adding = 0 := by
      by_cases hnow : (s.act o (.locate_box i)).hand.Pushing
      · rw [adding_of_pushing hnow]
        exact congrArg (List.countP PushEvent.isAdd) (hfresh hnow)
      · exact adding_of_not_pushing hnow
    rw [hzero, hzero']
    exact congrArg (· + 0) hexits
  · by_cases hdone : s.hand.push.pc = .done
    swap
    · exact h.thread hpush hdone i
    -- the task returns, with one class in its log
    obtain ⟨-, htold⟩ := hsound.cycle.pushing hpush
    obtain ⟨c, d, hstory⟩ := htold.finished_of_done hdone
    have hone : s.adding = 1 := by
      rw [adding_of_pushing hpush, hstory.log]
      rfl
    have hact : (s.act o (.locate_box i)).hand =
        { s.hand with locate := .release, log := .exit s.hand.now :: s.hand.log } :=
      Handover.locate_exit i hpush hdone
    have hzero : (s.act o (.locate_box i)).adding = 0 := by
      refine adding_of_not_pushing fun hnow => ?_
      rw [hact] at hnow
      exact LocatePc.noConfusion hnow
    rw [classifies, if_neg fun hboth => by rw [hdone] at hboth; exact Pc.noConfusion hboth.2]
    refine h.keep (by rw [hact]) ?_
    rw [hzero, hone, hact, List.countP_cons_of_pos rfl]

/-- The tracing thread has no part in it. -/
theorem trace_line_entry_record (i : TraceInput ℚ) (s : Handover ℚ) :
    (s.trace_line_entry i).push.classes = s.push.classes ∧
      (s.trace_line_entry i).push.log = s.push.log ∧
      (s.trace_line_entry i).log.countP HandoverEvent.isExit =
        s.log.countP HandoverEvent.isExit := by
  rw [Handover.trace_line_entry]
  cases s.trace with
  | loop | detection | timer =>
    dsimp only
    split <;> exact ⟨rfl, rfl, rfl⟩
  | _ => exact ⟨rfl, rfl, rfl⟩

/-- **One step** keeps it, with the class that the step adds, if it is the one that adds. -/
theorem Tally.act (h : s.Tally calls) (hsound : s.Sound) (a : Action ℚ) :
    (s.act o a).Tally (calls ++ s.classifies a) := by
  cases a with
  | trace_line working c =>
    have hhand := (trace_line_entry_cases (o := o) (s := s) working c).hand
    have hact : s.act o (.trace_line working c) = s.trace_line_entry o working c := rfl
    rw [hact]
    generalize s.trace_line_entry o working c = s' at hhand ⊢
    obtain hhand | ⟨i, hhand⟩ := hhand
    · exact h.keep (by rw [hhand]) (by rw [adding, hhand, ← adding])
    · obtain ⟨hclasses, hlog, hexits⟩ := trace_line_entry_record i s.hand
      obtain ⟨hlocate, -⟩ := Handover.trace_line_entry_push i s.hand
      rw [← hhand] at hclasses hlog hexits hlocate
      exact h.keep hclasses (by rw [adding, hexits, hlog, hlocate, ← adding])
  | locate_box i => exact h.locate hsound i
  | _ => exact h.keep rfl rfl

theorem run_tally (b : Boot ℚ) (hempty : b.push.classes.Class_Number = 0) (as : List (Action ℚ)) :
    (b.start.run o as).Tally (b.start.classified o as) := by
  induction as using List.reverseRecOn with
  | nil =>
    refine ⟨fun _ _ => ⟨?_, fun i Class hi => ?_⟩, rfl⟩
    · exact congrArg UInt8.toNat hempty
    · cases hi
  | append_singleton as a ih =>
    rw [run_concat, classified_append, classified, classified, List.append_nil]
    exact ih.act (run_sound b as) a

/-! ## Result -/

/-- **Results** — in every run of the steps of `Program.Action` that begins with an empty record, with up
    to 24 classes added by its push tasks, all from 1 to `Class_Sound`: the page of results, whatever time it shows,
    shows them in their order, each with its number, and no others; and whenever the push task does not
    run there is one for every push task that has returned. -/
theorem results_shown (o : Outside) (b : Boot ℚ) (as : List (Action ℚ))
    (hempty : b.push.classes.Class_Number = 0)
    (hcodes : ∀ Class ∈ b.start.classified o as, 0 < Class ∧ Class ≤ Class_Sound)
    (hle : (b.start.classified o as).length ≤ 24) :
    (∀ time : ℚ≥0, ∃ ws, result_page (b.start.run o as).hand.push.classes time = some ws ∧
      ∀ i < 24, entry_at ws i =
        (b.start.classified o as)[i]?.map fun Class => (i + 1, Class)) ∧
    (¬ (b.start.run o as).hand.Pushing →
      (b.start.classified o as).length =
        (b.start.run o as).hand.log.countP HandoverEvent.isExit) := by
  have htally := run_tally (o := o) b hempty as
  constructor
  · have hrecorded := htally.recorded (fun Class hC => (hcodes Class hC).2) (by omega)
    intro time
    obtain ⟨ws, hws, hentries, -⟩ := hrecorded.read hcodes hle time
    exact ⟨ws, hws, hentries⟩
  · intro hpush
    rw [htally.count, adding_of_not_pushing hpush, Nat.add_zero]

/-! ## A wrench -/

/-- A step or an interrupt of the push task, in the program.  What moves the car there stands for the
    car's thread, which the program has as a step of its own. -/
def Action.ofPush : PushBox.Action ℚ → Option (Action ℚ)
  | .thread i => some (.locate_box i)
  | .mcx bytes => some (.mcx bytes)
  | .art bytes => some (.art bytes)
  | .image => some .image
  | .attitude _ | .motion _ => none

/-- The camera reports a picture, the tracing thread hands over, and the push task finds a wrench, pushes
    it away and returns. -/
def wrenchRun : List (Action ℚ) :=
  [PushBox.Action.centred].filterMap Action.ofPush ++
    List.replicate 6 (.trace_line false lostPicture) ++
    (PushBox.Action.steps 2 false ++ PushBox.Action.pushWrench ++
      PushBox.Action.steps 1 false).filterMap Action.ofPush

theorem results_shown_wrench :
    (∀ time : ℚ≥0, ∃ ws,
      result_page (Boot.parked.start.run .reads wrenchRun).hand.push.classes time = some ws ∧
      ∀ i < 24, entry_at ws i =
        (Boot.parked.start.classified .reads wrenchRun)[i]?.map fun Class => (i + 1, Class)) ∧
    (¬ (Boot.parked.start.run .reads wrenchRun).hand.Pushing →
      (Boot.parked.start.classified .reads wrenchRun).length =
        (Boot.parked.start.run .reads wrenchRun).hand.log.countP HandoverEvent.isExit) :=
  results_shown .reads Boot.parked wrenchRun rfl (by decide +kernel) (by decide +kernel)

/-- The one class of that run. -/
example : Boot.parked.start.classified .reads wrenchRun = [Class_Wrench] := by decide +kernel

end Program

end Car2025
