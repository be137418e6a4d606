/-
  The classification: three equal classes in a row, read while frames arrive.

  1. **Flow (`thread_pc`)** — which step follows which, whatever the data; and what a step does to
     the classifying link: nothing, or a clear.

  2. **Vote (`Vote`)** — while the task counts, what `Art_GetData` returns is the class that matched,
     or the class of the last frame that arrived since (`since`).

  3. **Agreement (`added_agrees_iff`)** — the class is read once more after the third match; the one
     that is added is the one that matched exactly when no frame of another class came in between.
-/
import Mathlib
import Car2025.Lib.Runs
import Car2025.PushBox.Story

namespace Car2025

open Runs Speed_Con_Right Angle_State

/-! ## Flow -/

/-- The steps that can follow a step. -/
def Pc.next : Pc → List Pc
  | .start => [.right]
  | .right => [.loop]
  | .loop => [.done, .image]
  | .image => [.verdict, .flag]
  | .verdict => [.clearImage]
  | .clearImage => [.flag]
  | .flag => [.seek, .angle, .location, .push, .delay]
  | .seek => [.seekX]
  | .seekX => [.clearFlag]
  | .angle => [.angleX]
  | .angleX => [.angleY, .clearFlag]
  | .angleY => [.angleStop, .clearFlag]
  | .angleStop => [.angleState]
  | .angleState => [.dataClear]
  | .dataClear => [.wait]
  | .wait => [.wait, .first]
  | .first => [.firstClear]
  | .firstClear => [.vote]
  | .vote => [.poll, .add]
  | .poll => [.compare, .vote]
  | .compare => [.voted, .reload]
  | .reload => [.voted]
  | .voted => [.vote]
  | .add => [.addClear]
  | .addClear => [.clearFlag]
  | .location => [.shouldPush]
  | .shouldPush => [.locationStop, .clearFlag]
  | .locationStop => [.rotate0]
  | .rotate0 => [.clearFlag]
  | .push => [.pushX]
  | .pushX => [.ahead, .clearFlag]
  | .ahead => [.low]
  | .low => [.low, .high]
  | .high => [.high, .pushStop]
  | .pushStop => [.back]
  | .back => [.backStop]
  | .backStop => [.rotate]
  | .rotate => [.reset]
  | .reset => [.finish]
  | .finish => [.clearFlag]
  | .clearFlag => [.delay]
  | .delay => [.loop]
  | .done => [.done]

/-- The part of the program from the first wait to the call of `Class_Add`. -/
def classification : List Pc :=
  [.wait, .first, .firstClear, .vote, .poll, .compare, .reload, .voted, .add]

/-- It is entered through its `Art_DataClear` only. -/
theorem Pc.enters_classification (pc : Pc) (hpc : pc ∉ classification) (hne : pc ≠ .dataClear) :
    ∀ pc' ∈ pc.next, pc' ∉ classification := by
  revert hpc hne
  cases pc <;> decide

section

variable {R : Type} {s : PushBox R}

/-- A choice of the program between two steps. -/
theorem PushBox.ite_pc {p : Prop} [Decidable p] {a b : PushBox R} {l : List Pc} (pca pcb : Pc)
    (hl : pca ∈ l ∧ pcb ∈ l) (ha : a.pc = pca) (hb : b.pc = pcb) :
    (if p then a else b).pc ∈ l :=
  iteInduction (motive := fun s : PushBox R => s.pc ∈ l) (fun _ => ha ▸ hl.1) fun _ => hb ▸ hl.2

variable [CFloat R]

/-- **Flow**: one case per step of the program.  What is proved of the task by places only (that it
    comes to the classification by one way, that a pass ends at the head of the loop) is read off
    this table. -/
theorem PushBox.thread_pc (i : PushInput) (s : PushBox R) : (s.thread i).pc ∈ s.pc.next := by
  obtain ⟨pc, angle_state, _, _, _, _, _, _, _, _, _, _, _, _, _⟩ := s
  show (PushBox.thread i _).pc ∈ pc.next
  cases pc with
  | flag =>
    cases angle_state with
    | zero => exact ite_pc .seek .delay (by decide) rfl rfl
    | Angle_Correct => exact ite_pc .angle .delay (by decide) rfl rfl
    | Location_Correct => exact ite_pc .location .delay (by decide) rfl rfl
    | Push_Box => exact ite_pc .push .delay (by decide) rfl rfl
  | loop => exact ite_pc .done .image (by decide) rfl rfl
  | image => exact ite_pc .verdict .flag (by decide) rfl rfl
  | seekX => exact ite_pc .clearFlag .clearFlag (by decide) rfl rfl
  | angleX => exact ite_pc .angleY .clearFlag (by decide) rfl rfl
  | angleY => exact ite_pc .angleStop .clearFlag (by decide) rfl rfl
  | wait => exact ite_pc .wait .first (by decide) rfl rfl
  | vote => exact ite_pc .poll .add (by decide) rfl rfl
  | poll => exact ite_pc .compare .vote (by decide) rfl rfl
  | compare => exact ite_pc .voted .reload (by decide) rfl rfl
  | voted => exact ite_pc .vote .vote (by decide) rfl rfl
  | shouldPush => exact ite_pc .locationStop .clearFlag (by decide) rfl rfl
  | pushX => exact ite_pc .ahead .clearFlag (by decide) rfl rfl
  | low => exact ite_pc .low .high (by decide) rfl rfl
  | high => exact ite_pc .high .pushStop (by decide) rfl rfl
  | _ => exact List.mem_cons_self

/-- A step of the task leaves the classifying link, or clears it. -/
theorem PushBox.thread_art (i : PushInput) (s : PushBox R) :
    (s.thread i).art = s.art ∨ (s.thread i).art = Art_DataClear s.art := by
  have hite : ∀ {p : Prop} [Decidable p] {a b : PushBox R},
      (a.art = s.art ∨ a.art = Art_DataClear s.art) →
      (b.art = s.art ∨ b.art = Art_DataClear s.art) →
      ((if p then a else b).art = s.art ∨ (if p then a else b).art = Art_DataClear s.art) :=
    fun ha hb => iteInduction
      (motive := fun s' : PushBox R => s'.art = s.art ∨ s'.art = Art_DataClear s.art)
      (fun _ => ha) fun _ => hb
  obtain ⟨pc, _, _, _, _, _, _, _, _, _, _, _, _, _, _⟩ := s
  cases pc with
  | dataClear | firstClear | addClear => exact Or.inr rfl
  | voted => exact hite (Or.inr rfl) (Or.inl rfl)
  | loop | image | flag | seekX | angleX | angleY | wait | vote | poll | compare | shouldPush
  | pushX | low | high => exact hite (Or.inl rfl) (Or.inl rfl)
  | _ => exact Or.inl rfl

/-- It may log an event; a class only at `add`. -/
def PushBox.Silent (s s' : PushBox R) : Prop :=
  s'.log = s.log ∨ ∃ e, (∀ c d, e ≠ .Class_Add c d) ∧ s'.log = e :: s.log

/-- A step elsewhere than at `add` logs no class, and one event at most. -/
theorem PushBox.thread_silent (i : PushInput) (s : PushBox R) (hne : s.pc ≠ .add) :
    s.Silent (s.thread i) := by
  have hite : ∀ {p : Prop} [Decidable p] {a b : PushBox R},
      s.Silent a → s.Silent b → s.Silent (if p then a else b) :=
    fun ha hb => iteInduction (motive := s.Silent) (fun _ => ha) fun _ => hb
  have hturn : ∀ a pc, s.Silent (s.turn a pc) :=
    fun a _ => Or.inr ⟨.angle_state a, fun _ _ => PushEvent.noConfusion, rfl⟩
  obtain ⟨pc, _, _, _, _, _, _, _, _, _, _, _, _, _, _⟩ := s
  cases pc with
  | add => exact absurd rfl hne
  | angleState => exact hturn _ _
  | seekX | shouldPush => exact hite (hturn _ _) (Or.inl rfl)
  | ahead => exact Or.inr ⟨.push_box _, fun _ _ => PushEvent.noConfusion, rfl⟩
  | loop | image | flag | angleX | angleY | wait | vote | poll | compare | voted | pushX | low
  | high => exact hite (Or.inl rfl) (Or.inl rfl)
  | _ => exact Or.inl rfl

end

/-! ## Frames -/

/-- The receiver is between two frames. -/
def Art.Between (a : Art) : Prop := a.rx.count = 0 ∧ a.rx.rx_state = false

/-- **A frame from there is read whole**, and leaves the receiver between two frames: the head
    opens it, the class stands at position 1, and the tail publishes it. -/
theorem Art.Between.frame {a : Art} (h : a.Between) {c : UInt8} (hc : c ≠ BUFFER_TAIL) :
    (a.feed (Art.frame c)).Between ∧ Art_GetData (a.feed (Art.frame c)) = c := by
  obtain ⟨⟨count, rx_state, buffer⟩, data⟩ := a
  obtain ⟨hcount, hstate⟩ := h
  obtain rfl : count = 0 := hcount
  obtain rfl : rx_state = false := hstate
  have hfeed : (⟨⟨0, false, buffer⟩, data⟩ : Art).feed (Art.frame c) =
      Art_uart_callback BUFFER_TAIL (Art_uart_callback c (Art_uart_callback BUFFER_HEAD
        ⟨⟨0, false, buffer⟩, data⟩)) := rfl
  rw [hfeed, Art_uart_callback_of_ne BUFFER_HEAD_ne_TAIL,
    Art_uart_callback_of_ne hc, Art_uart_callback_tail]
  refine ⟨⟨rfl, rfl⟩, ?_⟩
  have hopen : (Framing.Rx.receive Art_format BUFFER_HEAD ⟨0, false, buffer⟩).rx_state = true := rfl
  show ((Framing.Rx.receive Art_format BUFFER_HEAD ⟨0, false, buffer⟩).receive Art_format c).buffer
    1 = c
  rw [Framing.Rx.receive_open hopen hc]
  exact Framing.Rx.store_buffer_count _ c

namespace PushBox.Action

variable {R : Type}

/-- Bytes of the classifying camera come as whole frames, with a class that `P` admits. -/
def Framed (P : UInt8 → Prop) : Action R → Prop
  | .art bytes => ∃ c, P c ∧ c ≠ BUFFER_TAIL ∧ bytes = Art.frame c
  | _ => True

instance (P : UInt8 → Prop) [DecidablePred P] (a : Action R) : Decidable (a.Framed P) :=
  match a with
  | .art bytes =>
    decidable_of_iff (P (bytes.getD 1 0) ∧ bytes.getD 1 0 ≠ BUFFER_TAIL ∧
        bytes = Art.frame (bytes.getD 1 0))
      ⟨fun h => ⟨_, h⟩, fun ⟨_, hP, hc, hbytes⟩ => hbytes ▸ ⟨hP, hc, rfl⟩⟩
  | .thread _ | .mcx _ | .image | .attitude _ | .motion _ => isTrue trivial

end PushBox.Action

/-! ## Arrivals -/

section

variable {R : Type} {s t : PushBox R} {P : UInt8 → Prop}

open PushBox

section

variable [CFloat R]

/-- The classes of the frames that arrived since the last comparison, with the state. -/
def sinceCompare (p : PushBox R × List UInt8) (a : PushBox.Action R) : PushBox R × List UInt8 :=
  (p.1.act a,
    match a with
    | .thread _ => if p.1.pc = .compare then [] else p.2
    | .art bytes => p.2 ++ (bytes.drop 1).take 1
    | _ => p.2)

/-- The classes that arrived since the last comparison of the run. -/
def since (s : PushBox R) (as : List (PushBox.Action R)) : List UInt8 :=
  (as.foldl sinceCompare (s, [])).2

theorem since_fst (s : PushBox R) (as : List (PushBox.Action R)) :
    (as.foldl sinceCompare (s, [])).1 = s.run as := by
  induction as using List.reverseRecOn with
  | nil => rfl
  | append_singleton as a ih =>
    rw [List.foldl_append, run_concat, ← ih]
    rfl

theorem since_concat (s : PushBox R) (as : List (PushBox.Action R)) (a : PushBox.Action R) :
    since s (as ++ [a]) = (sinceCompare (s.run as, since s as) a).2 := by
  rw [since, List.foldl_append, ← since_fst]
  rfl

end

/-! ## The vote -/

/-- The steps at which fewer than three matches have been counted. -/
def counting : List Pc := [.wait, .first, .firstClear, .poll, .compare, .reload]

/-- The steps after a comparison, up to the read of the class that is added. -/
def comparing : List Pc := [.voted, .vote, .add]

/-- What the classification keeps, with the classes that arrived since the last comparison: the
    receiver is between two frames, the count is below three wherever the task still counts and
    three where it adds, and from a third match on the class in the link is the one compared, or
    the last that arrived after it. -/
structure Vote (s : PushBox R) (arrived : List UInt8) : Prop where
  between : s.art.Between
  counting : s.pc ∈ counting → s.tick < 3
  added : s.pc = .add → 3 ≤ s.tick
  matched : s.pc ∈ comparing → 3 ≤ s.tick → Art_GetData s.art = arrived.getLast?.getD s.Class

variable {arrived : List UInt8}

/-- Outside the classification there is nothing to keep but the receiver. -/
theorem Vote.of_not_mem (h : s.art.Between) (hpc : s.pc ∉ classification) : Vote s arrived where
  between := h
  counting := fun hin => absurd ((show Car2025.counting ⊆ classification by decide) hin) hpc
  added := fun hadd => absurd (hadd ▸ show Pc.add ∈ classification by decide) hpc
  matched := fun hin => absurd ((show comparing ⊆ classification by decide) hin) hpc

/-- While it counts the task has not seen three matches, and nothing is said of the class in the
    link. -/
theorem Vote.of_counting (h : s.art.Between) (pc : Pc) (hpc : s.pc = pc) (hin : pc ∉ comparing)
    (ht : s.tick < 3) : Vote s arrived where
  between := h
  counting := fun _ => ht
  added := fun hadd => by
    obtain rfl : pc = .add := hpc.symm.trans hadd
    exact absurd (by decide) hin
  matched := fun hmem => absurd (hpc ▸ hmem) hin

theorem Vote.of_comparing (h : s.art.Between) (pc : Pc) (hpc : s.pc = pc)
    (hin : pc ∉ Car2025.counting ∧ pc ≠ .add)
    (hm : 3 ≤ s.tick → Art_GetData s.art = arrived.getLast?.getD s.Class) : Vote s arrived where
  between := h
  counting := fun hmem => absurd (hpc ▸ hmem) hin.1
  added := fun hadd => absurd (hpc.symm.trans hadd) hin.2
  matched := fun _ => hm

/-- A choice of the program. -/
theorem Vote.ite {p : Prop} [Decidable p] {a b : PushBox R} (ha : p → Vote a arrived)
    (hb : ¬ p → Vote b arrived) : Vote (if p then a else b) arrived :=
  iteInduction (motive := fun s => Vote s arrived) ha hb

variable [CFloat R]

/-- The link stays between two frames while the task takes a step. -/
theorem Art.Between.thread (h : s.art.Between) (i : PushInput) : (s.thread i).art.Between := by
  rcases thread_art i s with hart | hart
  · rw [hart]
    exact h
  · rw [hart]
    exact h

/-- **One step of the classification** keeps the vote.  The comparison makes `matched` true, as
    nothing has arrived since; `voted` clears the link only below three, so a class that is to be
    added stays. -/
theorem Vote.classify (h : Vote s arrived) (i : PushInput) (hin : s.pc ∈ classification) :
    Vote (s.thread i) (sinceCompare (s, arrived) (.thread i)).2 := by
  obtain ⟨between, counting, added, matched⟩ := h
  obtain ⟨pc, _, _, _, _, tick, Class, _, _, art, _, _, _, _, _⟩ := s
  simp only [classification, List.mem_cons, List.not_mem_nil, or_false] at hin
  rcases hin with rfl | rfl | rfl | rfl | rfl | rfl | rfl | rfl | rfl
  · -- wait
    have ht : tick < 3 := counting (show Pc.wait ∈ _ by decide)
    exact Vote.ite (fun _ => of_counting between .wait rfl (by decide) ht)
      fun _ => of_counting between .first rfl (by decide) ht
  · -- first
    exact of_counting between .firstClear rfl (by decide) (counting (show Pc.first ∈ _ by decide))
  · -- firstClear
    have ht : tick < 3 := counting (show Pc.firstClear ∈ _ by decide)
    exact of_comparing between .vote rfl (by decide) fun h3 => absurd ht (not_lt.mpr h3)
  · -- vote
    exact Vote.ite (fun ht => of_counting between .poll rfl (by decide) ht)
      fun ht => ⟨between, fun hmem => absurd hmem (show Pc.add ∉ Car2025.counting by decide),
        fun _ => not_lt.mp ht, fun _ => matched (show Pc.vote ∈ _ by decide)⟩
  · -- poll
    have ht : tick < 3 := counting (show Pc.poll ∈ _ by decide)
    exact Vote.ite (fun _ => of_counting between .compare rfl (by decide) ht)
      fun _ => of_comparing between .vote rfl (by decide) fun h3 => absurd ht (not_lt.mpr h3)
  · -- compare: nothing has arrived since
    have ht : tick < 3 := counting (show Pc.compare ∈ _ by decide)
    exact Vote.ite (fun heq => of_comparing between .voted rfl (by decide) fun _ => heq.symm)
      fun _ => of_counting between .reload rfl (by decide) ht
  · -- reload
    exact of_comparing between .voted rfl (by decide) fun h3 =>
      absurd h3 (show ¬ 3 ≤ 0 by decide)
  · -- voted: a class that is to be added is not cleared
    exact Vote.ite
      (fun ht => of_comparing between .vote rfl (by decide)
        fun h3 => absurd ht (not_lt.mpr h3))
      fun _ => of_comparing between .vote rfl (by decide)
        (matched (show Pc.voted ∈ _ by decide))
  · -- add
    exact of_not_mem between (show Pc.addClear ∉ classification by decide)

/-- **One step of the task** keeps the vote: the classification is entered by `dataClear` only,
    which begins the count at zero. -/
theorem Vote.thread (h : Vote s arrived) (i : PushInput) :
    Vote (s.thread i) (sinceCompare (s, arrived) (.thread i)).2 := by
  by_cases hin : s.pc ∈ classification
  · exact h.classify i hin
  · by_cases hclear : s.pc = .dataClear
    · obtain ⟨pc, _, _, _, _, tick, Class, _, _, art, _, _, _, _, _⟩ := s
      obtain rfl : pc = .dataClear := hclear
      exact of_counting h.between .wait rfl (by decide) (show 0 < 3 by decide)
    · exact of_not_mem (h.between.thread i)
        (s.pc.enters_classification hin hclear _ (thread_pc i s))

/-- A frame is the class that counts from now on: the link then holds it, and it is the last one
    that arrived. -/
theorem Vote.frame (h : Vote s arrived) {c : UInt8} (hc : c ≠ BUFFER_TAIL) :
    Vote (s.act (.art (Art.frame c))) (sinceCompare (s, arrived) (.art (Art.frame c))).2 where
  between := (h.between.frame hc).1
  counting := h.counting
  added := h.added
  matched := fun _ _ => by
    rw [show (sinceCompare (s, arrived) (.art (Art.frame c))).2 = arrived ++ [c] from rfl,
      List.getLast?_concat, Option.getD_some]
    exact (h.between.frame hc).2

/-- **Every action** keeps the vote.  Only a frame of the Art can break `matched`, and it is put on
    the list of those that arrived. -/
theorem Vote.act (h : Vote s arrived) (a : PushBox.Action R) (ha : a.Framed P) :
    Vote (s.act a) (sinceCompare (s, arrived) a).2 := by
  cases a with
  | thread i => exact h.thread i
  | mcx bytes => exact ⟨h.between, h.counting, h.added, h.matched⟩
  | art bytes =>
    obtain ⟨c, -, hc, rfl⟩ := ha
    exact h.frame hc
  | image => exact ⟨h.between, h.counting, h.added, h.matched⟩
  | attitude yaw => exact ⟨h.between, h.counting, h.added, h.matched⟩
  | motion count =>
    exact Vote.ite (fun _ => ⟨h.between, h.counting, h.added, h.matched⟩) fun _ => h

/-- **Every run** keeps the vote, by induction on the run. -/
theorem Vote.run (h : s.art.Between) (as : List (PushBox.Action R)) (has : ∀ a ∈ as, a.Framed P) :
    Vote (s.enter.run as) (since s.enter as) := by
  induction as using List.reverseRecOn with
  | nil => exact of_not_mem h (show Pc.start ∉ classification by decide)
  | append_singleton as a ih =>
    rw [run_concat, since_concat]
    have ha : a.Framed P := has a (List.mem_append_right as List.mem_cons_self)
    exact (ih fun b hb => has b (List.mem_append_left [a] hb)).act a ha

/-! ## Agreement -/

/-- The action calls `Class_Add` with this class. -/
def Adds (s : PushBox R) (a : PushBox.Action R) (c : UInt8) : Prop :=
  ∃ side, (s.act a).log = .Class_Add c side :: s.log

/-- Only the step at `add` does, with what it reads. -/
theorem adds_iff {a : PushBox.Action R} {c : UInt8} :
    Adds s a c ↔ (∃ i, a = .thread i) ∧ s.pc = .add ∧ c = Art_GetData s.art := by
  constructor
  · rintro ⟨side, hlog⟩
    have hquiet : (s.act a).log ≠ s.log := by
      rw [hlog]
      exact List.cons_ne_self _ _
    -- An action that leaves the log as it is adds nothing; the thread writes an entry at `add`
    -- alone.
    cases a with
    | thread i =>
      by_cases hpc : s.pc = .add
      · refine ⟨⟨i, rfl⟩, hpc, ?_⟩
        obtain ⟨pc, _, _, _, _, _, _, _, _, _, _, _, _, _, _⟩ := s
        obtain rfl : pc = .add := hpc
        obtain ⟨hevent, -⟩ := List.cons.inj hlog
        exact (PushEvent.Class_Add.inj hevent).1.symm
      · rcases thread_silent i s hpc with hsame | ⟨e, he, hcons⟩
        · exact absurd hsame hquiet
        · exact absurd (List.cons.inj (hcons.symm.trans hlog)).1 (he c side)
    | mcx bytes => exact absurd rfl hquiet
    | art bytes => exact absurd rfl hquiet
    | image => exact absurd rfl hquiet
    | attitude yaw => exact absurd rfl hquiet
    | motion count =>
      have hsame : (s.act (.motion count)).log = s.log :=
        iteInduction (motive := fun s' : PushBox R => s'.log = s.log) (fun _ => rfl) fun _ => rfl
      exact absurd hsame hquiet
  · rintro ⟨⟨i, rfl⟩, hpc, rfl⟩
    obtain ⟨pc, _, _, _, _, _, _, _, _, _, _, _, _, _, _⟩ := s
    obtain rfl : pc = .add := hpc
    exact ⟨_, rfl⟩

/-- **The class that is added is the one that matched** three times, in every run in which the last
    frame before the call, if one came after the third match, has that class again; and in no
    other. -/
theorem added_agrees_iff (s : PushBox R) (as : List (PushBox.Action R)) (h : s.art.Between)
    (has : ∀ a ∈ as, a.Framed fun _ => True) :
    EachStep (fun pre a => ∀ c, Adds (s.enter.run pre) a c → c = (s.enter.run pre).Class) as ↔
    EachStep (fun pre a => ∀ i, a = .thread i → (s.enter.run pre).pc = .add →
      ∀ c ∈ (since s.enter pre).getLast?, c = (s.enter.run pre).Class) as := by
  apply eachStep_congr
  intro pre a hpre
  have hvote : Vote (s.enter.run pre) (since s.enter pre) :=
    Vote.run h pre fun b hb => has b (hpre.subset (List.mem_append_left [a] hb))
  constructor
  · intro hadds i ha hpc c hc
    have hread := hvote.matched (hpc ▸ show Pc.add ∈ comparing by decide) (hvote.added hpc)
    rw [Option.mem_def.mp hc, Option.getD_some] at hread
    exact hread ▸ hadds _ (adds_iff.mpr ⟨⟨i, ha⟩, hpc, rfl⟩)
  · intro hlast c hadds
    obtain ⟨⟨i, ha⟩, hpc, rfl⟩ := adds_iff.mp hadds
    rw [hvote.matched (hpc ▸ show Pc.add ∈ comparing by decide) (hvote.added hpc)]
    cases hsince : (since s.enter pre).getLast? with
    | none => rfl
    | some c => exact hlast i ha hpc c hsince

end

/-! ## A run in which a frame comes too late -/

namespace PushBox.Action

/-- The third wrench has matched; before the class is read again there is another picture. -/
def thirdMatch : List (PushBox.Action ℚ) :=
  centred :: steps 9 false ++ centred :: steps 13 false ++
    wrench :: steps 5 false ++ wrench :: steps 4 false ++ wrench :: steps 4 false ++
    wrench :: steps 3 false
def late : PushBox.Action ℚ := art (Art.frame 110)

end PushBox.Action

open PushBox PushBox.Action

theorem added_agrees_wrench :
    EachStep (fun pre a => ∀ c, Adds (parked.enter.run pre) a c →
      c = (parked.enter.run pre).Class) pushWrench ↔
    EachStep (fun pre a => ∀ i, a = .thread i → (parked.enter.run pre).pc = .add →
      ∀ c ∈ (since parked.enter pre).getLast?, c = (parked.enter.run pre).Class) pushWrench :=
  added_agrees_iff parked pushWrench ⟨rfl, rfl⟩ (by decide +kernel)

/-- **A wrench matches three times**, and a keyboard is added: its frame arrives between the third
    comparison and the read of the class that `Class_Add` is given. -/
theorem late_disagrees :
    (parked.art.Between ∧ ∀ a ∈ thirdMatch ++ late :: steps 2 false, a.Framed fun _ => True) ∧
    ¬ EachStep (fun pre a => ∀ c, Adds (parked.enter.run pre) a c →
      c = (parked.enter.run pre).Class) (thirdMatch ++ late :: steps 2 false) := by
  refine ⟨⟨⟨rfl, rfl⟩, by decide +kernel⟩, fun h => ?_⟩
  have hadds : Adds (parked.enter.run (thirdMatch ++ late :: steps 1 false))
      (thread ⟨true, false, 0⟩) 110 := ⟨0, by decide +kernel⟩
  have heq : (110 : UInt8) = (parked.enter.run (thirdMatch ++ late :: steps 1 false)).Class :=
    h _ _ ⟨[], by rw [List.append_nil, List.append_assoc]; rfl⟩ _ hadds
  exact absurd heq (by decide +kernel)

end Car2025
