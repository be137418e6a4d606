/-
  The wait before the classification: `while(Art_GetData());`.

  1. **Trapped (`Trapped`)** — the loop waits as long as there IS a class.  A frame that arrives
     between `Art_DataClear` and the first look at it leaves the task there, and frames with classes
     do not help.

  2. **Round (`CanAdd.round`)** — from the head of the vote one frame with a wrench counts one more
     match, or starts the count anew.

  3. **Progress (`add_reachable_iff`)** — from everywhere else in the classification such frames take
     the task to `Class_Add`.
-/
import Mathlib
import Car2025.PushBox.Vote

namespace Car2025

open PushBox

section

variable {R : Type} {s : PushBox R} {log : List PushEvent}

/-- In the classification no class has been added. -/
theorem Told.not_added (h : Told s) (hin : s.pc ∈ classification) (c d : UInt8) :
    PushEvent.Class_Add c d ∉ s.log := by
  obtain ⟨φ, c', d', h⟩ := h
  have hpc := h.pc
  obtain rfl : φ = .classifying := by
    revert hin hpc
    generalize s.pc = pc
    revert pc
    cases φ <;> decide
  rw [h.log]
  intro hmem
  simp only [Chapter.log, List.mem_cons, reduceCtorEq, List.not_mem_nil, or_false] at hmem

theorem PushBox.goto_goto (pc pc' : Pc) (s : PushBox R) : (s.goto pc).goto pc' = s.goto pc' := rfl

variable [CFloat R]

/-! ## Trapped -/

/-- The task waits, there is a class, and `log` is what it has done.  The wait ends when there is
    no class, and a class is taken away by the task itself or by a frame without one: so what is in
    the way of the task stays there. -/
structure Trapped (log : List PushEvent) (s : PushBox R) : Prop where
  pc : s.pc = .wait
  data : Art_GetData s.art ≠ 0
  between : s.art.Between
  log : s.log = log

theorem Trapped.thread (h : Trapped log s) (i : PushInput) : Trapped log (s.thread i) := by
  obtain ⟨hpc, hdata, hbetween, hlog⟩ := h
  obtain ⟨pc, _, _, _, _, _, _, _, _, art, _, _, _, _, _⟩ := s
  obtain rfl : pc = .wait := hpc
  exact iteInduction (motive := Trapped log) (fun _ => ⟨rfl, hdata, hbetween, hlog⟩)
    fun hnot => absurd hdata hnot

theorem Trapped.frame (h : Trapped log s) {c : UInt8} (hc : c ≠ BUFFER_TAIL) (h0 : c ≠ 0) :
    Trapped log (s.act (.art (Art.frame c))) := by
  obtain ⟨hbetween, hdata⟩ := h.between.frame hc
  exact ⟨h.pc, ne_of_eq_of_ne hdata h0, hbetween, h.log⟩

/-- **Nothing frees the task** but a frame without a class: its own step goes round in `wait`, a
    frame with a class only puts another in place, and nothing else touches the link. -/
theorem Trapped.act (h : Trapped log s) (a : PushBox.Action R) (ha : a.Framed (· ≠ 0)) :
    Trapped log (s.act a) := by
  cases a with
  | thread i => exact h.thread i
  | mcx bytes => exact ⟨h.pc, h.data, h.between, h.log⟩
  | art bytes =>
    obtain ⟨c, h0, hc, rfl⟩ := ha
    exact h.frame hc h0
  | image => exact ⟨h.pc, h.data, h.between, h.log⟩
  | attitude yaw => exact ⟨h.pc, h.data, h.between, h.log⟩
  | motion count =>
    exact iteInduction (motive := Trapped log) (fun _ => ⟨h.pc, h.data, h.between, h.log⟩)
      fun _ => h

theorem Trapped.run (as : List (PushBox.Action R)) (has : ∀ a ∈ as, a.Framed (· ≠ 0)) :
    ∀ {s : PushBox R}, Trapped log s → Trapped log (s.run as) := by
  induction as with
  | nil =>
    intro s h
    exact h
  | cons a as ih =>
    intro s h
    obtain ⟨ha, has⟩ := List.forall_mem_cons.mp has
    exact ih has (h.act a ha)

/-! ## Progress -/

/-- Frames with classes can take the task to `Class_Add`. -/
def CanAdd (s : PushBox R) : Prop :=
  ∃ more : List (PushBox.Action R), (∀ a ∈ more, a.Framed (· ≠ 0)) ∧
    ∃ c d, .Class_Add c d ∈ (s.run more).log

/-- **Backwards** over an action: the run to `Class_Add` is built from its end, one frame or one
    step of the task at a time. -/
theorem CanAdd.before (a : PushBox.Action R) (ha : a.Framed (· ≠ 0)) (h : CanAdd (s.act a)) :
    CanAdd s := by
  obtain ⟨more, hmore, hadd⟩ := h
  exact ⟨a :: more, List.forall_mem_cons.mpr ⟨ha, hmore⟩, hadd⟩

/-- A step of the task for which the inputs do not matter. -/
theorem CanAdd.step (h : CanAdd (s.thread ⟨false, false, 0⟩)) : CanAdd s :=
  h.before (.thread _) trivial

theorem CanAdd.of_add (hpc : s.pc = .add) : CanAdd s := by
  obtain ⟨side, hlog⟩ := (adds_iff (a := .thread ⟨false, false, 0⟩)).mpr ⟨⟨_, rfl⟩, hpc, rfl⟩
  refine ⟨[.thread ⟨false, false, 0⟩], List.forall_mem_singleton.mpr trivial, Art_GetData s.art,
    side, ?_⟩
  show _ ∈ (s.act (.thread ⟨false, false, 0⟩)).log
  rw [hlog]
  exact List.mem_cons_self

/-! ### The vote -/

theorem PushBox.thread_vote (i : PushInput) (hpc : s.pc = .vote) (ht : s.tick < 3) :
    s.thread i = s.goto .poll := by
  rw [PushBox.thread, hpc]
  exact if_pos ht

theorem PushBox.thread_vote_done (i : PushInput) (hpc : s.pc = .vote) (ht : ¬ s.tick < 3) :
    s.thread i = s.goto .add := by
  rw [PushBox.thread, hpc]
  exact if_neg ht

theorem PushBox.thread_poll (i : PushInput) (hpc : s.pc = .poll) (hd : Art_GetData s.art ≠ 0) :
    s.thread i = s.goto .compare := by
  rw [PushBox.thread, hpc]
  exact if_pos hd

theorem PushBox.thread_compare (i : PushInput) (hpc : s.pc = .compare)
    (heq : s.Class = Art_GetData s.art) :
    s.thread i = { s with pc := .voted, tick := s.tick + 1 } := by
  rw [PushBox.thread, hpc]
  exact if_pos heq

theorem PushBox.thread_compare_ne (i : PushInput) (hpc : s.pc = .compare)
    (hne : ¬ s.Class = Art_GetData s.art) : s.thread i = s.goto .reload := by
  rw [PushBox.thread, hpc]
  exact if_neg hne

theorem PushBox.thread_reload (i : PushInput) (hpc : s.pc = .reload) :
    s.thread i = { s with pc := .voted, Class := Art_GetData s.art, tick := 0 } := by
  rw [PushBox.thread, hpc]

theorem PushBox.thread_voted (i : PushInput) (hpc : s.pc = .voted) :
    (s.thread i).pc = .vote ∧ (s.thread i).tick = s.tick ∧ (s.thread i).Class = s.Class := by
  rw [PushBox.thread, hpc]
  exact iteInduction
    (motive := fun t : PushBox R => t.pc = .vote ∧ t.tick = s.tick ∧ t.Class = s.Class)
    (fun _ => ⟨rfl, rfl, rfl⟩) fun _ => ⟨rfl, rfl, rfl⟩

/-- After a comparison the task goes back to the head of the vote with what it has counted. -/
theorem CanAdd.of_voted (hb : s.art.Between) (hpc : s.pc = .voted)
    (h : ∀ t : PushBox R, t.art.Between → t.pc = .vote → t.Class = s.Class → t.tick = s.tick →
      CanAdd t) : CanAdd s := by
  apply CanAdd.step
  obtain ⟨hvote, htick, hclass⟩ := thread_voted ⟨false, false, 0⟩ hpc
  exact h _ (hb.thread _) hvote hclass htick

/-- A wrench that has arrived is one more match, or the first class of a new count. -/
theorem CanAdd.arrived (hb : s.art.Between) (hpc : s.pc = .vote) (ht : s.tick < 3)
    (hdata : Art_GetData s.art = Class_Wrench)
    (h : ∀ t : PushBox R, t.art.Between → t.pc = .vote → t.Class = Class_Wrench →
      t.tick = (if s.Class = Class_Wrench then s.tick + 1 else 0) → CanAdd t) : CanAdd s := by
  have hne : Art_GetData s.art ≠ 0 := by
    rw [hdata]
    decide
  apply CanAdd.step
  rw [thread_vote _ hpc ht]
  apply CanAdd.step
  rw [thread_poll (s := s.goto .poll) _ rfl hne, goto_goto]
  apply CanAdd.step
  by_cases heq : s.Class = Class_Wrench
  · rw [thread_compare (s := s.goto .compare) _ rfl (heq.trans hdata.symm)]
    refine CanAdd.of_voted hb rfl fun t hb hpc hclass htick => h t hb hpc (hclass.trans heq) ?_
    rw [if_pos heq]
    exact htick
  · rw [thread_compare_ne (s := s.goto .compare) _ rfl fun h => heq (h.trans hdata), goto_goto]
    apply CanAdd.step
    rw [thread_reload (s := s.goto .reload) _ rfl]
    refine CanAdd.of_voted hb rfl fun t hb hpc hclass htick => h t hb hpc (hclass.trans hdata) ?_
    rw [if_neg heq]
    exact htick

/-- **A frame with a wrench** always helps: it adds to the matches of a wrench, and it makes any
    other count one of wrenches. -/
theorem CanAdd.round (hb : s.art.Between) (hpc : s.pc = .vote) (ht : s.tick < 3)
    (h : ∀ t : PushBox R, t.art.Between → t.pc = .vote → t.Class = Class_Wrench →
      t.tick = (if s.Class = Class_Wrench then s.tick + 1 else 0) → CanAdd t) : CanAdd s := by
  obtain ⟨hb, hdata⟩ := hb.frame (show Class_Wrench ≠ BUFFER_TAIL by decide)
  apply CanAdd.before (.art (Art.frame Class_Wrench)) ⟨_, by decide, by decide, rfl⟩
  exact CanAdd.arrived hb hpc ht hdata h

theorem CanAdd.of_done (hpc : s.pc = .vote) (ht : ¬ s.tick < 3) :
    CanAdd s := by
  apply CanAdd.step
  rw [thread_vote_done _ hpc ht]
  exact CanAdd.of_add rfl

/-- By induction on the matches that are missing: every frame with a wrench is one of them, once
    wrenches are counted. -/
theorem CanAdd.of_count (n : ℕ) : ∀ {s : PushBox R}, s.art.Between → s.pc = .vote →
    s.Class = Class_Wrench → 3 ≤ s.tick + n → CanAdd s := by
  induction n with
  | zero =>
    intro s hb hpc _ hn
    exact CanAdd.of_done hpc (not_lt.mpr hn)
  | succ n ih =>
    intro s hb hpc hclass hn
    by_cases ht : s.tick < 3
    · refine CanAdd.round hb hpc ht fun t hb hpc hclass' htick => ih hb hpc hclass' ?_
      rw [htick, if_pos hclass]
      omega
    · exact CanAdd.of_done hpc ht

/-- **From the head of the vote**, whatever has been counted: the first wrench settles the class,
    three more the matches. -/
theorem CanAdd.of_vote (hb : s.art.Between) (hpc : s.pc = .vote) : CanAdd s := by
  by_cases ht : s.tick < 3
  · exact CanAdd.round hb hpc ht fun t hb hpc hclass _ =>
      CanAdd.of_count 3 hb hpc hclass (Nat.le_add_left 3 t.tick)
  · exact CanAdd.of_done hpc ht

/-! ### The rest of the classification -/

/-- From these steps the task gets to `Class_Add`. -/
def Ready (R : Type) [CFloat R] (pcs : List Pc) : Prop :=
  ∀ s : PushBox R, s.art.Between → s.pc ∈ pcs → CanAdd s

theorem Ready.vote : Ready R [.vote, .add] := by
  intro s hb hin
  rcases List.mem_pair.mp hin with hpc | hpc
  · exact CanAdd.of_vote hb hpc
  · exact CanAdd.of_add hpc

/-- **A step whose successors are ready** is ready, as it need not be known which of them the task
    takes. -/
theorem Ready.cons {pcs : List Pc} (h : Ready R pcs) (pc : Pc) (hnext : pc.next ⊆ pcs) :
    Ready R (pc :: pcs) := by
  intro s hb hin
  rcases List.mem_cons.mp hin with hpc | hin
  · have hmem := thread_pc ⟨false, false, 0⟩ s
    rw [hpc] at hmem
    exact CanAdd.step (h _ (hb.thread _) (hnext hmem))
  · exact h s hb hin

/-- All steps of the classification are ready, but for the first wait; each is added once all
    places it can lead to are there. -/
theorem Ready.classification :
    Ready R [.first, .firstClear, .poll, .compare, .reload, .voted, .vote, .add] :=
  have voted := Ready.vote.cons .voted (by decide)
  have reload := voted.cons .reload (by decide)
  have compare := reload.cons .compare (by decide)
  have poll := compare.cons .poll (by decide)
  have firstClear := poll.cons .firstClear (by decide)
  firstClear.cons .first (by decide)

theorem CanAdd.of_wait (hb : s.art.Between) (hpc : s.pc = .wait) (hd : Art_GetData s.art = 0) :
    CanAdd s := by
  apply CanAdd.step
  have hfirst : s.thread ⟨false, false, 0⟩ = s.goto .first := by
    rw [PushBox.thread, hpc]
    exact if_neg (not_not.mpr hd)
  rw [hfirst]
  exact Ready.classification _ hb (show Pc.first ∈ _ by decide)

/-- **`Class_Add` can be reached** by frames with classes from every state of the classification in
    which the task does not wait while there is a class. -/
theorem add_reachable_iff (s : PushBox R) (as : List (PushBox.Action R)) (h : s.art.Between)
    (has : ∀ a ∈ as, a.Framed fun _ => True) (hin : (s.enter.run as).pc ∈ classification) :
    (∃ more : List (PushBox.Action R), (∀ a ∈ more, a.Framed (· ≠ 0)) ∧
      ∃ c d, .Class_Add c d ∈ ((s.enter.run as).run more).log) ↔
    ¬ ((s.enter.run as).pc = .wait ∧ Art_GetData (s.enter.run as).art ≠ 0) := by
  have hb : (s.enter.run as).art.Between := (Vote.run h as has).between
  have hold := (s.enter_told as).not_added hin
  constructor
  · rintro ⟨more, hmore, c, d, hadd⟩ ⟨hpc, hd⟩
    have htrap : Trapped (s.enter.run as).log (s.enter.run as) := ⟨hpc, hd, hb, rfl⟩
    rw [(htrap.run more hmore).log] at hadd
    exact hold c d hadd
  · intro hfree
    rcases List.mem_cons.mp hin with hpc | hin
    · exact CanAdd.of_wait hb hpc (not_not.mp fun hd => hfree ⟨hpc, hd⟩)
    · exact Ready.classification _ hb ((show [Pc.first, .firstClear, .vote, .poll, .compare,
        .reload, .voted, .add] ⊆ _ by decide) hin)

end

/-! ## A run in which a frame comes too early -/

namespace PushBox.Action

/-- The task has cleared the class and is about to wait; a frame comes first. -/
def early : List (PushBox.Action ℚ) :=
  centred :: steps 9 false ++ centred :: steps 9 false ++ [wrench]

end PushBox.Action

open PushBox.Action

theorem add_reachable_wrench :
    (∃ more : List (PushBox.Action ℚ), (∀ a ∈ more, a.Framed (· ≠ 0)) ∧
      ∃ c d, .Class_Add c d ∈ ((parked.enter.run (pushWrench.take 20)).run more).log) ↔
    ¬ ((parked.enter.run (pushWrench.take 20)).pc = .wait ∧
      Art_GetData (parked.enter.run (pushWrench.take 20)).art ≠ 0) :=
  add_reachable_iff parked (pushWrench.take 20) ⟨rfl, rfl⟩ (by decide +kernel) (by decide +kernel)

/-- **The first frame is too early**, and the task waits for ever: its class is in the link when
    `while (Art_GetData())` is reached. -/
theorem early_traps :
    (parked.art.Between ∧ (∀ a ∈ early, a.Framed fun _ => True) ∧
      (parked.enter.run early).pc ∈ classification) ∧
    ¬ ∃ more : List (PushBox.Action ℚ), (∀ a ∈ more, a.Framed (· ≠ 0)) ∧
      ∃ c d, .Class_Add c d ∈ ((parked.enter.run early).run more).log := by
  refine ⟨⟨⟨rfl, rfl⟩, by decide +kernel, by decide +kernel⟩, ?_⟩
  rintro ⟨more, hmore, c, d, hadd⟩
  have htrap : Trapped (parked.enter.run early).log (parked.enter.run early) :=
    ⟨by decide +kernel, by decide +kernel, ⟨by decide +kernel, by decide +kernel⟩, rfl⟩
  rw [(htrap.run more hmore).log] at hadd
  exact (parked.enter_told early).not_added (by decide +kernel) c d hadd

end Car2025
