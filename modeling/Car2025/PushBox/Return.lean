/-
  The push task can always return.

  1. **Along (`Along`)** — up to the end of the push the task stays in its branch of the switch, and hears
     the camera.

  2. **Homeward** — branch by branch from the last one: with a picture in the centre, an image to be
     pushed and the right levels of the pin the task gets to its end.

  3. **Return (`Told.can_return`)** — so it does from every state that it can be in, also where it waits
     before the classification for a class that is there.
-/
import Mathlib
import Car2025.Lib.Reach
import Car2025.PushBox.Push
import Car2025.PushBox.Wait

namespace Car2025

open Framing Reach Angle_State MCX_Current_Mode PushBox

/-! ## The camera -/

/-- A picture in the centre. -/
def centring : List UInt8 := [BUFFER_HEAD, 1, 0, 160, 0, 120]

theorem centring_buffer {r : Rx UInt8} (hcount : r.count = 0) (hstate : r.rx_state = false) :
    (r.feed MCX_format centring).buffer 1 = 1 ∧ (r.feed MCX_format centring).buffer 2 = 0 ∧
      (r.feed MCX_format centring).buffer 3 = 160 ∧ (r.feed MCX_format centring).buffer 4 = 0 ∧
      (r.feed MCX_format centring).buffer 5 = 120 := by
  obtain ⟨count, rx_state, buffer⟩ := r
  obtain rfl : count = 0 := hcount
  obtain rfl : rx_state = false := hstate
  exact ⟨rfl, rfl, rfl, rfl, rfl⟩

/-- **The report is understood** between two frames, where the receiver waits for a head, -/
theorem MCX.feed_centring {m : MCX} (h : m.Looking) (hcount : m.rx.count = 0)
    (hstate : m.rx.rx_state = false) :
    (m.feed (centring ++ [BUFFER_TAIL])).center_x = 160 ∧
      (m.feed (centring ++ [BUFFER_TAIL])).center_y = 120 ∧
      (m.feed (centring ++ [BUFFER_TAIL])).MCX_rx_flag = true := by
  obtain ⟨h1, h2, h3, h4, h5⟩ := centring_buffer hcount hstate
  have hfeed : m.feed (centring ++ [BUFFER_TAIL]) =
      MCX_uart_callback BUFFER_TAIL { m with rx := m.rx.feed MCX_format centring } := by
    rw [feed_append, feed_of_not_mem (show BUFFER_TAIL ∉ centring by decide)]
    rfl
  obtain ⟨hx, hy⟩ := handle_publishes (s := { m with rx := m.rx.feed MCX_format centring }) h
    (by rw [h1]; decide)
  rw [hfeed, MCX_uart_callback_tail]
  dsimp only at hx hy ⊢
  rw [hx, hy, h2, h3, h4, h5]
  exact ⟨by decide, by decide, rfl⟩

/-- and a tail before it ends whatever has begun. -/
theorem MCX.feed_tail_centring {m : MCX} (h : m.Looking) :
    (m.feed (BUFFER_TAIL :: (centring ++ [BUFFER_TAIL]))).center_x = 160 ∧
      (m.feed (BUFFER_TAIL :: (centring ++ [BUFFER_TAIL]))).center_y = 120 ∧
      (m.feed (BUFFER_TAIL :: (centring ++ [BUFFER_TAIL]))).MCX_rx_flag = true := by
  rw [feed_cons]
  refine feed_centring ?_ ?_ ?_
  · rw [Looking, callback_mode]
    exact h
  · rw [MCX_uart_callback_tail]
  · rw [MCX_uart_callback_tail]

section

variable {R : Type} [CFloat R] {s : PushBox R} {a : Angle_State}

/-- The report, as an interrupt. -/
def PushBox.Action.centring : PushBox.Action R :=
  .mcx (BUFFER_TAIL :: (Car2025.centring ++ [BUFFER_TAIL]))

/-! ## Along -/

/-- The camera is heard, up to the end of the push.  The task needs its reports to get on, and only
    its own reset, right before its end, stops them; so this holds in every run that begins with a
    camera that looks for pictures. -/
def PushBox.Hears (s : PushBox R) : Prop :=
  s.mcx.Looking ∨ s.pc = .finish ∨ s.finish_flag = true

/-- **One action** of the task or of an interrupt leaves the camera heard: only the step `reset`
    changes its mode, and it leads to `finish`. -/
theorem PushBox.Hears.act (h : s.Hears) (a : PushBox.Action R) : (s.act a).Hears := by
  cases a with
  | thread i =>
    show (s.thread i).Hears
    -- the reset of the camera comes right before the end, and nothing else changes its mode
    by_cases hfinish : s.pc = .finish
    · rw [PushBox.thread, hfinish]
      exact Or.inr (Or.inr rfl)
    · have hkept : s.mcx.Looking ∨ s.finish_flag = true :=
        h.imp_right fun hend => hend.resolve_left hfinish
      rw [PushBox.thread]
      cases hs : s.pc with
      | reset => exact Or.inr (Or.inl rfl)
      | finish => exact absurd hs hfinish
      | loop | image | flag | seekX | angleX | angleY | wait | vote | poll | compare | voted |
          shouldPush | pushX | low | high =>
        dsimp only
        split <;> exact hkept.imp_right Or.inr
      | _ => exact hkept.imp_right Or.inr
  | mcx bytes =>
    rcases h with hlook | hend
    · left
      show (s.mcx.feed bytes).Looking
      rw [MCX.Looking, MCX.feed_mode]
      exact hlook
    · exact Or.inr hend
  | art bytes => exact h
  | image => exact h
  | attitude yaw => exact h
  | motion count =>
    exact iteInduction (motive := PushBox.Hears) (fun _ => h) fun _ => h

/-- In this branch of the switch, with the camera heard.  The invariant of the steps within a
    branch; the steps in `Pc.turning` end it. -/
structure Along (a : Angle_State) (s : PushBox R) : Prop where
  told : Told s
  heard : s.mcx.Looking
  angle_state : s.angle_state = a
  unfinished : s.finish_flag = false

/-- The steps that end it. -/
def Pc.turning : List Pc := [.seekX, .angleState, .shouldPush, .reset, .finish]

/-- **A step** within a branch stays in it; it is the ones in `Pc.turning` that write `angle_state`
    or the flag of the end, or reset the camera. -/
theorem Along.thread (h : Along a s) (i : PushInput) (hpc : s.pc ∉ Pc.turning) :
    Along a (s.thread i) := by
  have hkept : (s.thread i).mcx.Looking ∧ (s.thread i).angle_state = a ∧
      (s.thread i).finish_flag = false := by
    rw [PushBox.thread]
    cases hs : s.pc with
    | seekX | angleState | shouldPush | reset | finish =>
      rw [hs] at hpc
      exact absurd (by decide) hpc
    | loop | image | flag | angleX | angleY | wait | vote | poll | compare | voted | pushX | low |
        high =>
      dsimp only
      split <;> exact ⟨h.heard, h.angle_state, h.unfinished⟩
    | _ => exact ⟨h.heard, h.angle_state, h.unfinished⟩
  exact ⟨h.told.thread i, hkept.1, hkept.2.1, hkept.2.2⟩

/-- The same with any interrupt that leaves the camera's link alone. -/
theorem Along.image (h : Along a s) : Along a (s.act .image) :=
  ⟨h.told.act _, h.heard, h.angle_state, h.unfinished⟩

/-- **The report** keeps it, and the picture is where the task wants it: at `X_CON_REF` and
    `AREA_CON_REF`, so that every question about the place is answered with yes. -/
theorem Along.centring (h : Along a s) :
    Along a (s.act PushBox.Action.centring) ∧
      (s.act PushBox.Action.centring).mcx.MCX_rx_flag = true ∧
      ∀ n, 0 ≤ n → (s.act PushBox.Action.centring).XNear n ∧
        (s.act PushBox.Action.centring).YNear n := by
  obtain ⟨hx, hy, hflag⟩ := MCX.feed_tail_centring h.heard
  refine ⟨⟨h.told.act _, ?_, h.angle_state, h.unfinished⟩, hflag, fun n hn => ⟨?_, ?_⟩⟩
  · show (s.mcx.feed _).Looking
    rw [MCX.Looking, MCX.feed_mode]
    exact h.heard
  · have hcentre : (s.act PushBox.Action.centring).mcx.center_x = 160 := hx
    rw [XNear, hcentre]
    exact le_of_eq_of_le (by decide) hn
  · have hcentre : (s.act PushBox.Action.centring).mcx.center_y = 120 := hy
    rw [YNear, hcentre]
    exact le_of_eq_of_le (by decide) hn

/-! ## Homeward -/

/-- The task can return. -/
def CanReturn (s : PushBox R) : Prop := CanReach PushBox.act (fun t => t.pc = .done) s

/-- From all states with `I` at these places it can. -/
def Homeward (I : PushBox R → Prop) (pcs : List Pc) : Prop :=
  Region PushBox.act (fun t => t.pc = .done) I PushBox.pc pcs

variable {I : PushBox R → Prop} {pcs : List Pc}

/-- **A step** for which the inputs do not matter: wherever the task goes from this place, the
    places are known to lead home. -/
theorem Homeward.step (h : Homeward I pcs) (pc : Pc) (hnext : pc.next ⊆ pcs)
    (hkeep : ∀ (s : PushBox R) (i : PushInput), I s → s.pc = pc → I (s.thread i)) :
    Homeward I (pc :: pcs) := by
  refine Region.cons h fun s hI hpc => Or.inl (.next (.thread ⟨false, false, 0⟩) ⟨?_, ?_⟩)
  · exact hkeep s _ hI hpc
  · exact hnext (hpc ▸ thread_pc _ s)

/-- **After the end** the loop is left: `finish_flag` stays set, and the head of the loop looks at
    nothing else. -/
theorem homeward_finished :
    Homeward (fun s : PushBox R => s.finish_flag = true) Chapter.finished.pcs := by
  have hdone : Homeward (fun s : PushBox R => s.finish_flag = true) [.done] := by
    refine Region.nil.cons fun s _ hpc => Or.inr (.here hpc)
  have hloop : Homeward (fun s : PushBox R => s.finish_flag = true) [.loop, .done] := by
    refine Region.cons hdone fun s hflag hpc => Or.inl (.next (.thread ⟨false, false, 0⟩) ?_)
    have hthread : s.thread ⟨false, false, 0⟩ = s.goto .done := by
      rw [PushBox.thread, hpc]
      exact if_pos hflag
    show (s.thread _).finish_flag = true ∧ (s.thread _).pc ∈ _
    rw [hthread]
    exact ⟨hflag, List.mem_singleton_self _⟩
  have hkeep : ∀ (s : PushBox R) (i : PushInput), s.finish_flag = true →
      (s.thread i).finish_flag = true := by
    intro s i hflag
    rw [thread_finish_flag]
    split
    · rfl
    · exact hflag
  exact (hloop.step .delay (by decide) fun s i hI _ => hkeep s i hI).step .clearFlag (by decide)
    fun s i hI _ => hkeep s i hI

/-- **A loop over the levels of the pin** ends at eleven right ones; the measure is how many of
    them are still to come, whatever has been counted before. -/
theorem homeward_level (pc next : Pc) (level : Bool) (h : Homeward (fun _ : PushBox R => True) pcs)
    (hnext : next ∈ pcs)
    (hwait : ∀ s : PushBox R, s.pc = pc → s.gpio_tick ≤ 10 →
      s.thread ⟨false, level, 0⟩ = { s with gpio_tick := s.gpio_tick + 1 })
    (hpast : ∀ s : PushBox R, s.pc = pc → ¬ s.gpio_tick ≤ 10 →
      (s.thread ⟨false, level, 0⟩).pc = next) :
    Homeward (fun _ : PushBox R => True) (pc :: pcs) := by
  -- each right level is one more of the eleven
  have hstep : ∀ s : PushBox R, s.pc = pc → 11 - s.gpio_tick ≠ 0 →
      CanReach PushBox.act (fun t => t.pc = pc ∧ 11 - t.gpio_tick < 11 - s.gpio_tick) s := by
    intro s hpc hmore
    refine .next (.thread ⟨false, level, 0⟩) ?_
    show (s.thread _).pc = pc ∧ 11 - (s.thread _).gpio_tick < _
    rw [hwait s hpc (by omega)]
    refine ⟨hpc, ?_⟩
    dsimp only
    omega
  refine Region.cons h fun s _ hpc => Or.inl ?_
  refine (CanReach.countdown _ hstep s hpc).trans fun t ht => ?_
  -- the eleventh level has been counted
  have hlate : ¬ t.gpio_tick ≤ 10 := by
    have hnone := ht.2
    omega
  exact .next (.thread ⟨false, level, 0⟩) ⟨trivial, (hpast t ht.1 hlate).symm ▸ hnext⟩

/-- **The push**, from its first command on: the two loops over the pin are the only places where
    the task waits, and the levels are an input. -/
theorem homeward_driven : Homeward (fun _ : PushBox R => True)
    [.ahead, .low, .high, .pushStop, .back, .backStop, .rotate, .reset, .finish] := by
  have hfinish : Homeward (fun _ : PushBox R => True) [.finish] := by
    refine Region.nil.cons fun s _ hpc => Or.inr (.before (.thread ⟨false, false, 0⟩) ?_)
    refine homeward_finished _ ?_ ?_
    · show (s.thread _).finish_flag = true
      rw [PushBox.thread, hpc]
    · show (s.thread _).pc ∈ _
      rw [PushBox.thread, hpc]
      exact List.mem_cons_self
  have hreset := hfinish.step .reset (by decide) fun _ _ _ _ => trivial
  have hrotate := hreset.step .rotate (by decide) fun _ _ _ _ => trivial
  have hbackStop := hrotate.step .backStop (by decide) fun _ _ _ _ => trivial
  have hback := hbackStop.step .back (by decide) fun _ _ _ _ => trivial
  have hpushStop := hback.step .pushStop (by decide) fun _ _ _ _ => trivial
  have hhigh := homeward_level .high .pushStop true hpushStop (by decide)
    (fun s hpc htick => by rw [PushBox.thread, hpc]; exact if_pos htick)
    (fun s hpc htick => by rw [PushBox.thread, hpc]; exact congrArg PushBox.pc (if_neg htick))
  have hlow := homeward_level .low .high false hhigh (by decide)
    (fun s hpc htick => by rw [PushBox.thread, hpc]; exact if_pos htick)
    (fun s hpc htick => by rw [PushBox.thread, hpc]; exact congrArg PushBox.pc (if_neg htick))
  exact hlow.step .ahead (by decide) fun _ _ _ _ => trivial

/-! ## Branch by branch -/

/-- **At the flag** a report of the camera leads into the branch: the report raises `MCX_rx_flag`,
    which is what the step asks for. -/
theorem Along.to_branch (h : Along a s) (hpc : s.pc = .flag) :
    CanReach PushBox.act
      (fun t => Along a t ∧ t.ShouldPush = s.ShouldPush ∧ t.pc = s.branch) s := by
  obtain ⟨hal, hflag, -⟩ := h.centring
  refine .before PushBox.Action.centring (.next (.thread ⟨false, false, 0⟩) ?_)
  have hpc' : (s.act PushBox.Action.centring).pc = .flag := hpc
  have hal' := hal.thread ⟨false, false, 0⟩ (by rw [hpc']; decide)
  have hthread : (s.act PushBox.Action.centring).thread ⟨false, false, 0⟩ =
      (s.act PushBox.Action.centring).goto s.branch := by
    rw [PushBox.thread, hpc']
    exact if_pos hflag
  rw [hthread] at hal'
  show Along a ((s.act PushBox.Action.centring).thread _) ∧
    ((s.act PushBox.Action.centring).thread _).ShouldPush = _ ∧
    ((s.act PushBox.Action.centring).thread _).pc = _
  rw [hthread]
  exact ⟨hal', rfl, rfl⟩

/-- **A question where the picture is** is answered with yes right after a report of a picture in
    the centre, so the task goes to the place behind it. -/
theorem Homeward.near (h : Homeward (Along (R := R) a) pcs) (pc next : Pc) (hpc : pc ∉ Pc.turning)
    (hnext : next ∈ pcs)
    (hthread : ∀ s : PushBox R, s.pc = pc → s.XNear 10 → s.YNear 15 →
      s.thread ⟨false, false, 0⟩ = s.goto next) :
    Homeward (Along (R := R) a) (pc :: pcs) := by
  refine Region.cons h fun s hal heq => Or.inl ?_
  obtain ⟨hal', -, hnear⟩ := hal.centring
  have heq' : (s.act PushBox.Action.centring).pc = pc := heq
  refine .before PushBox.Action.centring (.next (.thread ⟨false, false, 0⟩) ⟨?_, ?_⟩)
  · exact hal'.thread _ (heq' ▸ hpc)
  · show ((s.act PushBox.Action.centring).thread _).pc ∈ _
    rw [hthread _ heq' (hnear 10 (by decide)).1 (hnear 15 (by decide)).2]
    exact hnext

/-- **Round the loop** to the branch of this state: the places outside the branches follow one
    another, and at the flag a report leads in. -/
theorem Homeward.outside (h : Homeward (Along (R := R) a) pcs)
    (hbranch : ∀ s : PushBox R, s.angle_state = a → s.branch ∈ pcs) :
    Homeward (Along (R := R) a) (Chapter.outside ++ pcs) := by
  have hkeep : ∀ pc, pc ∉ Pc.turning → ∀ (s : PushBox R) (i : PushInput), Along a s →
      s.pc = pc → Along a (s.thread i) :=
    fun pc hpc s i hal heq => hal.thread i (heq ▸ hpc)
  have hdone : Homeward (Along (R := R) a) (.done :: pcs) :=
    Region.cons h fun s _ hpc => Or.inr (.here hpc)
  have hflag : Homeward (Along (R := R) a) (.flag :: .done :: pcs) := by
    refine Region.cons hdone fun s hal hpc => Or.inr ((hal.to_branch hpc).trans fun t ht => ?_)
    refine h t ht.1 ?_
    rw [ht.2.2]
    exact hbranch s hal.angle_state
  have hclear := hflag.step .clearImage (by simp [Pc.next]) (hkeep _ (by decide))
  have hverdict := hclear.step .verdict (by simp [Pc.next]) (hkeep _ (by decide))
  have himage := hverdict.step .image (by simp [Pc.next]) (hkeep _ (by decide))
  have hloop := himage.step .loop (by simp [Pc.next]) (hkeep _ (by decide))
  have hdelay := hloop.step .delay (by simp [Pc.next]) (hkeep _ (by decide))
  have hclearFlag := hdelay.step .clearFlag (by simp [Pc.next]) (hkeep _ (by decide))
  refine hclearFlag.mono fun pc hin => ?_
  rcases List.mem_append.mp hin with hin | hin
  · revert hin
    cases pc <;> simp [Chapter.outside]
  · simp [hin]

/-- **`Push_Box_State`**: with the picture in the centre the car drives ahead, and from there on
    the task needs the camera no more. -/
theorem homeward_push : Homeward (Along (R := R) Push_Box) Chapter.pushing.pcs := by
  have hahead : Homeward (Along (R := R) Push_Box) [.ahead] := by
    intro s _ hpc
    exact homeward_driven s trivial (List.mem_cons.mpr (Or.inl (List.mem_singleton.mp hpc)))
  have hpushX := hahead.near .pushX .ahead (by decide) (by decide) fun s hpc hx _ => by
    rw [PushBox.thread, hpc]
    exact if_pos hx
  have hpush := hpushX.step .push (by decide) fun s i hal hpc => hal.thread i (by rw [hpc]; decide)
  have hout := hpush.outside fun s hstate => by
    rw [PushBox.branch, hstate]
    exact List.mem_cons_self
  have hrotate := hout.step .rotate0 (by decide) fun s i hal hpc => hal.thread i (by rw [hpc]; decide)
  have hstop := hrotate.step .locationStop (by decide) fun s i hal hpc =>
    hal.thread i (by rw [hpc]; decide)
  exact hstop.mono (by decide)

/-- **`Location_Correct_State`** in a pass with a verdict to push: -/
theorem homeward_sanctioned :
    Homeward (fun s : PushBox R => Along Location_Correct s ∧ s.ShouldPush = true)
      [.clearImage, .flag, .location, .shouldPush] := by
  have hshould : Homeward (fun s : PushBox R => Along Location_Correct s ∧ s.ShouldPush = true)
      [.shouldPush] := by
    refine Region.nil.cons fun s hI hpc => Or.inr (.before (.thread ⟨false, false, 0⟩) ?_)
    obtain ⟨hal, hshould⟩ := hI
    have hthread : s.thread ⟨false, false, 0⟩ = s.turn Push_Box .locationStop := by
      rw [PushBox.thread, hpc]
      exact if_pos hshould
    have htold := hal.told.thread ⟨false, false, 0⟩
    show CanReach _ _ (s.thread _)
    rw [hthread] at htold ⊢
    exact homeward_push _ ⟨htold, hal.heard, rfl, hal.unfinished⟩ (show Pc.locationStop ∈ _ by decide)
  have hlocation := hshould.step .location (by decide) fun s i hI hpc => by
    refine ⟨hI.1.thread i (by rw [hpc]; decide), ?_⟩
    rw [PushBox.thread, hpc]
    exact hI.2
  have hflag : Homeward (fun s : PushBox R => Along Location_Correct s ∧ s.ShouldPush = true)
      [.flag, .location, .shouldPush] := by
    refine Region.cons hlocation fun s hI hpc => Or.inr ((hI.1.to_branch hpc).trans fun t ht => ?_)
    refine hlocation t ⟨ht.1, ht.2.1.trans hI.2⟩ ?_
    rw [ht.2.2, PushBox.branch, hI.1.angle_state]
    exact List.mem_cons_self
  exact hflag.step .clearImage (by decide) fun s i hI hpc => by
    refine ⟨hI.1.thread i (by rw [hpc]; decide), ?_⟩
    rw [PushBox.thread, hpc]
    exact hI.2

/-- an image that is to be pushed makes it one. -/
theorem homeward_location : Homeward (Along (R := R) Location_Correct) Chapter.circling.pcs := by
  have hkeep : ∀ pc, pc ∉ Pc.turning → ∀ (s : PushBox R) (i : PushInput),
      Along Location_Correct s → s.pc = pc → Along Location_Correct (s.thread i) :=
    fun pc hpc s i hal heq => hal.thread i (heq ▸ hpc)
  have hdone : Homeward (Along (R := R) Location_Correct) [.done] :=
    Region.nil.cons fun s _ hpc => Or.inr (.here hpc)
  have hverdict : Homeward (Along (R := R) Location_Correct) [.verdict, .done] := by
    refine Region.cons hdone fun s hal hpc => Or.inr (.before (.thread ⟨true, false, 0⟩) ?_)
    have hal' := hal.thread ⟨true, false, 0⟩ (by rw [hpc]; decide)
    refine homeward_sanctioned _ ⟨hal', ?_⟩ ?_
    · show (s.thread _).ShouldPush = true
      rw [PushBox.thread, hpc]
    · show (s.thread _).pc ∈ _
      rw [PushBox.thread, hpc]
      exact List.mem_cons_self
  have himage : Homeward (Along (R := R) Location_Correct) [.image, .verdict, .done] := by
    refine Region.cons hverdict fun s hal hpc => Or.inl ?_
    have hpc' : (s.act .image).pc = .image := hpc
    refine .before .image (.next (.thread ⟨false, false, 0⟩) ⟨?_, ?_⟩)
    · exact hal.image.thread _ (by rw [hpc']; decide)
    · show ((s.act .image).thread _).pc ∈ _
      rw [PushBox.thread, hpc']
      exact List.mem_cons_self
  have hloop := himage.step .loop (by decide) (hkeep _ (by decide))
  have hdelay := hloop.step .delay (by decide) (hkeep _ (by decide))
  have hclear := hdelay.step .clearFlag (by decide) (hkeep _ (by decide))
  have hshould : Homeward (Along (R := R) Location_Correct)
      [.shouldPush, .clearFlag, .delay, .loop, .image, .verdict, .done] := by
    refine Region.cons hclear fun s hal hpc => ?_
    -- a verdict to push is carried out now; without one the loop goes on to the next image
    cases hs : s.ShouldPush with
    | true => exact Or.inr (homeward_sanctioned s ⟨hal, hs⟩ (by rw [hpc]; decide))
    | false =>
      have hthread : s.thread ⟨false, false, 0⟩ = s.goto .clearFlag := by
        rw [PushBox.thread, hpc]
        exact if_neg (by rw [hs]; decide)
      have htold := hal.told.thread ⟨false, false, 0⟩
      refine Or.inl (.next (.thread ⟨false, false, 0⟩) ?_)
      show Along Location_Correct (s.thread _) ∧ (s.thread _).pc ∈ _
      rw [hthread] at htold ⊢
      exact ⟨⟨htold, hal.heard, hal.angle_state, hal.unfinished⟩, List.mem_cons_self⟩
  have hlocation := hshould.step .location (by decide) (hkeep _ (by decide))
  have hflag : Homeward (Along (R := R) Location_Correct)
      [.flag, .location, .shouldPush, .clearFlag, .delay, .loop, .image, .verdict, .done] := by
    refine Region.cons hlocation fun s hal hpc => Or.inr ((hal.to_branch hpc).trans fun t ht => ?_)
    refine hlocation t ht.1 ?_
    rw [ht.2.2, PushBox.branch, hal.angle_state]
    exact List.mem_cons_self
  have hclearImage := hflag.step .clearImage (by decide) (hkeep _ (by decide))
  exact (hclearImage.step .addClear (by decide) (hkeep _ (by decide))).mono (by decide)

/-! ## Return -/

variable {φ : Chapter} {c d : UInt8}

omit [CFloat R] in
/-- Before the end of the push a chapter is a branch. -/
theorem Story.along (h : Story s φ c d) (hears : s.Hears) (hφ : φ ≠ .pushed ∧ φ ≠ .finished) :
    Along φ.angle_state s := by
  have hunfinished : ¬ s.finish_flag = true := fun hf => hφ.2 (h.finish.mp hf)
  have hfinish : s.pc ≠ .finish := by
    intro hpc
    have hin := h.pc
    rw [hpc] at hin
    revert hin hφ
    cases φ <;> decide
  have hlook := hears.resolve_right fun hend => hend.elim hfinish hunfinished
  exact ⟨⟨φ, c, d, h⟩, hlook, h.angle_state, Bool.eq_false_iff.mpr hunfinished⟩

/-- **Once a class has been added** the task can return: the chapters behind the classification are
    the branches that lead to each other, up to the end. -/
theorem Story.added_return (h : Story s φ c d) (hears : s.Hears)
    (hφ : φ ∈ [.circling, .pushing, .pushed, .finished]) : CanReturn s := by
  have hpc := h.pc
  cases φ with
  | seeking | aligning | classifying => exact absurd hφ (by decide)
  | circling =>
    exact homeward_location s (h.along hears (by decide)) hpc
  | pushing =>
    exact homeward_push s (h.along hears (by decide)) hpc
  | pushed => exact homeward_driven s trivial ((by decide : Chapter.pushed.pcs ⊆ _) hpc)
  | finished =>
    exact homeward_finished s (h.finish.mpr rfl) hpc

omit [CFloat R] in
theorem Story.added (h : Story s φ c d) {c' d' : UInt8} (hadd : .Class_Add c' d' ∈ s.log) :
    φ ∈ [.circling, .pushing, .pushed, .finished] := by
  rw [h.log] at hadd
  cases φ with
  | seeking | aligning | classifying => simp [Chapter.log] at hadd
  | circling | pushing | pushed | finished => decide

/-- Frames with a wrench lead from the classification to `Class_Add`; where the task waits as there is a
    class, a frame without one comes first. -/
theorem PushBox.can_add (hbetween : s.art.Between) (hpc : s.pc ∈ classification) :
    CanReach PushBox.act (fun t : PushBox R => ∃ c d, .Class_Add c d ∈ t.log) s := by
  have hreach : ∀ t : PushBox R, CanAdd t →
      CanReach PushBox.act (fun t : PushBox R => ∃ c d, .Class_Add c d ∈ t.log) t := by
    rintro t ⟨more, -, hadd⟩
    exact ⟨more, hadd⟩
  rcases List.mem_cons.mp hpc with hwait | hrest
  · obtain ⟨hbetween', hdata⟩ := hbetween.frame (show (0 : UInt8) ≠ BUFFER_TAIL by decide)
    refine .before (.art (Art.frame 0)) (hreach _ ?_)
    exact CanAdd.of_wait (s := s.act (.art (Art.frame 0))) hbetween' hwait hdata
  · exact hreach s (Ready.classification s hbetween ((show [Pc.first, .firstClear, .vote, .poll,
      .compare, .reload, .voted, .add] ⊆ _ by decide) hrest))

/-- **In the classification** the task can get on to `Class_Add`.  A lone tail brings the receiver
    between two frames; from there frames with a wrench are read as they are sent, and an early
    class is taken away by a frame without one. -/
theorem Told.classifying_return (h : Told s) (hears : s.Hears) (hpc : s.pc ∈ classification) :
    CanReturn s := by
  -- a tail ends whatever frame has begun
  refine .before (.art [BUFFER_TAIL]) ?_
  have hbetween : (s.act (.art [BUFFER_TAIL])).art.Between := by
    show (Art_uart_callback BUFFER_TAIL s.art).Between
    rw [Art_uart_callback_tail]
    exact ⟨rfl, rfl⟩
  have hadd := can_add hbetween (show (s.act (.art [BUFFER_TAIL])).pc ∈ _ from hpc)
  -- on the way to `Class_Add` the task stays in its story and hears the camera
  have hkept := hadd.keep (I := fun t => Told t ∧ t.Hears)
    (fun t a ht => ⟨ht.1.act a, ht.2.act a⟩) ⟨h.act _, hears.act _⟩
  refine hkept.trans ?_
  rintro t ⟨⟨c, d, hmem⟩, ⟨φ, c', d', hstory⟩, hears⟩
  exact hstory.added_return hears (hstory.added hmem)

/-- **`Angle_Correct_State`**: a picture in the centre is lined up, and the step behind it enters
    the classification. -/
theorem homeward_angle : Homeward (Along (R := R) Angle_Correct) Chapter.aligning.pcs := by
  have hkeep : ∀ pc, pc ∉ Pc.turning → ∀ (s : PushBox R) (i : PushInput),
      Along Angle_Correct s → s.pc = pc → Along Angle_Correct (s.thread i) :=
    fun pc hpc s i hal heq => hal.thread i (heq ▸ hpc)
  have hstate : Homeward (Along (R := R) Angle_Correct) [.angleState] := by
    refine Region.nil.cons fun s hal hpc => Or.inr (.before (.thread ⟨false, false, 0⟩)
      (.before (.thread ⟨false, false, 0⟩) ?_))
    have hthread : (s.act (.thread ⟨false, false, 0⟩)).pc = .dataClear := by
      show (s.thread _).pc = _
      rw [PushBox.thread, hpc]
      rfl
    have hears : s.Hears := Or.inl hal.heard
    refine ((hal.told.act _).act _).classifying_return ((hears.act _).act _) ?_
    show ((s.act (.thread ⟨false, false, 0⟩)).thread _).pc ∈ _
    rw [PushBox.thread, hthread]
    exact List.mem_cons_self
  have hstop := hstate.step .angleStop (by decide) (hkeep _ (by decide))
  have hangleY := hstop.near .angleY .angleStop (by decide) (by decide) fun s hpc _ hy => by
    rw [PushBox.thread, hpc]
    exact if_pos hy
  have hangleX := hangleY.near .angleX .angleY (by decide) (by decide) fun s hpc hx _ => by
    rw [PushBox.thread, hpc]
    exact if_pos hx
  have hangle := hangleX.step .angle (by decide) (hkeep _ (by decide))
  have hout := hangle.outside fun s hstate => by
    rw [PushBox.branch, hstate]
    exact List.mem_cons_self
  exact hout.mono (by decide)

/-- **Looking for the picture**: a report of one in the centre ends the search, in the branch that
    `homeward_angle` leads home from. -/
theorem homeward_seek : Homeward (Along (R := R) zero) Chapter.seeking.pcs := by
  have hkeep : ∀ pc, pc ∉ Pc.turning → ∀ (s : PushBox R) (i : PushInput),
      Along zero s → s.pc = pc → Along zero (s.thread i) :=
    fun pc hpc s i hal heq => hal.thread i (heq ▸ hpc)
  have hseekX : Homeward (Along (R := R) zero) [.seekX] := by
    refine Region.nil.cons fun s hal hpc => Or.inr (.before PushBox.Action.centring
      (.before (.thread ⟨false, false, 0⟩) ?_))
    obtain ⟨hal', -, hnear⟩ := hal.centring
    have hpc' : (s.act PushBox.Action.centring).pc = .seekX := hpc
    have hthread : (s.act PushBox.Action.centring).thread ⟨false, false, 0⟩ =
        (s.act PushBox.Action.centring).turn Angle_Correct .clearFlag := by
      rw [PushBox.thread, hpc']
      exact if_pos (hnear 20 (by decide)).1
    have htold := hal'.told.thread ⟨false, false, 0⟩
    show CanReach _ _ ((s.act PushBox.Action.centring).thread _)
    rw [hthread] at htold ⊢
    exact homeward_angle _ ⟨htold, hal'.heard, rfl, hal'.unfinished⟩
      (show Pc.clearFlag ∈ _ by decide)
  have hseek := hseekX.step .seek (by decide) (hkeep _ (by decide))
  have hout := hseek.outside fun s hstate => by
    rw [PushBox.branch, hstate]
    exact List.mem_cons_self
  have hright := hout.step .right (by decide) (hkeep _ (by decide))
  exact (hright.step .start (by decide) (hkeep _ (by decide))).mono (by decide)

/-- **From wherever the task can be** it can return.  The story says in which chapter it is, and
    there is a lemma for each of them; they are proved from the last one to the first, as each
    leads to the next. -/
theorem Told.can_return (h : Told s) (hears : s.Hears) : CanReturn s := by
  obtain ⟨φ, c, d, hstory⟩ := h
  have hpc := hstory.pc
  cases φ with
  | seeking =>
    exact homeward_seek s (hstory.along hears (by decide)) hpc
  | aligning =>
    exact homeward_angle s (hstory.along hears (by decide)) hpc
  | classifying =>
    -- the old class is cleared first, whatever has come since
    rcases List.mem_cons.mp hpc with hclear | hpc
    · have htold : Told s := ⟨_, c, d, hstory⟩
      refine .before (.thread ⟨false, false, 0⟩)
        ((htold.act _).classifying_return (hears.act _) ?_)
      show (s.thread _).pc ∈ _
      rw [PushBox.thread, hclear]
      exact List.mem_cons_self
    · exact Told.classifying_return ⟨_, c, d, hstory⟩ hears hpc
  | circling | pushing | pushed | finished => exact hstory.added_return hears (by decide)

theorem PushBox.enter_hears (h : s.mcx.Looking) (as : List (PushBox.Action R)) :
    (s.enter.run as).Hears := by
  induction as using List.reverseRecOn with
  | nil => exact Or.inl h
  | append_singleton as a ih =>
    rw [run_concat]
    exact ih.act a

/-- **Return** — in every run of the task, whatever the interrupts have brought: if the camera was looking
    for a picture when the task was called, there is a continuation in which the task returns. -/
theorem push_can_return (s : PushBox R) (as : List (PushBox.Action R)) (h : s.mcx.Looking) :
    ∃ more : List (PushBox.Action R), ((s.enter.run as).run more).pc = .done :=
  (s.enter_told as).can_return (enter_hears h as)

end

open PushBox.Action in
/-- Also where the first frame of the class came too early. -/
theorem push_can_return_early :
    ∃ more : List (PushBox.Action ℚ), ((PushBox.parked.enter.run early).run more).pc = .done :=
  push_can_return PushBox.parked early (Or.inl rfl)

end Car2025
