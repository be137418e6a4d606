/-
  Where the push task takes the picture to be, over every run of the program.

  1. **Reports (`MCX.finds`)** — a frame that is handled in `Detection_Mode` with a nonzero flag reports a
     position.

  2. **The other writers (`MCX.Untouched`)** — the threads only clear flags and command `'D'` and `'R'`.

  3. **Runs (`position_reported`)** — so the link is never in `Location_Mode`: the position is the one of
     the last report, both coordinates from one frame, and every report counts as a detection, also
     during the push task.
-/
import Mathlib
import Car2025.Link.MCXvision
import Car2025.Whole.Safety

namespace Car2025

open MCX_Current_Mode

namespace MCX

variable {s s' : MCX}

/-! ## Reports -/

/-- The position that a byte reports, if it ends such a frame. -/
def found (byte : UInt8) (s : MCX) : List (Int16 × Int16) :=
  if byte = BUFFER_TAIL ∧ s.mcxCurrent_Mode = Detection_Mode ∧ s.rx.buffer 1 ≠ 0 then
    [(int16_of (s.rx.buffer 2) (s.rx.buffer 3), int16_of (s.rx.buffer 4) (s.rx.buffer 5))]
  else []

/-- The positions that some bytes report. -/
def finds : List UInt8 → MCX → List (Int16 × Int16)
  | [], _ => []
  | byte :: bytes, s => s.found byte ++ finds bytes (MCX_uart_callback byte s)

theorem getLastD_append {α : Type} (l l' : List α) (a : α) :
    (l ++ l').getLastD a = l'.getLastD (l.getLastD a) := by
  rw [List.getLastD_eq_getLast?, List.getLast?_append, List.getLastD_eq_getLast?,
    List.getLastD_eq_getLast?]
  cases l'.getLast? <;> rfl

/-- The modes that the threads command.  In neither of them does the link write one coordinate
    without the other, or `last_x`: that is `Location_Mode`, which nobody asks for. -/
def Commanded (s : MCX) : Prop :=
  s.mcxCurrent_Mode = Detection_Mode ∨ s.mcxCurrent_Mode = Reset_Mode

/-- **One byte** moves the position to the one that it reports, and raises the flag if it reports
    one.  Only a tail can, and in the modes that the threads command it takes both coordinates from
    the same frame. -/
theorem callback_position (h : s.Commanded) (byte : UInt8) :
    (MCX_uart_callback byte s).last_x = s.last_x ∧
      ((MCX_uart_callback byte s).center_x, (MCX_uart_callback byte s).center_y) =
        (s.found byte).getLastD (s.center_x, s.center_y) ∧
      (MCX_uart_callback byte s).MCX_Detection_Flag =
        (s.MCX_Detection_Flag || !(s.found byte).isEmpty) := by
  -- any other byte reports nothing
  by_cases hb : byte = BUFFER_TAIL
  swap
  · rw [MCX_uart_callback_of_ne hb, found, if_neg fun hfound => hb hfound.1]
    exact ⟨rfl, rfl, (Bool.or_false _).symm⟩
  subst hb
  rw [MCX_uart_callback_tail, found]
  rcases h with hm | hm
  · by_cases h1 : s.rx.buffer 1 ≠ 0
    · rw [handle_detection hm h1, if_pos ⟨rfl, hm, h1⟩]
      exact ⟨rfl, rfl, (Bool.or_true _).symm⟩
    · rw [handle_detection_none hm h1, if_neg fun hfound => h1 hfound.2.2]
      exact ⟨rfl, rfl, (Bool.or_false _).symm⟩
  · -- in `Reset_Mode` nothing is reported
    have hno : ¬ (BUFFER_TAIL = BUFFER_TAIL ∧ s.mcxCurrent_Mode = Detection_Mode ∧
        s.rx.buffer 1 ≠ 0) := by
      rw [hm]
      exact fun hfound => absurd hfound.2.1 (by decide)
    rw [handle_reset (Or.inl hm), if_neg hno]
    exact ⟨rfl, rfl, (Bool.or_false _).symm⟩

theorem Commanded.callback (h : s.Commanded) (byte : UInt8) :
    (MCX_uart_callback byte s).Commanded := by
  rw [Commanded, callback_mode]
  exact h

/-- **Some bytes** move it to the last position that they report; by induction on the bytes, from
    the lemma for one. -/
theorem feed_position (bytes : List UInt8) : ∀ {s : MCX}, s.Commanded →
    (s.feed bytes).Commanded ∧ (s.feed bytes).last_x = s.last_x ∧
      ((s.feed bytes).center_x, (s.feed bytes).center_y) =
        (s.finds bytes).getLastD (s.center_x, s.center_y) ∧
      (s.feed bytes).MCX_Detection_Flag = (s.MCX_Detection_Flag || !(s.finds bytes).isEmpty) := by
  induction bytes with
  | nil => exact fun h => ⟨h, rfl, rfl, (Bool.or_false _).symm⟩
  | cons byte bytes ih =>
    intro s h
    obtain ⟨hlast, hpos, hflag⟩ := callback_position h byte
    obtain ⟨hcom, hlast', hpos', hflag'⟩ := ih (h.callback byte)
    rw [feed_cons, finds, getLastD_append]
    refine ⟨hcom, hlast'.trans hlast, by rw [hpos', hpos], ?_⟩
    rw [hflag', hflag, Bool.or_assoc]
    cases s.found byte <;> rfl

/-! ## The other writers -/

/-- Nothing is reported: a step of a thread may clear a flag or command a mode, but leaves the
    position. -/
structure Untouched (s s' : MCX) : Prop where
  center_x : s'.center_x = s.center_x
  center_y : s'.center_y = s.center_y
  last_x : s'.last_x = s.last_x
  commanded : s.Commanded → s'.Commanded

theorem Untouched.refl (s : MCX) : s.Untouched s := ⟨rfl, rfl, rfl, id⟩

/-- The modes that the threads ask for. -/
theorem Untouched.Change_Mode (s : MCX) {mode : UInt8}
    (h : mode = MCX_Detection_Mode ∨ mode = MCX_Reset_Mode) :
    s.Untouched (MCX_Change_Mode mode s) := by
  obtain ⟨hx, hy, hlast, -⟩ := Change_Mode_published mode s
  refine ⟨hx, hy, hlast, fun _ => ?_⟩
  rcases h with rfl | rfl
  · exact Or.inl rfl
  · exact Or.inr rfl

end MCX

section

variable {R : Type} [CFloat R]

theorem PushBox.thread_untouched (i : PushInput) (p : PushBox R) :
    p.mcx.Untouched (p.thread i).mcx := by
  rw [PushBox.thread]
  cases p.pc with
  | reset => exact MCX.Untouched.Change_Mode _ (Or.inr rfl)
  | loop | image | flag | seekX | angleX | angleY | wait | vote | poll | compare | voted | shouldPush |
      pushX | low | high =>
    dsimp only
    split <;> exact .refl _
  | _ => exact ⟨rfl, rfl, rfl, id⟩

theorem Handover.locate_untouched (i : PushInput) (s : Handover R) :
    s.push.mcx.Untouched (s.locate_box_entry i).push.mcx := by
  rw [locate_box_entry]
  cases s.locate with
  | sem_take stage | release => exact .refl _
  | call =>
    dsimp only
    split <;> exact .refl _
  | direction_correction_test1 =>
    dsimp only
    split
    · exact .refl _
    · exact PushBox.thread_untouched i s.push

theorem Handover.trace_untouched (i : TraceInput R) (s : Handover R) :
    s.push.mcx.Untouched (s.trace_line_entry i).push.mcx := by
  rw [trace_line_entry]
  cases s.trace with
  | loop | detection | timer =>
    dsimp only
    split <;> exact .refl _
  | clearDetection => exact ⟨rfl, rfl, rfl, id⟩
  | Change_Mode => exact MCX.Untouched.Change_Mode _ (Or.inl rfl)
  | _ => exact .refl _

/-! ## Runs -/

namespace Program

variable {o : Outside}

/-- The link as the threads find it. -/
def link (s : Program R) : MCX := s.hand.push.mcx

/-- The positions that a step reports. -/
def finds (s : Program R) : Action R → List (Int16 × Int16)
  | .mcx bytes => s.link.finds bytes
  | _ => []

/-- The positions that a run reports. -/
def reported (o : Outside) : Program R → List (Action R) → List (Int16 × Int16)
  | _, [] => []
  | s, a :: as => s.finds a ++ reported o (s.act o a) as

/-- **One step** moves the position to the last one that it reports.  Only the camera's interrupt
    reports any; the threads leave the position as `Untouched` says. -/
theorem act_position {s : Program R} (h : s.link.Commanded) (a : Action R) :
    (s.act o a).link.Commanded ∧ (s.act o a).link.last_x = s.link.last_x ∧
      ((s.act o a).link.center_x, (s.act o a).link.center_y) =
        (s.finds a).getLastD (s.link.center_x, s.link.center_y) ∧
      (s.finds a ≠ [] → (s.act o a).link.MCX_Detection_Flag = true) := by
  -- a step that receives no bytes reports nothing and leaves the position
  have huntouched : s.link.Untouched (s.act o a).link → s.finds a = [] →
      (s.act o a).link.Commanded ∧ (s.act o a).link.last_x = s.link.last_x ∧
        ((s.act o a).link.center_x, (s.act o a).link.center_y) =
          (s.finds a).getLastD (s.link.center_x, s.link.center_y) ∧
        (s.finds a ≠ [] → (s.act o a).link.MCX_Detection_Flag = true) := by
    intro hu hfinds
    rw [hfinds]
    exact ⟨hu.commanded h, hu.last_x, Prod.ext hu.center_x hu.center_y, fun hne => absurd rfl hne⟩
  cases a with
  | mcx bytes =>
    obtain ⟨hcom, hlast, hpos, hflag⟩ := MCX.feed_position bytes h
    refine ⟨hcom, hlast, hpos, fun hne => hflag.trans ?_⟩
    have hempty : (s.link.finds bytes).isEmpty = false := List.isEmpty_eq_false_iff.mpr hne
    rw [hempty]
    exact Bool.or_true _
  | trace_line working c =>
    refine huntouched ?_ rfl
    show s.hand.push.mcx.Untouched (s.trace_line_entry o working c).hand.push.mcx
    rcases (Program.trace_line_entry_cases working c).hand with hhand | ⟨i, hhand⟩
    · rw [hhand]
      exact .refl _
    · rw [hhand]
      exact Handover.trace_untouched i s.hand
  | locate_box i => exact huntouched (Handover.locate_untouched i s.hand) rfl
  | _ => exact huntouched (.refl _) rfl

theorem run_position (as : List (Action R)) : ∀ {s : Program R}, s.link.Commanded →
    (s.run o as).link.Commanded ∧ (s.run o as).link.last_x = s.link.last_x ∧
      ((s.run o as).link.center_x, (s.run o as).link.center_y) =
        (s.reported o as).getLastD (s.link.center_x, s.link.center_y) := by
  induction as with
  | nil => exact fun h => ⟨h, rfl, rfl⟩
  | cons a as ih =>
    intro s h
    obtain ⟨hcom, hlast, hpos, -⟩ := act_position (o := o) h a
    obtain ⟨hcom', hlast', hpos'⟩ := ih hcom
    refine ⟨hcom', hlast'.trans hlast, ?_⟩
    rw [reported, MCX.getLastD_append, ← hpos]
    exact hpos'

end Program

/-- **Positions** — in every run of the steps of `Program.Action`, from the link as `MCX_UART_Init` leaves
    it: it is never in `Location_Mode`, and `last_x` is never written; the position is the one of the last report, or
    the one of the start as long as there is none; and a step with a report leaves
    `MCX_Detection_Flag` raised, whoever drives. -/
theorem Program.position_reported (o : Outside) (b : Boot R) (as : List (Program.Action R)) (m : MCX)
    (h : b.push.mcx = MCX_UART_Init m) :
    ((b.start.run o as).link.mcxCurrent_Mode ≠ Location_Mode ∧
      (b.start.run o as).link.last_x = m.last_x) ∧
    ((b.start.run o as).link.center_x, (b.start.run o as).link.center_y) =
      (b.start.reported o as).getLastD (m.center_x, m.center_y) ∧
    Runs.EachStep (fun pre a => (b.start.run o pre).finds a ≠ [] →
      (b.start.run o (pre ++ [a])).link.MCX_Detection_Flag = true) as := by
  have hstart : b.start.link = MCX_UART_Init m := h
  have hcom : b.start.link.Commanded := by
    rw [hstart]
    exact Or.inl rfl
  obtain ⟨hcom', hlast, hpos⟩ := Program.run_position (o := o) as hcom
  refine ⟨⟨fun hmode => ?_, ?_⟩, ?_, fun pre a _ => ?_⟩
  · rw [MCX.Commanded, hmode] at hcom'
    exact absurd hcom' (by decide)
  · rw [hlast, hstart]
    rfl
  · rw [hpos, hstart]
    rfl
  · dsimp only
    rw [Program.run_concat]
    exact (Program.act_position (Program.run_position pre hcom).1 a).2.2.2

end

/-- A report of a picture in the centre, and a frame without a picture. -/
def reportThenNothing : List (Program.Action ℚ) :=
  [.mcx [0xAA, 1, 0, 160, 0, 120, 0xFF], .mcx [0xAA, 0, 0, 0, 0, 0, 0xFF]]

theorem Program.position_reported_centre :
    ((Boot.parked.start.run .reads reportThenNothing).link.mcxCurrent_Mode ≠ Location_Mode ∧
      (Boot.parked.start.run .reads reportThenNothing).link.last_x = 0) ∧
    ((Boot.parked.start.run .reads reportThenNothing).link.center_x,
        (Boot.parked.start.run .reads reportThenNothing).link.center_y) =
      (Boot.parked.start.reported .reads reportThenNothing).getLastD (0, 0) ∧
    Runs.EachStep (fun pre a => (Boot.parked.start.run .reads pre).finds a ≠ [] →
      (Boot.parked.start.run .reads (pre ++ [a])).link.MCX_Detection_Flag = true) reportThenNothing :=
  Program.position_reported .reads Boot.parked reportThenNothing MCX.zero rfl

/-- The frame without a picture leaves the position. -/
example : Boot.parked.start.reported .reads reportThenNothing = [(160, 120)] := by decide +kernel

end Car2025
