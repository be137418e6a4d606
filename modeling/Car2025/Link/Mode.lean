/-
  The car's idea of the camera's mode, and the camera's.

  1. **Commands (`commanded`)** — the camera is in the mode of the last command byte written to it;
     other bytes are no commands.

  2. **In step (`InStep`)** — `mcxCurrent_Mode` is that mode, in every run.

  3. **Detections** — the handler means to switch to `Location_Mode` and passes the value of the
     constant where the command byte is expected: nothing is commanded, the mode stays, and the next
     frame is a detection again (`detections_commanded_iff`).
-/
import Mathlib
import Car2025.Lib.Runs
import Car2025.Link.MCXvision

namespace Car2025

open Framing Runs MCX_Current_Mode

namespace MCX

variable {s : MCX}

/-! ## Commands -/

/-- The mode that a byte commands. -/
def command (byte : UInt8) : Option MCX_Current_Mode :=
  if byte = command_R then some Reset_Mode
  else if byte = command_D then some Detection_Mode
  else if byte = command_L then some Location_Mode
  else none

/-- The mode of the last command among the bytes written, the newest first. -/
def commanded : List UInt8 → Option MCX_Current_Mode
  | [] => none
  | byte :: written => (command byte).orElse fun _ => commanded written

/-- The car's mode is the one it has commanded, by the last byte written that is a command. -/
def InStep (s : MCX) : Prop := commanded s.written = some s.mcxCurrent_Mode

/-- Mode and command are written together, and each mode with its own command. -/
theorem InStep.Change_Mode (h : s.InStep) (mode : UInt8) : (MCX_Change_Mode mode s).InStep := by
  rw [InStep, MCX_Change_Mode]
  dsimp only
  by_cases hR : mode = command_R
  · rw [if_pos hR, hR]
    rfl
  rw [if_neg hR]
  by_cases hD : mode = command_D
  · rw [if_pos hD, hD]
    rfl
  rw [if_neg hD]
  by_cases hL : mode = command_L
  · rw [if_pos hL, hL]
    rfl
  rw [if_neg hL]
  show (command mode).orElse (fun _ => commanded s.written) = some s.mcxCurrent_Mode
  rw [command, if_neg hR, if_neg hD, if_neg hL]
  exact h

/-- The handler leaves its mode by `MCX_Change_Mode` only, so it stays in step. -/
theorem InStep.handle (h : s.InStep) : (MCX_uart_handle s).InStep := by
  by_cases h1 : s.rx.buffer 1 ≠ 0
  · cases hm : s.mcxCurrent_Mode with
    | Reset_Mode => rw [handle_reset (Or.inl hm)]; exact h
    | Put_Mode => rw [handle_reset (Or.inr hm)]; exact h
    | Detection_Mode =>
      -- the byte written is no command
      rw [handle_detection hm h1]
      exact h
    | Location_Mode => rw [handle_location hm h1]; exact h
  · cases hm : s.mcxCurrent_Mode with
    | Reset_Mode => rw [handle_reset (Or.inl hm)]; exact h
    | Put_Mode => rw [handle_reset (Or.inr hm)]; exact h
    | Detection_Mode => rw [handle_detection_none hm h1]; exact h
    | Location_Mode => rw [handle_location_none hm h1]; exact h

theorem InStep.act (h : s.InStep) (a : Action) : (s.act a).InStep := by
  cases a with
  | receive byte =>
    show (MCX_uart_callback byte s).InStep
    by_cases hb : byte = BUFFER_TAIL
    · rw [hb, MCX_uart_callback_tail]
      exact h.handle
    · rw [MCX_uart_callback_of_ne hb]
      exact h
  | Change_Mode mode => exact h.Change_Mode mode
  | clear_Detection_Flag => exact h
  | clear_rx_flag => exact h

/-- **The modes are in step** in every run: a command that is sent is the mode that is set, and the
    byte that a detection writes is none. -/
theorem run_inStep (as : List Action) : Always (fun pre => (start.run pre).InStep) as := by
  refine Always.of_eachStep rfl fun pre a _ h => ?_
  rw [run_concat]
  exact h.act a

/-! ## Detections -/

/-- A frame is handled as a detection. -/
def Detects (s : MCX) (a : Action) : Prop :=
  a = .receive BUFFER_TAIL ∧ s.mcxCurrent_Mode = Detection_Mode ∧ s.rx.buffer 1 ≠ 0

/-- The switch to `Location_Mode`: the mode is set and `'L'` is the last byte written. -/
def Located (s : MCX) : Prop :=
  s.mcxCurrent_Mode = Location_Mode ∧ s.written.head? = some command_L

/-- A step raises `MCX_Detection_Flag`. -/
def Raises (s : MCX) (a : Action) : Prop :=
  s.MCX_Detection_Flag = false ∧ (s.act a).MCX_Detection_Flag = true

instance (s : MCX) (a : Action) : Decidable (Raises s a) := inferInstanceAs (Decidable (_ ∧ _))

/-- How often a run raises it; a thread may clear it in between. -/
def raises : MCX → List Action → ℕ
  | _, [] => 0
  | s, a :: as => (if Raises s a then 1 else 0) + raises (s.act a) as

/-- **A detection leaves the mode as it is** and writes a byte that is no command: the handler
    passes the number of the mode where its letter is meant. -/
theorem Detects.not_located {a : Action} (h : Detects s a) : ¬ (s.act a).Located := by
  obtain ⟨rfl, hm, h1⟩ := h
  show ¬ (MCX_uart_callback BUFFER_TAIL s).Located
  rw [MCX_uart_callback_tail, handle_detection hm h1, Located]
  dsimp only
  rw [hm]
  exact fun h => absurd h.1 (by decide)

/-- Only a detection raises the flag; all else clears it or leaves it. -/
theorem Raises.detects {a : Action} (h : Raises s a) : Detects s a := by
  obtain ⟨h0, h'⟩ := h
  cases a with
  | receive byte =>
    change (MCX_uart_callback byte s).MCX_Detection_Flag = true at h'
    by_cases hb : byte = BUFFER_TAIL
    · rw [hb, MCX_uart_callback_tail] at h'
      dsimp only at h'
      refine ⟨congrArg Action.receive hb, ?_⟩
      by_contra hno
      rw [not_and] at hno
      have hflag : (MCX_uart_handle s).MCX_Detection_Flag = s.MCX_Detection_Flag := by
        cases hm : s.mcxCurrent_Mode with
        | Reset_Mode => rw [handle_reset (Or.inl hm)]
        | Put_Mode => rw [handle_reset (Or.inr hm)]
        | Detection_Mode => rw [handle_detection_none hm (hno hm)]
        | Location_Mode =>
          by_cases h1 : s.rx.buffer 1 ≠ 0
          · rw [handle_location hm h1]
          · rw [handle_location_none hm h1]
      rw [hflag, h0] at h'
      exact Bool.false_ne_true h'
    · rw [MCX_uart_callback_of_ne hb] at h'
      exact absurd (h0.symm.trans h') Bool.false_ne_true
  | Change_Mode mode =>
    have hflag := (Change_Mode_published mode s).2.2.2
    exact absurd (h0.symm.trans (hflag.symm.trans h')) Bool.false_ne_true
  | clear_Detection_Flag => exact absurd h' Bool.false_ne_true
  | clear_rx_flag => exact absurd (h0.symm.trans h') Bool.false_ne_true

/-- A run without detections never raises it, by induction on what is left of the run. -/
theorem raises_eq_zero {as : List Action} :
    ∀ pre : List Action,
      EachStep (fun pre a => ¬ Detects (start.run pre) a) (pre ++ as) →
        raises (start.run pre) as = 0 := by
  induction as with
  | nil =>
    intro pre _
    rfl
  | cons a as ih =>
    intro pre h
    have happ : pre ++ a :: as = pre ++ [a] ++ as := List.append_cons pre a as
    have hstep : ¬ Detects (start.run pre) a := h pre a (by rw [happ]; exact List.prefix_append _ _)
    have hrest := ih (pre ++ [a]) (by rw [← happ]; exact h)
    rw [run_concat] at hrest
    rw [raises, hrest, if_neg fun hr => hstep hr.detects]

/-- **The two modes in a run** — the modes are in step, every detection switches to `Location_Mode`
    with `'L'`, and the flag is raised at most once between two switches to `Detection_Mode`, in
    exactly the runs without a detection. -/
theorem detections_commanded_iff (as : List Action) :
    (Always (fun pre => (start.run pre).InStep) as ∧
      EachStep (fun pre a => Detects (start.run pre) a → (start.run (pre ++ [a])).Located) as ∧
      (∀ pre mid, pre ++ mid <+: as → .Change_Mode MCX_Detection_Mode ∉ mid →
        raises (start.run pre) mid ≤ 1)) ↔
      EachStep (fun pre a => ¬ Detects (start.run pre) a) as := by
  constructor
  · rintro ⟨-, hlocated, -⟩
    refine hlocated.imp fun pre a h hd => ?_
    rw [run_concat] at h
    exact hd.not_located (h hd)
  · intro h
    refine ⟨run_inStep as, h.imp fun pre a hno hd => absurd hd hno, fun pre mid hpre _ => ?_⟩
    have hzero : raises (start.run pre) mid = 0 :=
      raises_eq_zero pre fun pre' a hp => h pre' a (hp.trans hpre)
    rw [hzero]
    exact Nat.zero_le 1

/-- A detection frame, the flag cleared by the tracing thread, and a second detection frame. -/
def detectedTwice : List Action :=
  [.receive 0xAA, .receive 1, .receive 0, .receive 80, .receive 0, .receive 120, .receive 0xFF,
    .clear_Detection_Flag,
    .receive 0xAA, .receive 1, .receive 0, .receive 90, .receive 0, .receive 120, .receive 0xFF]

/-- **The defect**: the first frame does not switch the mode, so the second one is a detection
    again, and raises the flag that was cleared. -/
theorem detectedTwice_raises :
    ¬ (start.run (detectedTwice.take 7)).Located ∧ raises start detectedTwice = 2 := by
  refine ⟨fun h => absurd h.1 (by decide), by decide⟩

end MCX

end Car2025
