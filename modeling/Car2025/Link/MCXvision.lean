/-
  `MCXvision.c`: the serial link to the camera that finds the pictures.

  1. **Program** — the receive interrupt `MCX_uart_callback`, the handler `MCX_uart_handle` it calls
     at a tail byte, and `MCX_Change_Mode`, which both the handler and the threads call.

  2. **Runs** — the interrupt takes any bytes; between two bytes the threads may change the mode and
     clear the two flags.

  3. **The parser** — whatever happens, the receiver is the one of `Framing`.

  The call-back is entered with the byte in `MCX_uart_rx_buffer`; entered with another status it
  only arms the next transfer, and so it does at its end.  Both are left out.
-/
import Mathlib
import Car2025.Lib.Framing

namespace Car2025

open Framing

/-! ## Program -/

def BUFFER_HEAD : UInt8 := 0xAA
def BUFFER_TAIL : UInt8 := 0xFF

/-- `MCX_Current_Mode` -/
inductive MCX_Current_Mode where
  | Reset_Mode
  | Detection_Mode
  | Location_Mode
  | Put_Mode
  deriving DecidableEq, Repr

open MCX_Current_Mode

/-- The values C gives to the constants of the enumeration. -/
def MCX_Current_Mode.value : MCX_Current_Mode → UInt8
  | Reset_Mode => 0
  | Detection_Mode => 1
  | Location_Mode => 2
  | Put_Mode => 3

/-- The command bytes `'R'`, `'D'` and `'L'`. -/
def command_R : UInt8 := 82
def command_D : UInt8 := 68
def command_L : UInt8 := 76

/-- What the threads pass to `MCX_Change_Mode`; `'L'` has no name of its own. -/
def MCX_Detection_Mode : UInt8 := command_D
def MCX_Reset_Mode : UInt8 := command_R

theorem BUFFER_HEAD_ne_TAIL : BUFFER_HEAD ≠ BUFFER_TAIL := by decide

/-- The frames of this link: `count > 7` is an overload. -/
def MCX_format : Format UInt8 := ⟨BUFFER_HEAD, BUFFER_TAIL, 7, BUFFER_HEAD_ne_TAIL⟩

/-- The globals of `MCXvision.c`, with the statics of its functions.  `rx` holds `count`, `rx_state`
    and `MCX_rx_buffer`; `written` is what `uart_write_byte` has sent, the newest byte first.
    `last_x` is an `int` that only ever holds a `center_x`. -/
structure MCX where
  rx : Rx UInt8
  MCX_rx_flag : Bool
  MCX_Detection_Flag : Bool
  mcxCurrent_Mode : MCX_Current_Mode
  center_x : Int16
  center_y : Int16
  last_x : Int16
  written : List UInt8

/-- `((int16_t)high << 8) | (int16_t)low` -/
def int16_of (high low : UInt8) : Int16 := ((high.toUInt16 <<< 8) ||| low.toUInt16).toInt16

/-- `MCX_Change_Mode`: a byte that is none of the three commands is sent all the same. -/
def MCX_Change_Mode (mode : UInt8) (s : MCX) : MCX :=
  let s := { s with written := mode :: s.written }
  if mode = command_R then { s with mcxCurrent_Mode := Reset_Mode }
  else if mode = command_D then { s with mcxCurrent_Mode := Detection_Mode }
  else if mode = command_L then { s with mcxCurrent_Mode := Location_Mode }
  else s

/-- `MCX_uart_handle` -/
def MCX_uart_handle (s : MCX) : MCX :=
  let s :=
    match s.mcxCurrent_Mode with
    | Reset_Mode => s
    | Detection_Mode =>
      if s.rx.buffer 1 ≠ 0 then
        let s := { s with
          center_x := int16_of (s.rx.buffer 2) (s.rx.buffer 3)
          center_y := int16_of (s.rx.buffer 4) (s.rx.buffer 5) }
        -- the enumeration constant is passed where the command byte is expected
        { MCX_Change_Mode Location_Mode.value s with MCX_Detection_Flag := true }
      else s
    | Location_Mode =>
      if s.rx.buffer 1 ≠ 0 then
        { s with
          center_x := int16_of (s.rx.buffer 2) (s.rx.buffer 3)
          center_y := int16_of (s.rx.buffer 4) (s.rx.buffer 5)
          last_x := int16_of (s.rx.buffer 2) (s.rx.buffer 3) }
      else { s with center_x := s.last_x }
    | Put_Mode => s
  { s with MCX_rx_flag := true }

/-- `MCX_uart_callback` for one received byte. -/
def MCX_uart_callback (byte : UInt8) (s : MCX) : MCX :=
  let s :=
    if byte = BUFFER_HEAD then { s with rx := { s.rx with rx_state := true } }
    else if byte = BUFFER_TAIL then
      let s := MCX_uart_handle s
      { s with rx := { s.rx with rx_state := false, count := 0 } }
    else s
  if s.rx.rx_state then { s with rx := s.rx.store MCX_format byte } else s

/-- The globals before `main` runs. -/
def MCX.zero : MCX where
  rx := ⟨0, false, fun _ => 0⟩
  MCX_rx_flag := false
  MCX_Detection_Flag := false
  mcxCurrent_Mode := Reset_Mode
  center_x := 0
  center_y := 0
  last_x := 0
  written := []

/-- `MCX_UART_Init` -/
def MCX_UART_Init (s : MCX) : MCX :=
  MCX_Change_Mode MCX_Detection_Mode { s with MCX_Detection_Flag := false }

/-! ## The parser inside -/

@[simp] theorem MCX_Change_Mode_rx (mode : UInt8) (s : MCX) :
    (MCX_Change_Mode mode s).rx = s.rx := by
  rw [MCX_Change_Mode]
  dsimp only
  split_ifs <;> rfl

@[simp] theorem MCX_uart_handle_rx (s : MCX) : (MCX_uart_handle s).rx = s.rx := by
  rw [MCX_uart_handle]
  cases s.mcxCurrent_Mode with
  | Reset_Mode => rfl
  | Put_Mode => rfl
  | Detection_Mode =>
    dsimp only
    split
    · exact MCX_Change_Mode_rx _ _
    · rfl
  | Location_Mode =>
    dsimp only
    split <;> rfl

/-- **At a tail** the handler runs and the receiver is closed, whatever it was doing; the handler
    reads the positions 1 to 5 and looks at no count. -/
theorem MCX_uart_callback_tail (s : MCX) :
    MCX_uart_callback BUFFER_TAIL s =
      { MCX_uart_handle s with rx := { s.rx with rx_state := false, count := 0 } } := by
  have hne : ¬ BUFFER_TAIL = BUFFER_HEAD := by decide
  rw [MCX_uart_callback]
  dsimp only
  rw [if_neg hne, if_pos rfl, if_neg Bool.false_ne_true, MCX_uart_handle_rx]

/-- **At any other byte** only the receiver moves, as every receiver of this format does. -/
theorem MCX_uart_callback_of_ne {byte : UInt8} (h : byte ≠ BUFFER_TAIL) (s : MCX) :
    MCX_uart_callback byte s = { s with rx := s.rx.receive MCX_format byte } := by
  have hf : ¬ byte = MCX_format.tail := h
  rw [MCX_uart_callback, Rx.receive]
  dsimp only
  rw [if_neg h, if_neg hf]
  by_cases hh : byte = BUFFER_HEAD
  · have hm : byte = MCX_format.head := hh
    rw [if_pos hh, if_pos hm, if_pos rfl, if_pos rfl]
  · have hm : ¬ byte = MCX_format.head := hh
    rw [if_neg hh, if_neg hm]
    split <;> rfl

theorem MCX_uart_callback_rx (byte : UInt8) (s : MCX) :
    (MCX_uart_callback byte s).rx = s.rx.receive MCX_format byte := by
  by_cases h : byte = BUFFER_TAIL
  · rw [h, MCX_uart_callback_tail]
    exact (Rx.receive_tail (F := MCX_format) s.rx).symm
  · rw [MCX_uart_callback_of_ne h]

/-! ## Runs -/

/-- What happens on the link: a byte arrives; a thread calls `MCX_Change_Mode`; the tracing thread
    clears `MCX_Detection_Flag`; the push task clears `MCX_rx_flag`. -/
inductive MCX.Action where
  | receive (byte : UInt8)
  | Change_Mode (mode : UInt8)
  | clear_Detection_Flag
  | clear_rx_flag
  deriving DecidableEq

namespace MCX

def act (s : MCX) : Action → MCX
  | .receive byte => MCX_uart_callback byte s
  | .Change_Mode mode => MCX_Change_Mode mode s
  | .clear_Detection_Flag => { s with MCX_Detection_Flag := false }
  | .clear_rx_flag => { s with MCX_rx_flag := false }

def run (as : List Action) (s : MCX) : MCX := as.foldl act s

/-- The bytes of a stream, with no thread in between. -/
def feed (bytes : List UInt8) (s : MCX) : MCX :=
  bytes.foldl (fun s byte => MCX_uart_callback byte s) s

/-- The state in which the threads find the link. -/
def start : MCX := MCX_UART_Init zero

@[simp] theorem run_nil (s : MCX) : s.run [] = s := rfl

@[simp] theorem run_cons (a : Action) (as : List Action) (s : MCX) :
    s.run (a :: as) = (s.act a).run as := rfl

theorem run_append (as bs : List Action) (s : MCX) :
    s.run (as ++ bs) = (s.run as).run bs := List.foldl_append

theorem run_concat (as : List Action) (a : Action) (s : MCX) :
    s.run (as ++ [a]) = (s.run as).act a := run_append as [a] s

@[simp] theorem feed_cons (byte : UInt8) (bytes : List UInt8) (s : MCX) :
    s.feed (byte :: bytes) = (MCX_uart_callback byte s).feed bytes := rfl

theorem feed_append (as bs : List UInt8) (s : MCX) :
    s.feed (as ++ bs) = (s.feed as).feed bs := List.foldl_append

/-- A stream is a run in which only bytes arrive. -/
theorem run_receive (bytes : List UInt8) : ∀ s : MCX, s.run (bytes.map .receive) = s.feed bytes := by
  induction bytes with
  | nil =>
    intro s
    rfl
  | cons byte bytes ih =>
    intro s
    exact ih _

/-- The bytes that a run received. -/
def received : List Action → List UInt8
  | [] => []
  | .receive byte :: as => byte :: received as
  | _ :: as => received as

theorem feed_rx (bytes : List UInt8) : ∀ s : MCX, (s.feed bytes).rx = s.rx.feed MCX_format bytes := by
  induction bytes with
  | nil =>
    intro s
    rfl
  | cons byte bytes ih =>
    intro s
    rw [feed_cons, ih, MCX_uart_callback_rx, Rx.feed_cons]

/-- Only the bytes move the receiver. -/
theorem run_rx (as : List Action) :
    ∀ s : MCX, (s.run as).rx = s.rx.feed MCX_format (received as) := by
  induction as with
  | nil =>
    intro s
    rfl
  | cons a as ih =>
    intro s
    rw [run_cons, ih]
    cases a with
    | receive byte => exact congrArg (Rx.feed MCX_format (received as)) (MCX_uart_callback_rx byte s)
    | Change_Mode mode => exact congrArg (Rx.feed MCX_format (received as)) (MCX_Change_Mode_rx mode s)
    | clear_Detection_Flag => rfl
    | clear_rx_flag => rfl

/-- The partial frame after a run. -/
def pending (as : List Action) : Partial MCX_format := Partial.none.feed (received as)

theorem zero_holds : zero.rx.Holds (Partial.none : Partial MCX_format) :=
  Rx.Holds.none (fun _ => show (0 : UInt8) ≠ BUFFER_TAIL by decide) rfl rfl

/-- **The receiver holds the partial frame** after every run.  With it the buffer and the counter,
    which the program works on, are told by the bytes alone. -/
theorem run_holds (as : List Action) : (start.run as).rx.Holds (pending as) := by
  rw [run_rx]
  exact Rx.Holds.feed (received as) zero_holds

/-! ## Reachable states -/

/-- A state that some run reaches, from the initialisation on. -/
def Reachable (s : MCX) : Prop := ∃ as, s = start.run as

variable {s : MCX}

/-- Induction over the runs that reach a state; a step starts from a state that is reachable too. -/
theorem Reachable.induct {P : MCX → Prop} (h0 : P start)
    (hstep : ∀ (s : MCX) (a : Action), s.Reachable → P s → P (s.act a)) (hs : s.Reachable) :
    P s := by
  obtain ⟨as, rfl⟩ := hs
  induction as using List.reverseRecOn with
  | nil => exact h0
  | append_singleton as a ih =>
    rw [run_concat]
    exact hstep _ a ⟨as, rfl⟩ ih

theorem Reachable.feed (hs : s.Reachable) (bytes : List UInt8) : (s.feed bytes).Reachable := by
  obtain ⟨as, rfl⟩ := hs
  exact ⟨as ++ bytes.map .receive, by rw [run_append, run_receive]⟩

theorem Reachable.holds (hs : s.Reachable) : ∃ p : Partial MCX_format, s.rx.Holds p := by
  obtain ⟨as, rfl⟩ := hs
  exact ⟨pending as, run_holds as⟩

/-- No position of the buffer ever holds a tail: it starts without one, and at a tail nothing is
    stored. -/
theorem Reachable.clean (hs : s.Reachable) (i : ℕ) : s.rx.buffer i ≠ BUFFER_TAIL :=
  hs.holds.elim fun _ hp => hp.clean i

/-! ## The handler, mode by mode -/

theorem handle_reset (hm : s.mcxCurrent_Mode = Reset_Mode ∨ s.mcxCurrent_Mode = Put_Mode) :
    MCX_uart_handle s = { s with MCX_rx_flag := true } := by
  obtain ⟨rx, rx_flag, flag, mode, x, y, last, written⟩ := s
  rcases hm with hm | hm
  · obtain rfl : mode = Reset_Mode := hm
    rfl
  · obtain rfl : mode = Put_Mode := hm
    rfl

/-- In `Detection_Mode` a found picture is published; the command meant to be sent has no such
    byte, and the mode stays. -/
theorem handle_detection (hm : s.mcxCurrent_Mode = Detection_Mode) (h1 : s.rx.buffer 1 ≠ 0) :
    MCX_uart_handle s =
      { s with
        center_x := int16_of (s.rx.buffer 2) (s.rx.buffer 3)
        center_y := int16_of (s.rx.buffer 4) (s.rx.buffer 5)
        written := Location_Mode.value :: s.written
        MCX_Detection_Flag := true
        MCX_rx_flag := true } := by
  obtain ⟨rx, rx_flag, flag, mode, x, y, last, written⟩ := s
  obtain rfl : mode = Detection_Mode := hm
  exact congrArg (fun s : MCX => { s with MCX_rx_flag := true }) (if_pos h1)

theorem handle_detection_none (hm : s.mcxCurrent_Mode = Detection_Mode)
    (h1 : ¬ s.rx.buffer 1 ≠ 0) : MCX_uart_handle s = { s with MCX_rx_flag := true } := by
  obtain ⟨rx, rx_flag, flag, mode, x, y, last, written⟩ := s
  obtain rfl : mode = Detection_Mode := hm
  exact congrArg (fun s : MCX => { s with MCX_rx_flag := true }) (if_neg h1)

theorem handle_location (hm : s.mcxCurrent_Mode = Location_Mode) (h1 : s.rx.buffer 1 ≠ 0) :
    MCX_uart_handle s =
      { s with
        center_x := int16_of (s.rx.buffer 2) (s.rx.buffer 3)
        center_y := int16_of (s.rx.buffer 4) (s.rx.buffer 5)
        last_x := int16_of (s.rx.buffer 2) (s.rx.buffer 3)
        MCX_rx_flag := true } := by
  obtain ⟨rx, rx_flag, flag, mode, x, y, last, written⟩ := s
  obtain rfl : mode = Location_Mode := hm
  exact congrArg (fun s : MCX => { s with MCX_rx_flag := true }) (if_pos h1)

theorem handle_location_none (hm : s.mcxCurrent_Mode = Location_Mode)
    (h1 : ¬ s.rx.buffer 1 ≠ 0) :
    MCX_uart_handle s = { s with center_x := s.last_x, MCX_rx_flag := true } := by
  obtain ⟨rx, rx_flag, flag, mode, x, y, last, written⟩ := s
  obtain rfl : mode = Location_Mode := hm
  exact congrArg (fun s : MCX => { s with MCX_rx_flag := true }) (if_neg h1)

/-- The handler never changes the mode. -/
theorem handle_mode (s : MCX) : (MCX_uart_handle s).mcxCurrent_Mode = s.mcxCurrent_Mode := by
  by_cases h1 : s.rx.buffer 1 ≠ 0
  · cases hm : s.mcxCurrent_Mode with
    | Reset_Mode => rw [handle_reset (Or.inl hm), hm]
    | Put_Mode => rw [handle_reset (Or.inr hm), hm]
    | Detection_Mode => rw [handle_detection hm h1, hm]
    | Location_Mode => rw [handle_location hm h1, hm]
  · cases hm : s.mcxCurrent_Mode with
    | Reset_Mode => rw [handle_reset (Or.inl hm), hm]
    | Put_Mode => rw [handle_reset (Or.inr hm), hm]
    | Detection_Mode => rw [handle_detection_none hm h1, hm]
    | Location_Mode => rw [handle_location_none hm h1, hm]

theorem callback_mode (byte : UInt8) (s : MCX) :
    (MCX_uart_callback byte s).mcxCurrent_Mode = s.mcxCurrent_Mode := by
  by_cases hb : byte = BUFFER_TAIL
  · rw [hb, MCX_uart_callback_tail]
    exact handle_mode s
  · rw [MCX_uart_callback_of_ne hb]

/-- **The camera's bytes** do not change the mode: what the handler writes to do so is no command, -/
theorem feed_mode (bytes : List UInt8) :
    ∀ s : MCX, (s.feed bytes).mcxCurrent_Mode = s.mcxCurrent_Mode := by
  induction bytes with
  | nil =>
    intro s
    rfl
  | cons byte bytes ih =>
    intro s
    rw [feed_cons, ih, callback_mode]

/-- and in `Reset_Mode` they raise no detection. -/
theorem feed_quiet (bytes : List UInt8) :
    ∀ {s : MCX}, s.mcxCurrent_Mode = Reset_Mode →
      (s.feed bytes).MCX_Detection_Flag = s.MCX_Detection_Flag := by
  induction bytes with
  | nil =>
    intro s _
    rfl
  | cons byte bytes ih =>
    intro s hm
    rw [feed_cons, ih ((callback_mode byte s).trans hm)]
    by_cases hb : byte = BUFFER_TAIL
    · rw [hb, MCX_uart_callback_tail, handle_reset (Or.inl hm)]
    · rw [MCX_uart_callback_of_ne hb]

/-- The modes in which the handler publishes. -/
def Looking (s : MCX) : Prop :=
  s.mcxCurrent_Mode = Detection_Mode ∨ s.mcxCurrent_Mode = Location_Mode

theorem handle_publishes (hm : s.Looking) (h1 : s.rx.buffer 1 ≠ 0) :
    (MCX_uart_handle s).center_x = int16_of (s.rx.buffer 2) (s.rx.buffer 3) ∧
      (MCX_uart_handle s).center_y = int16_of (s.rx.buffer 4) (s.rx.buffer 5) := by
  rcases hm with hm | hm
  · rw [handle_detection hm h1]
    exact ⟨rfl, rfl⟩
  · rw [handle_location hm h1]
    exact ⟨rfl, rfl⟩

/-- A change of mode publishes nothing. -/
theorem Change_Mode_published (mode : UInt8) (s : MCX) :
    (MCX_Change_Mode mode s).center_x = s.center_x ∧
      (MCX_Change_Mode mode s).center_y = s.center_y ∧
      (MCX_Change_Mode mode s).last_x = s.last_x ∧
      (MCX_Change_Mode mode s).MCX_Detection_Flag = s.MCX_Detection_Flag := by
  rw [MCX_Change_Mode]
  dsimp only
  split_ifs <;> exact ⟨rfl, rfl, rfl, rfl⟩

/-- Bytes without a tail only move the receiver. -/
theorem feed_of_not_mem {bytes : List UInt8} :
    ∀ {s : MCX}, BUFFER_TAIL ∉ bytes →
      s.feed bytes = { s with rx := s.rx.feed MCX_format bytes } := by
  induction bytes with
  | nil =>
    intro s _
    rfl
  | cons byte bytes ih =>
    intro s h
    rw [List.mem_cons, not_or] at h
    rw [feed_cons, MCX_uart_callback_of_ne (Ne.symm h.1), ih h.2]
    rfl

end MCX

end Car2025
