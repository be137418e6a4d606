/-
  `art.c`: the serial link to the camera that classifies the pictures.

  1. **Program** — `Art_uart_callback` publishes the byte behind the head; `Art_GetData` and
     `Art_DataClear` are what the push task sees of it.

  2. **Runs** — bytes arrive, the push task clears.

  `Art_Change_Mode` is called by nobody, and nothing reads the mode it would set.
-/
import Mathlib
import Car2025.Link.MCXvision

namespace Car2025

open Framing

/-! ## Program -/

/-- The frames of this link: `count > 3` is an overload. -/
def Art_format : Format UInt8 := ⟨BUFFER_HEAD, BUFFER_TAIL, 3, BUFFER_HEAD_ne_TAIL⟩

/-- The globals of `art.c`; `rx` holds `count`, `rx_state` and `Art_rx_buffer`. -/
structure Art where
  rx : Rx UInt8
  Art_Data : UInt8

/-- `Art_uart_callback` for one received byte. -/
def Art_uart_callback (byte : UInt8) (s : Art) : Art :=
  let s :=
    if byte = BUFFER_HEAD then { s with rx := { s.rx with rx_state := true } }
    else if byte = BUFFER_TAIL then
      { s with
        Art_Data := s.rx.buffer 1
        rx := { s.rx with count := 0, rx_state := false } }
    else s
  if s.rx.rx_state then { s with rx := s.rx.store Art_format byte } else s

def Art_GetData (s : Art) : UInt8 := s.Art_Data

def Art_DataClear (s : Art) : Art := { s with Art_Data := 0 }

/-- The globals before `main` runs. -/
def Art.start : Art := ⟨⟨0, false, fun _ => 0⟩, 0⟩

/-! ## One byte -/

/-- **At a tail** the byte at position 1 is published, whatever the receiver was doing.  Nothing
    asks whether a frame is open or how much of it has come. -/
theorem Art_uart_callback_tail (s : Art) :
    Art_uart_callback BUFFER_TAIL s =
      { rx := { s.rx with rx_state := false, count := 0 }, Art_Data := s.rx.buffer 1 } := by
  have hne : ¬ BUFFER_TAIL = BUFFER_HEAD := by decide
  rw [Art_uart_callback]
  dsimp only
  rw [if_neg hne, if_pos rfl, if_neg Bool.false_ne_true]

/-- **At any other byte** only the receiver moves, as every receiver of this format does; all that
    is known of those holds here. -/
theorem Art_uart_callback_of_ne {byte : UInt8} (h : byte ≠ BUFFER_TAIL) (s : Art) :
    Art_uart_callback byte s = { s with rx := s.rx.receive Art_format byte } := by
  have hf : ¬ byte = Art_format.tail := h
  rw [Art_uart_callback, Rx.receive]
  dsimp only
  rw [if_neg h, if_neg hf]
  by_cases hh : byte = BUFFER_HEAD
  · have hm : byte = Art_format.head := hh
    rw [if_pos hh, if_pos hm, if_pos rfl, if_pos rfl]
  · have hm : ¬ byte = Art_format.head := hh
    rw [if_neg hh, if_neg hm]
    split <;> rfl

/-- So for every byte the receiver is the one of the library, tail or not. -/
theorem Art_uart_callback_rx (byte : UInt8) (s : Art) :
    (Art_uart_callback byte s).rx = s.rx.receive Art_format byte := by
  by_cases h : byte = BUFFER_TAIL
  · rw [h, Art_uart_callback_tail]
    exact (Rx.receive_tail (F := Art_format) s.rx).symm
  · rw [Art_uart_callback_of_ne h]

/-! ## Runs -/

/-- What happens on the link: a byte arrives, or the push task clears. -/
inductive Art.Action where
  | receive (byte : UInt8)
  | DataClear
  deriving DecidableEq

namespace Art

def act (s : Art) : Action → Art
  | .receive byte => Art_uart_callback byte s
  | .DataClear => Art_DataClear s

def run (as : List Action) (s : Art) : Art := as.foldl act s

/-- The bytes of a stream, with no clearing in between. -/
def feed (bytes : List UInt8) (s : Art) : Art :=
  bytes.foldl (fun s byte => Art_uart_callback byte s) s

theorem run_concat (as : List Action) (a : Action) (s : Art) :
    s.run (as ++ [a]) = (s.run as).act a := List.foldl_append

@[simp] theorem feed_cons (byte : UInt8) (bytes : List UInt8) (s : Art) :
    s.feed (byte :: bytes) = (Art_uart_callback byte s).feed bytes := rfl

theorem feed_append (as bs : List UInt8) (s : Art) :
    s.feed (as ++ bs) = (s.feed as).feed bs := List.foldl_append

theorem feed_rx (bytes : List UInt8) : ∀ s : Art, (s.feed bytes).rx = s.rx.feed Art_format bytes := by
  induction bytes with
  | nil =>
    intro s
    rfl
  | cons byte bytes ih =>
    intro s
    rw [feed_cons, ih, Art_uart_callback_rx, Rx.feed_cons]

/-- A state that some run reaches. -/
def Reachable (s : Art) : Prop := ∃ as, s = start.run as

/-- **The receiver holds a partial frame** in every state reached: only bytes move it, and
    `Art_DataClear` leaves it in the middle of whatever it was receiving. -/
theorem Reachable.holds {s : Art} (hs : s.Reachable) : ∃ p : Partial Art_format, s.rx.Holds p := by
  obtain ⟨as, rfl⟩ := hs
  induction as using List.reverseRecOn with
  | nil => exact ⟨_, Rx.Holds.none (fun _ => show (0 : UInt8) ≠ BUFFER_TAIL by decide) rfl rfl⟩
  | append_singleton as a ih =>
    obtain ⟨p, hp⟩ := ih
    rw [run_concat]
    cases a with
    | receive byte =>
      refine ⟨p.next byte, ?_⟩
      show (Art_uart_callback byte _).rx.Holds _
      rw [Art_uart_callback_rx]
      exact hp.receive byte
    | DataClear => exact ⟨p, hp⟩

/-- A frame with class `c`, as the camera sends it. -/
def frame (c : UInt8) : List UInt8 := [BUFFER_HEAD, c, BUFFER_TAIL]

/-- A frame publishes what position 1 holds when its tail comes. -/
theorem feed_frame (c : UInt8) (s : Art) :
    (s.feed (frame c)).Art_Data = (s.rx.feed Art_format [BUFFER_HEAD, c]).buffer 1 := by
  have h : s.feed (frame c) = Art_uart_callback BUFFER_TAIL (s.feed [BUFFER_HEAD, c]) := rfl
  rw [h, Art_uart_callback_tail, feed_rx]

end Art

end Car2025
