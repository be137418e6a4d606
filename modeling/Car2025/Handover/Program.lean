/-
  `trace_line.c` and `locate_box.c`: the tracing thread and the push-box thread.

  1. **Program** — `trace_line_entry` and `locate_box_entry`, one step for every access to something
     that is shared: the semaphores, the flags, the camera's mode, the clock.

  2. **Interrupts** — between two steps the interrupts of `PushBox` may run and time may pass.

  3. **Runs** — any sequence of these, from the state that the two `_init` functions leave.

  Of `Vision_Handle` and `trace_line_method` the model has how long they run and what they do to the
  car.  What is printed is left out.
-/
import Mathlib
import Car2025.Lib.Semaphore
import Car2025.PushBox.Story

namespace Car2025

open Semaphore

/-! ## State -/

/-- The two threads. -/
inductive Thread where
  | trace_line
  | locate_box
  deriving DecidableEq, Repr

/-- What the tracing thread is about to do. -/
inductive TracePc where
  | loop
  -- its driving code
  | Vision_Handle | trace_line_method
  | clearFinish | delay
  | detection
  -- the branch of `MCX_Detection_Flag`
  | stop | stopDelay | release
  | sem_take (stage : Stage)
  | tick | pushFlag | clearDetection
  -- the branch of `push_flag`
  | timer | Change_Mode | clearPush
  deriving DecidableEq, Repr

/-- What the push-box thread is about to do. -/
inductive LocatePc where
  | sem_take (stage : Stage)
  | call
  -- its driving code
  | direction_correction_test1
  | release
  deriving DecidableEq, Repr

/-- The calls that the hand-over is judged by, with the tick count since the start. -/
inductive HandoverEvent where
  | enter (now : ℕ)
  | exit (now : ℕ)
  | detect (now : ℕ)
  deriving DecidableEq, Repr

/-- The two threads and all they share.  `tick` and `push_flag` are the statics of
    `trace_line_entry`; `log` has the newest event first. -/
structure Handover (R : Type) where
  trace : TracePc
  tick : Int32
  push_flag : Bool
  locate : LocatePc
  locate_debug_flag : UInt8
  trace_line_sem : Sem Thread
  locate_box_sem : Sem Thread
  push : PushBox R
  now : ℕ
  log : List HandoverEvent

/-- What a step of the tracing thread brings with it: what its driving code does to the car, and
    whether it goes on after that. -/
structure TraceInput (R : Type) where
  drive : CarMotion R → CarMotion R
  more : Bool

/-! ## Program -/

/-- `RT_SEM_VALUE_MAX` -/
def RT_SEM_VALUE_MAX : ℕ := 65535

/-- `rt_tick_get`: the count wraps around. -/
def rt_tick_get (now : ℕ) : UInt32 := UInt32.ofNat now

namespace Handover

section

variable {R : Type} [CFloat R]

/-- One step of `trace_line_entry`. -/
def trace_line_entry (i : TraceInput R) (s : Handover R) : Handover R :=
  match s.trace with
  | .loop =>
    if s.push.mt9v03x_finish_flag then { s with trace := .Vision_Handle }
    else { s with trace := .delay }
  | .Vision_Handle =>
    { s with
      trace := if i.more then .Vision_Handle else .trace_line_method
      push := { s.push with motion := i.drive s.push.motion } }
  | .trace_line_method =>
    { s with
      trace := if i.more then .trace_line_method else .clearFinish
      push := { s.push with motion := i.drive s.push.motion } }
  | .clearFinish => { s with trace := .delay, push := { s.push with mt9v03x_finish_flag := false } }
  | .delay => { s with trace := .detection }
  | .detection =>
    if s.push.mcx.MCX_Detection_Flag then { s with trace := .stop } else { s with trace := .timer }
  | .stop =>
    { s with
      trace := .stopDelay
      push := s.push.speed (CFloat.ofInt 0) (CFloat.ofInt 0) (CFloat.ofInt 0) s.push.pc }
  | .stopDelay => { s with trace := .release }
  | .release =>
    { s with
      trace := .sem_take .take
      locate_box_sem := s.locate_box_sem.release RT_SEM_VALUE_MAX }
  | .sem_take stage =>
    let (stage, sem) := s.trace_line_sem.take .trace_line stage
    { s with trace := stage.elim .tick .sem_take, trace_line_sem := sem }
  | .tick => { s with trace := .pushFlag, tick := (rt_tick_get s.now).toInt32 }
  | .pushFlag => { s with trace := .clearDetection, push_flag := true }
  | .clearDetection =>
    { s with
      trace := .timer
      push := { s.push with mcx := { s.push.mcx with MCX_Detection_Flag := false } } }
  | .timer =>
    if s.push_flag ∧ 2000 < rt_tick_get s.now - s.tick.toUInt32 then { s with trace := .Change_Mode }
    else { s with trace := .loop }
  | .Change_Mode =>
    { s with
      trace := .clearPush
      push := { s.push with mcx := MCX_Change_Mode MCX_Detection_Mode s.push.mcx }
      log := .detect s.now :: s.log }
  | .clearPush => { s with trace := .loop, push_flag := false }

/-- One step of `locate_box_entry`; `locate_box_pull` does nothing. -/
def locate_box_entry (i : PushInput) (s : Handover R) : Handover R :=
  match s.locate with
  | .sem_take stage =>
    let (stage, sem) := s.locate_box_sem.take .locate_box stage
    { s with locate := stage.elim .call .sem_take, locate_box_sem := sem }
  | .call =>
    if s.locate_debug_flag = 1 then
      { s with
        locate := .direction_correction_test1
        push := s.push.enter
        log := .enter s.now :: s.log }
    else { s with locate := .release }
  | .direction_correction_test1 =>
    if s.push.pc = .done then { s with locate := .release, log := .exit s.now :: s.log }
    else { s with push := s.push.thread i }
  | .release =>
    { s with
      locate := .sem_take .take
      trace_line_sem := s.trace_line_sem.release RT_SEM_VALUE_MAX }

/-! ## Runs -/

/-- A step of one of the threads, an interrupt, time passes. -/
inductive Action (R : Type) where
  | trace_line (i : TraceInput R)
  | locate_box (i : PushInput)
  | interrupt (a : {a : PushBox.Action R // ∀ i, a ≠ .thread i})
  | clock (ticks : ℕ)

def act (s : Handover R) : Action R → Handover R
  | .trace_line i => s.trace_line_entry i
  | .locate_box i => s.locate_box_entry i
  | .interrupt a => { s with push := s.push.act a }
  | .clock ticks => { s with now := s.now + ticks }

def run (s : Handover R) (as : List (Action R)) : Handover R := as.foldl act s

/-- After the initialisation, with any state of what the other modules own. -/
def start (push : PushBox R) (now : ℕ) : Handover R where
  trace := .loop
  tick := 0
  push_flag := false
  locate := .sem_take .take
  locate_debug_flag := 1
  trace_line_sem := Sem.empty
  locate_box_sem := Sem.empty
  push := push
  now := now
  log := []

theorem run_concat (s : Handover R) (as : List (Action R)) (a : Action R) :
    s.run (as ++ [a]) = (s.run as).act a := List.foldl_append

end

/-! ## Driving -/

variable {R : Type}

/-- The tracing thread is in `Vision_Handle` or `trace_line_method`. -/
def Tracing (s : Handover R) : Prop := s.trace = .Vision_Handle ∨ s.trace = .trace_line_method

/-- The push-box thread is in `direction_correction_test1`. -/
def Pushing (s : Handover R) : Prop := s.locate = .direction_correction_test1

end Handover

end Car2025
