/-
  `locate_box.c`: the task that classifies a picture and pushes it out of the way.

  1. **Program** — `direction_correction_test1` with `push_box`, one step for every read or write of
     a variable that an interrupt also uses; `Pc` names the next one.  Inputs of a step are what it
     reads from outside: the verdict on the image, the level of the pin `C6`.

  2. **Interrupts** — between two steps bytes arrive on the two links, the image camera finishes a
     frame, the attitude is updated and the car's control loop runs.

  3. **Runs** — any sequence of these.

  `center_x` and `center_y` are read together where both are arguments of one call.  `init_angle` and
  what is printed or drawn are left out.
-/
import Mathlib
import Car2025.CarMotion
import Car2025.Classify
import Car2025.Link.Art

namespace Car2025

open Speed_Con_Right

/-! ## State -/

/-- The values of `angle_state`: 0, `Angle_Correct_State`, `Location_Correct_State` and
    `Push_Box_State`. -/
inductive Angle_State where
  | zero
  | Angle_Correct
  | Location_Correct
  | Push_Box
  deriving DecidableEq, Repr

open Angle_State

/-- What the task is about to do. -/
inductive Pc where
  -- before the loop
  | start | right
  -- the head of the loop
  | loop | image | verdict | clearImage | flag
  -- the default branch
  | seek | seekX
  -- `Angle_Correct_State`, up to its `Art_DataClear`
  | angle | angleX | angleY | angleStop | angleState | dataClear
  -- the classification
  | wait | first | firstClear | vote | poll | compare | reload | voted | add | addClear
  -- `Location_Correct_State`
  | location | shouldPush | locationStop | rotate0
  -- `Push_Box_State`
  | push | pushX
  -- `push_box`
  | ahead | low | high | pushStop | back | backStop | rotate
  -- after it
  | reset | finish
  -- the tail of the loop
  | clearFlag | delay
  | done
  deriving DecidableEq, Repr

/-- The calls and assignments that the task is judged by. -/
inductive PushEvent where
  | angle_state (a : Angle_State)
  | Class_Add (Class side : UInt8)
  | push_box (l_or_r : UInt8)
  deriving DecidableEq, Repr

/-- The controllers of `locate_box_data` that the task uses. -/
structure LocateBoxData (R : Type) where
  Transverse_pid : Pos_PID_t R
  Longitudinal_pid : Pos_PID_t R
  Dir_Cen_pid : Pos_PID_t R

/-- What the task works on: its locals, the globals it shares, and a log of its events, the newest
    first.  `tick` is the local of the vote, `gpio_tick` that of `push_box`. -/
structure PushBox (R : Type) where
  pc : Pc
  angle_state : Angle_State
  finish_flag : Bool
  ShouldPush : Bool
  l_or_r : UInt8
  tick : ℕ
  Class : UInt8
  gpio_tick : ℕ
  mcx : MCX
  art : Art
  mt9v03x_finish_flag : Bool
  motion : CarMotion R
  data : LocateBoxData R
  classes : Classes
  log : List PushEvent

/-- What a step reads from outside: the verdict of `PushBox_IsDirectionCorrect`, the level of `C6`,
    and the register that `Class_Add` may leave as its result. -/
structure PushInput where
  verdict : Bool
  gpio : Bool
  junk : UInt8

/-! ## Program -/

def X_CON_REF : ℤ := 160
def AREA_CON_REF : ℤ := 120

section

variable {R : Type} [CFloat R]

/-- `Car_Rotate` -/
def Car_Rotate (angle : R) (s : CarMotion R) : CarMotion R :=
  { s with
    car := { s.car with Car_Speed_ConRight := Con_By_AngleLoop }
    Car_Yaw_Controller := { s.Car_Yaw_Controller with Ref := s.Att_yaw + angle } }

/-- The speeds of `Car_DistanceMotion`. -/
def Car_DistanceMotion_speed (dx dy dt : R) : R × R :=
  let Vx := dx * CFloat.ofInt 130 / CFloat.ofInt 25 / dt
  let Vy := dy * CFloat.ofInt 100 / CFloat.ofInt 30 / dt
  let Car_Max_Speed : R := CFloat.ofInt 1000
  (if CFloat.lt Car_Max_Speed Vx then CFloat.ofInt 200 else Vx,
    if CFloat.lt Car_Max_Speed Vy then CFloat.ofInt 200 else Vy)

namespace PushBox

/-- On to `pc`. -/
def goto (pc : Pc) (s : PushBox R) : PushBox R := { s with pc := pc }

/-- `Car_Change_Speed`, then on to `pc`. -/
def speed (x y a : R) (pc : Pc) (s : PushBox R) : PushBox R :=
  { s with
    pc := pc
    motion := { s.motion with car := Car_Change_Speed x y a s.motion.car } }

/-- An assignment to `Car_Speed_ConRight`, then on to `pc`. -/
def setRight (right : Speed_Con_Right) (pc : Pc) (s : PushBox R) : PushBox R :=
  { s with
    pc := pc
    motion := { s.motion with car := { s.motion.car with Car_Speed_ConRight := right } } }

/-- An assignment to `angle_state`, then on to `pc`. -/
def turn (a : Angle_State) (pc : Pc) (s : PushBox R) : PushBox R :=
  { s with pc := pc, angle_state := a, log := .angle_state a :: s.log }

/-- `Art_DataClear`, then on to `pc`. -/
def clear (pc : Pc) (s : PushBox R) : PushBox R := { s with pc := pc, art := Art_DataClear s.art }

/-- The branch of the switch. -/
def branch (s : PushBox R) : Pc :=
  match s.angle_state with
  | zero => .seek
  | Angle_Correct => .angle
  | Location_Correct => .location
  | Push_Box => .push

/-- `abs(center_x - X_CON_REF) <= n` and `abs(center_y - AREA_CON_REF) <= n` -/
def XNear (s : PushBox R) (n : ℤ) : Prop := |s.mcx.center_x.toInt - X_CON_REF| ≤ n
def YNear (s : PushBox R) (n : ℤ) : Prop := |s.mcx.center_y.toInt - AREA_CON_REF| ≤ n

instance (s : PushBox R) (n : ℤ) : Decidable (s.XNear n) := inferInstanceAs (Decidable (_ ≤ _))
instance (s : PushBox R) (n : ℤ) : Decidable (s.YNear n) := inferInstanceAs (Decidable (_ ≤ _))

/-- The outputs of the three controllers for the present centre, and their states afterwards. -/
def Dir_Cen (s : PushBox R) : R × Pos_PID_t R :=
  Pos_PID_Controller s.data.Dir_Cen_pid (CFloat.ofInt s.mcx.center_x.toInt)
def Longitudinal (s : PushBox R) : R × Pos_PID_t R :=
  Pos_PID_Controller s.data.Longitudinal_pid (CFloat.ofInt s.mcx.center_y.toInt)
def Transverse (s : PushBox R) : R × Pos_PID_t R :=
  Pos_PID_Controller s.data.Transverse_pid (CFloat.ofInt s.mcx.center_x.toInt)

/-- One step of the task. -/
def thread (i : PushInput) (s : PushBox R) : PushBox R :=
  match s.pc with
  | .start => { s with pc := .right, motion := Car_Start s.motion }
  | .right => s.setRight Con_By_TraceLine .loop
  | .loop =>
    if s.finish_flag then s.goto .done else { s with pc := .image, ShouldPush := false }
  | .image => if s.mt9v03x_finish_flag then s.goto .verdict else s.goto .flag
  | .verdict => { s with pc := .clearImage, ShouldPush := i.verdict }
  | .clearImage => { s with pc := .flag, mt9v03x_finish_flag := false }
  | .flag => if s.mcx.MCX_rx_flag then s.goto s.branch else s.goto .delay
  | .seek =>
    { s.speed (CFloat.ofInt 0) (CFloat.ofInt 0) s.Dir_Cen.1 .seekX with
      data := { s.data with Dir_Cen_pid := s.Dir_Cen.2 } }
  | .seekX => if s.XNear 20 then s.turn Angle_Correct .clearFlag else s.goto .clearFlag
  | .angle =>
    { s.speed (CFloat.ofInt 0) s.Longitudinal.1 s.Dir_Cen.1 .angleX with
      data := { s.data with Longitudinal_pid := s.Longitudinal.2, Dir_Cen_pid := s.Dir_Cen.2 } }
  | .angleX => if s.XNear 10 then s.goto .angleY else s.goto .clearFlag
  | .angleY => if s.YNear 15 then s.goto .angleStop else s.goto .clearFlag
  | .angleStop => s.speed (CFloat.ofInt 0) (CFloat.ofInt 0) (CFloat.ofInt 0) .angleState
  | .angleState => s.turn Location_Correct .dataClear
  | .dataClear => { s.clear .wait with tick := 0 }
  -- the loop waits as long as there IS a class
  | .wait => if Art_GetData s.art ≠ 0 then s.goto .wait else s.goto .first
  | .first => { s with pc := .firstClear, Class := Art_GetData s.art }
  | .firstClear => s.clear .vote
  | .vote => if s.tick < 3 then s.goto .poll else s.goto .add
  | .poll => if Art_GetData s.art ≠ 0 then s.goto .compare else s.goto .vote
  | .compare =>
    if s.Class = Art_GetData s.art then { s with pc := .voted, tick := s.tick + 1 }
    else s.goto .reload
  | .reload => { s with pc := .voted, Class := Art_GetData s.art, tick := 0 }
  | .voted => if s.tick < 3 then s.clear .vote else s.goto .vote
  | .add =>
    let (side, classes) := Class_Add i.junk (Art_GetData s.art) s.classes
    { s with
      pc := .addClear
      l_or_r := side
      classes := classes
      log := .Class_Add (Art_GetData s.art) side :: s.log }
  | .addClear => s.clear .clearFlag
  | .location =>
    { s.speed (if s.l_or_r = PUSH_RIGHT then CFloat.ofInt (-250) else CFloat.ofInt 250)
        s.Longitudinal.1 s.Dir_Cen.1 .shouldPush with
      data := { s.data with Longitudinal_pid := s.Longitudinal.2, Dir_Cen_pid := s.Dir_Cen.2 } }
  | .shouldPush => if s.ShouldPush then s.turn Push_Box .locationStop else s.goto .clearFlag
  | .locationStop => s.speed (CFloat.ofInt 0) (CFloat.ofInt 0) (CFloat.ofInt 0) .rotate0
  | .rotate0 => { s with pc := .clearFlag, motion := Car_Rotate (CFloat.ofInt 0) s.motion }
  | .push =>
    { s.speed s.Transverse.1 s.Longitudinal.1 (CFloat.ofInt 0) .pushX with
      data := { s.data with
        Transverse_pid := s.Transverse.2
        Longitudinal_pid := s.Longitudinal.2 } }
  | .pushX => if s.XNear 10 then s.goto .ahead else s.goto .clearFlag
  | .ahead =>
    { s.speed (CFloat.ofInt 0) (CFloat.ofInt 300) (CFloat.ofInt 0) .low with
      gpio_tick := 0
      log := .push_box s.l_or_r :: s.log }
  | .low =>
    if s.gpio_tick ≤ 10 then { s with gpio_tick := if i.gpio then 0 else s.gpio_tick + 1 }
    else { s with pc := .high, gpio_tick := 0 }
  | .high =>
    if s.gpio_tick ≤ 10 then { s with gpio_tick := if i.gpio then s.gpio_tick + 1 else 0 }
    else s.goto .pushStop
  | .pushStop => s.speed (CFloat.ofInt 0) (CFloat.ofInt 0) (CFloat.ofInt 0) .back
  | .back =>
    let (Vx, Vy) := Car_DistanceMotion_speed (CFloat.ofInt 0) (CFloat.ofInt (-30) : R)
      (CFloat.ofRat (7 / 10))
    s.speed Vx Vy s.motion.car.Car_Speed.Omega .backStop
  | .backStop => s.speed (CFloat.ofInt 0) (CFloat.ofInt 0) s.motion.car.Car_Speed.Omega .rotate
  | .rotate =>
    { s with
      pc := .reset
      motion := Car_Rotate (if s.l_or_r = PUSH_RIGHT then CFloat.ofInt 90 else CFloat.ofInt (-90))
        s.motion }
  | .reset => { s with pc := .finish, mcx := MCX_Change_Mode MCX_Reset_Mode s.mcx }
  | .finish => { s.setRight Con_By_TraceLine .clearFlag with finish_flag := true }
  | .clearFlag => { s with pc := .delay, mcx := { s.mcx with MCX_rx_flag := false } }
  | .delay => s.goto .loop
  | .done => s

/-! ## Interrupts -/

/-- A step of the task, bytes on the two links, a frame of the image camera, a new attitude, a turn
    of the car's control loop. -/
inductive Action (R : Type) where
  | thread (i : PushInput)
  | mcx (bytes : List UInt8)
  | art (bytes : List UInt8)
  | image
  | attitude (yaw : R)
  | motion (count : Wheel → ℤ)

def act (s : PushBox R) : Action R → PushBox R
  | .thread i => s.thread i
  | .mcx bytes => { s with mcx := s.mcx.feed bytes }
  | .art bytes => { s with art := s.art.feed bytes }
  | .image => { s with mt9v03x_finish_flag := true }
  | .attitude yaw => { s with motion := { s.motion with Att_yaw := yaw } }
  | .motion count =>
    if s.motion.car.Car_BootSwitch then { s with motion := car_motion_run count s.motion } else s

/-! ## Runs -/

def run (s : PushBox R) (as : List (Action R)) : PushBox R := as.foldl act s

/-- The task is called: its locals are set up, the log starts anew. -/
def enter (s : PushBox R) : PushBox R :=
  { s with pc := .start, angle_state := zero, finish_flag := false, log := [] }

theorem run_append (s : PushBox R) (as bs : List (Action R)) :
    s.run (as ++ bs) = (s.run as).run bs := List.foldl_append

theorem run_concat (s : PushBox R) (as : List (Action R)) (a : Action R) :
    s.run (as ++ [a]) = (s.run as).act a := run_append s as [a]

end PushBox

end

end Car2025
