/-
  The program as a whole: the threads of `trace_line.c`, `locate_box.c`, `car.c` and `main.c`, and the
  interrupts, on one state.

  1. **Program** — `Handover` has the two threads that take turns at driving, with any driving code.
     Here the driving code is the program's: a frame goes through `Vision_picture` and
     `trace_line_method`, and a zebra crossing that ends the run keeps the thread for ever.  The
     thread of the car reads the attitude and, while the switch is on, turns the wheels; `main`
     starts the car at a button.

  2. **Initialisation** — the thread of the car comes before `main`, which starts it before it turns
     the switch off: its first turns are part of `car_motion_Init`.

  3. **Runs** — any sequence of steps and interrupts.

  `Vision` and `TraceLine` hold copies of what other files own; they are filled in before a function is
  called.  The borders that `Camera_FindMyLine` finds in an image and the readings of the yaw in a
  frame are inputs.  A frame that stops elsewhere than at the end of the run keeps the thread where it
  is.  `run_time` and `speed_forward` are used by nothing that drives.  Of the shell's commands only
  `CarStart` is here; those for debugging, `CarStop`, `CarMove` and `setarg` among them, are not.
-/
import Mathlib
import Car2025.Attitude
import Car2025.Handover.Cycle
import Car2025.Whole.Frame
import Car2025.Vision.Zebra

namespace Car2025

open Speed_Con_Right

/-! ## State -/

/-- What the end of the run in `Vision_ZebraHandle` is about to do: `Car_Change_Speed`, the two of
    `Car_DistanceMotion`, and the loop that shows the results. -/
inductive Finish where
  | halt
  | forward
  | stop
  | shown
  deriving DecidableEq, Repr

/-- The two threads that drive, and what the tracing code and the car's thread keep. -/
structure Program (R : Type) where
  hand : Handover R
  vision : Vision R
  line : TraceLine R
  att : Attitude R
  finish : Option Finish

section

variable {R : Type} [CFloat R]

/-! ## The car's thread -/

/-- One iteration of `car_motion_entry`. -/
def car_motion_entry (r : Reading) (count : Wheel → ℤ) (s : Attitude R × CarMotion R) :
    Attitude R × CarMotion R :=
  let (yaw, att) := Att_GetYaw r s.1
  let m := { s.2 with Att_yaw := yaw }
  (att, if m.car.Car_BootSwitch then car_motion_run count m else m)

/-- `car_motion_Init`, with the turns of the thread that it starts. -/
def car_motion_Init_started (samples : ℕ → Axes ℤ) (turns : List (Reading × (Wheel → ℤ))) :
    Attitude R × CarMotion R :=
  let m : CarMotion R := { CarMotion.zero with
    motors := Motor_init CarMotion.zero.motors
    Car_Yaw_Controller := (car_motion_Init CarMotion.zero).Car_Yaw_Controller
    car := { CarMotion.zero.car with Car_Speed_ConRight := Con_By_TraceLine } }
  -- the turns are those before `Car_BootSwitch` is cleared
  let (att, m) := turns.foldl (fun s t => car_motion_entry t.1 t.2 s)
    (Att_Algo_Init samples Attitude.zero, m)
  (att, Car_Stop { m with car := { m.car with
    Car_Speed := ⟨CFloat.ofInt 0, CFloat.ofInt 0, CFloat.ofInt 0⟩
    Car_BootSwitch := false } })

/-- Without such turns it is the same as `car_motion_Init`. -/
theorem car_motion_Init_started_nil (samples : ℕ → Axes ℤ) :
    (car_motion_Init_started samples [] : Attitude R × CarMotion R).2 =
      car_motion_Init CarMotion.zero := rfl

/-- The controllers that `locate_box_init` sets up, as far as the push task uses them. -/
def locate_box_init (d : LocateBoxData R) : LocateBoxData R where
  Longitudinal_pid :=
    { Pos_PID_Init d.Longitudinal_pid (CFloat.ofInt 3) (CFloat.ofInt 0) (CFloat.ofRat (1 / 2)) with
      Output_Max := CFloat.ofInt 500
      Output_Min := CFloat.ofInt (-500)
      Value_I_Max := CFloat.ofInt 500
      Ref := CFloat.ofInt AREA_CON_REF }
  Transverse_pid :=
    { Pos_PID_Init d.Transverse_pid (CFloat.ofRat (13 / 10)) (CFloat.ofInt 0) (CFloat.ofInt 0) with
      Output_Max := CFloat.ofInt 500
      Output_Min := CFloat.ofInt (-500)
      Value_I_Max := CFloat.ofInt 500
      Ref := CFloat.ofInt X_CON_REF }
  Dir_Cen_pid :=
    { Pos_PID_Init d.Dir_Cen_pid (CFloat.ofInt (-1)) (CFloat.ofInt 0) (CFloat.ofInt 0) with
      Output_Max := CFloat.ofInt 1000
      Output_Min := CFloat.ofInt (-1000)
      Value_I_Max := CFloat.ofInt 500
      Ref := CFloat.ofInt X_CON_REF }

/-- What it does to the car at this stage. -/
def Finish.command (stage : Finish) (car : Car R) : Car R :=
  match stage with
  | halt => Car_Change_Speed (CFloat.ofInt 0) (CFloat.ofInt 0) (CFloat.ofInt 0) car
  | forward =>
    let (Vx, Vy) := Car_DistanceMotion_speed (CFloat.ofInt 0) (CFloat.ofInt 50 : R)
      (CFloat.ofRat (1 / 2))
    Car_Change_Speed Vx Vy car.Car_Speed.Omega car
  | stop => Car_Change_Speed (CFloat.ofInt 0) (CFloat.ofInt 0) car.Car_Speed.Omega car
  | shown => car

def Finish.next : Finish → Finish
  | halt => forward
  | forward => stop
  | stop => shown
  | shown => shown

namespace Program

/-- What the threads drive. -/
def motion (s : Program R) : CarMotion R := s.hand.push.motion

def setMotion (s : Program R) (m : CarMotion R) : Program R :=
  { s with hand := { s.hand with push := { s.hand.push with motion := m } } }

/-! ## The tracing thread -/

/-- A step of the tracing thread's driving code, which leaves the car as `car`. -/
def drive (car : Car R) (more : Bool) (s : Program R) : Program R :=
  { s with hand := s.hand.trace_line_entry ⟨fun m => { m with car := car }, more⟩ }

/-- The end of the run in `Vision_ZebraHandle`, on its way: the thread never leaves `Vision_Handle`. -/
def finishing (stage : Finish) (s : Program R) : Program R :=
  { s.drive (stage.command s.motion.car) true with finish := some stage.next }

/-- The frame of an image, as `Vision_Handle` finds it. -/
def picture (c : Picture R) (s : Program R) : Picture R :=
  { c with
    Start_Flag := s.vision.Start_Flag
    car := s.motion.car
    inp := { c.inp with rt_tick := (rt_tick_get s.hand.now).toNat } }

/-- What `trace_line_method` finds. -/
def traced (s : Program R) : TraceLine R :=
  { s.line with
    car := s.motion.car
    icm20602_gyro_z := s.att.icm20602_gyro.z
    Current_Road := s.vision.Current_Road
    cir_speed_flag := s.vision.cir_speed_flag }

/-- `Vision_Handle`, at its end. -/
def Vision_Handle (o : Outside) (c : Picture R) (s : Program R) : Program R :=
  match Vision_picture o s.vision (s.picture c) with
  | .ok vision => { s.drive vision.car false with vision := vision }
  | .error .finished => { s with finish := some .halt }
  -- a read outside the arrays; what follows it is not modelled
  | .error _ => s

/-- `trace_line_method`, on the borders of the frame. -/
def method (s : Program R) : Program R :=
  { s.drive (trace_line_method s.vision.Image_S s.traced).car false with
    line := trace_line_method s.vision.Image_S s.traced }

/-- A step of the tracing thread outside its driving code. -/
def along (s : Program R) : Program R := { s with hand := s.hand.trace_line_entry ⟨id, false⟩ }

/-- One step of `trace_line_entry`; in `Vision_Handle` it may just work on. -/
def trace_line_entry (o : Outside) (working : Bool) (c : Picture R) (s : Program R) : Program R :=
  match s.finish with
  -- `Vision_ZebraHandle` does not return any more
  | some stage => s.finishing stage
  | none =>
    match s.hand.trace with
    | .Vision_Handle => if working then s else s.Vision_Handle o c
    | .trace_line_method => s.method
    | _ => s.along

/-! ## Runs -/

/-- The steps of a run: one of a thread (`trace_line`, `locate_box`, `car_motion`), one of the two serial
    interrupts, a finished image, time passes, the start button, or the shell's `CarStart`.  The commands
    `CarStop`, `CarMove` and `setarg`, which are there for debugging, are left out, so what is proved of
    runs is proved of runs without them. -/
inductive Action (R : Type) where
  | trace_line (working : Bool) (c : Picture R)
  | locate_box (i : PushInput)
  | car_motion (r : Reading) (count : Wheel → ℤ)
  | mcx (bytes : List UInt8)
  | art (bytes : List UInt8)
  | image
  | clock (ticks : ℕ)
  | button
  | CarStart

def act (o : Outside) (s : Program R) : Action R → Program R
  | .trace_line working c => s.trace_line_entry o working c
  | .locate_box i => { s with hand := s.hand.locate_box_entry i }
  | .car_motion r count =>
    { s.setMotion (car_motion_entry r count (s.att, s.motion)).2 with
      att := (car_motion_entry r count (s.att, s.motion)).1 }
  | .mcx bytes => { s with hand := s.hand.act (.interrupt ⟨.mcx bytes, nofun⟩) }
  | .art bytes => { s with hand := s.hand.act (.interrupt ⟨.art bytes, nofun⟩) }
  | .image => { s with hand := s.hand.act (.interrupt ⟨.image, nofun⟩) }
  | .clock ticks => { s with hand := s.hand.act (.clock ticks) }
  | .button => s.setMotion (Car_Start s.motion)
  -- the shell sets `Start_Flag` only, the button starts the car
  | .CarStart => { s with vision := Car2025.CarStart s.vision }

def run (o : Outside) (s : Program R) (as : List (Action R)) : Program R := as.foldl (act o) s

theorem run_append (o : Outside) (s : Program R) (as bs : List (Action R)) :
    s.run o (as ++ bs) = (s.run o as).run o bs := List.foldl_append

theorem run_concat (o : Outside) (s : Program R) (as : List (Action R)) (a : Action R) :
    s.run o (as ++ [a]) = (s.run o as).act o a := run_append o s as [a]

end Program

variable (R) in
/-- What the initialisation finds: the samples that calibrate the gyroscope, the first turns of the
    car's thread, and any state of the links and of what the push task sets itself. -/
structure Boot where
  samples : ℕ → Axes ℤ
  turns : List (Reading × (Wheel → ℤ))
  Image_S : Image
  push : PushBox R
  now : ℕ

/-- After the initialisation. -/
def Boot.start (b : Boot R) : Program R where
  hand := Handover.start
    { b.push with
      motion := (car_motion_Init_started b.samples b.turns).2
      data := locate_box_init b.push.data } b.now
  vision := Vision.start b.Image_S
  line := trace_line_init TraceLine.zero
  att := (car_motion_Init_started b.samples b.turns).1
  finish := none

end

end Car2025
