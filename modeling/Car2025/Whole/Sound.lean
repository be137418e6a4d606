/-
  The invariant of the whole program: who drives the car, and within which bounds.

  1. **Tracing (`Car.Traced`)** — while the push task does not run, the control right is with the
     tracing code and the speed is within what that code asks for.

  2. **The invariant (`Program.Sound`)** — the tracing code's bounds or the push task's, and wheels
     within what both of them allow.  Every step keeps it (`Sound.act`).

  3. **Runs (`Program.run_sound`)** — it holds from the initialisation on.
-/
import Mathlib
import Car2025.Whole.Cycle
import Car2025.Whole.Held

namespace Car2025

open Speed_Con_Right

/-! ## Tracing -/

/-- A car that the tracing code drives.  The bounds are those of its commands: 200 to the side and
    300 of turn are the limits of its controllers, 400 ahead is the larger of its two speeds. -/
structure Car.Traced (car : Car ℚ) : Prop where
  right : car.Car_Speed_ConRight = Con_By_TraceLine
  speed : car.Car_Speed.Within 200 400 300

theorem Car.Traced.change {car : Car ℚ} (h : car.Traced) {vx vy omega : ℚ} (hx : |vx| ≤ 200)
    (hy : |vy| ≤ 400) (ha : |omega| ≤ 300) : (Car_Change_Speed vx vy omega car).Traced :=
  ⟨(Car_Change_Speed_ConRight vx vy omega car).trans h.right,
    Car_Change_Speed_within h.speed hx hy ha⟩

theorem Car.Traced.halt {car : Car ℚ} (h : car.Traced) :
    (Car_Change_Speed (CFloat.ofInt 0) (CFloat.ofInt 0) (CFloat.ofInt 0) car).Traced :=
  h.change (by norm_num) (by norm_num) (by norm_num)

theorem Car.Traced.moved {car car' : Car ℚ} (h : car.Traced) (hmoved : car.Moved car') :
    car'.Traced := by
  cases hmoved with
  | kept => exact h
  | halted => exact h.halt
  | given => exact ⟨rfl, h.speed⟩

/-- `trace_line_method` on the borders of a frame. -/
theorem Car.Traced.method {s : TraceLine ℚ} (h : s.car.Traced) (htuned : s.Tuned) (I : Image) :
    (trace_line_method I s).car.Traced := by
  have hnow : |s.speed_now| ≤ 400 := by
    rw [TraceLine.speed_now]
    split_ifs <;> norm_num
  rcases (htuned.method I).2 with heq | ⟨vx, omega, heq, hvx, homega⟩
  · rw [heq]
    exact h
  · rw [heq]
    exact h.change hvx hnow homega

/-- The speeds of the last move: half a metre in half a second. -/
theorem finishing_speed : Car_DistanceMotion_speed (CFloat.ofInt 0) (CFloat.ofInt 50 : ℚ)
    (CFloat.ofRat (1 / 2)) = (0, 1000 / 3) := by decide +kernel

theorem Car.Traced.command {car : Car ℚ} (h : car.Traced) (stage : Finish) :
    (stage.command car).Traced := by
  cases stage with
  | halt => exact h.halt
  | forward =>
    rw [Finish.command, finishing_speed]
    exact h.change (by norm_num) (by norm_num [abs_le]) h.speed.Omega
  | stop => exact h.change (by norm_num) (by norm_num) h.speed.Omega
  | shown => exact h

/-! ## Steps of the tracing thread -/

section

variable {R : Type} [CFloat R]

/-- The push-box thread leaves the tracing thread where it is. -/
theorem Handover.locate_box_entry_trace (i : PushInput) (s : Handover R) :
    (s.locate_box_entry i).trace = s.trace := by
  rw [locate_box_entry]
  cases s.locate with
  | call | direction_correction_test1 =>
    dsimp only
    split <;> rfl
  | _ => rfl

end

/-! ## The invariant -/

/-- No speed that is ever asked for has a wheel turn faster. -/
def speedLimit : ℚ := 1703

/-- The part of the invariant that is about the car and who drives it.  What may be asked of the
    car depends on whether the push task runs, so there is one bound for each case; `wheels` is the
    bound that both of them imply, and is what a turn of the car's loop keeps. -/
structure Handover.Driven (s : Handover ℚ) : Prop where
  data : s.push.data.Tuned
  wheels : s.push.motion.Sound speedLimit
  held : s.Pushing → s.push.Held
  traced : ¬ s.Pushing → s.push.motion.car.Traced

/-- **A step of the tracing thread**.  While the push task runs it only waits, by the cycle of the
    hand-over, so it commands the car only where the car is its own. -/
theorem Handover.Driven.trace_step {s : Handover ℚ} (h : s.Driven) (hcycle : Cycle s)
    (i : TraceInput ℚ)
    (hdrive : s.Tracing → ∃ car, i.drive s.push.motion = { s.push.motion with car := car } ∧
      car.Traced) : (s.trace_line_entry i).Driven := by
  obtain ⟨hlocate, hdata, hmotion⟩ := s.trace_line_entry_push i
  by_cases hpush : s.Pushing
  · -- it stands before its semaphore
    obtain ⟨⟨stage, hstage⟩, -⟩ := hcycle.pushing hpush
    rw [trace_take i hstage]
    exact ⟨h.data, h.wheels, fun _ => h.held hpush, fun hnot => absurd hpush hnot⟩
  · have hnot : ¬ (s.trace_line_entry i).Pushing := by
      rw [Pushing, hlocate]
      exact hpush
    have htraced := h.traced hpush
    have hcar : ∀ car : Car ℚ, car.Traced →
        (s.trace_line_entry i).push.motion = { s.push.motion with car := car } →
          (s.trace_line_entry i).Driven := by
      intro car hcar hm
      refine ⟨hdata ▸ h.data, ?_, fun hp => absurd hp hnot, fun _ => ?_⟩
      · rw [hm]
        exact h.wheels.setCar car
      · rw [hm]
        exact hcar
    -- it leaves the car, runs its driving code, or halts for the handover
    rcases hmotion with hm | ⟨htracing, hm⟩ | ⟨-, hm⟩
    · exact hcar _ htraced hm
    · obtain ⟨car, heq, hc⟩ := hdrive htracing
      exact hcar car hc (hm.trans heq)
    · exact hcar _ htraced.halt hm

/-- **A step of the push-box thread**: entering the push task it finds the car as the tracing code
    leaves it, and returning it leaves it so. -/
theorem Handover.Driven.locate_step {s : Handover ℚ} (h : s.Driven) (hcycle : Cycle s)
    (i : PushInput) : (s.locate_box_entry i).Driven := by
  rw [locate_box_entry]
  cases hlocate : s.locate with
  | sem_take stage =>
    have hnot : ¬ s.Pushing := by
      rw [Pushing, hlocate]
      exact LocatePc.noConfusion
    refine ⟨h.data, h.wheels, fun hp => ?_, fun _ => h.traced hnot⟩
    rw [Pushing] at hp
    revert hp
    dsimp only
    cases (s.locate_box_sem.take .locate_box stage).1 <;> exact LocatePc.noConfusion
  | call =>
    have hnot : ¬ s.Pushing := by
      rw [Pushing, hlocate]
      exact LocatePc.noConfusion
    have htraced := h.traced hnot
    dsimp only
    split
    · -- it enters: nothing is turned yet, and the tracing code has asked for less than the task may
      refine ⟨h.data, h.wheels, fun _ => ?_, fun hp => absurd rfl hp⟩
      exact ⟨fun ht => Angle_State.noConfusion ht.1, fun _ => htraced.right, fun hs => absurd rfl hs,
        Or.inl (htraced.speed.mono (by norm_num) (by norm_num) (by norm_num)),
        fun _ => htraced.speed.mono (by norm_num) (by norm_num) le_rfl,
        fun hl => absurd hl (PushBox.not_last .start rfl (by decide) rfl), h.data⟩
    · exact ⟨h.data, h.wheels, fun hp => LocatePc.noConfusion hp, fun _ => htraced⟩
  | direction_correction_test1 =>
    have hpush : s.Pushing := hlocate
    obtain ⟨-, htold⟩ := hcycle.pushing hpush
    have hheld := h.held hpush
    dsimp only
    split_ifs with hdone
    · -- it has returned
      obtain ⟨c, d, hstory⟩ := htold.finished_of_done hdone
      have hfinish : s.push.finish_flag = true := hstory.finish.mpr rfl
      have hlast := hheld.last (Or.inr hfinish)
      refine ⟨h.data, h.wheels, fun hp => LocatePc.noConfusion hp, fun _ => ⟨?_, ?_⟩⟩
      · exact hheld.trace fun ht => Bool.noConfusion (ht.2.1.symm.trans hfinish)
      · exact hlast.mono (by norm_num) (by norm_num) le_rfl
    · have hstep := hheld.thread htold i
      exact ⟨hstep.data, h.wheels.thread i, fun _ => hstep, fun hp => absurd rfl hp⟩
  | release =>
    have hnot : ¬ s.Pushing := by
      rw [Pushing, hlocate]
      exact LocatePc.noConfusion
    exact ⟨h.data, h.wheels, fun hp => LocatePc.noConfusion hp, fun _ => h.traced hnot⟩

/-- A step that leaves the car and the push task as they are. -/
theorem Handover.Driven.keep {s s' : Handover ℚ} (h : s.Driven) (hlocate : s'.locate = s.locate)
    (hmotion : s'.push.motion = s.push.motion) (hdata : s'.push.data = s.push.data)
    (hpc : s'.push.pc = s.push.pc) (ha : s'.push.angle_state = s.push.angle_state)
    (hf : s'.push.finish_flag = s.push.finish_flag) : s'.Driven := by
  have hpush : s'.Pushing ↔ s.Pushing := by rw [Pushing, Pushing, hlocate]
  have hturn : s'.push.Turning ↔ s.push.Turning := by
    rw [PushBox.Turning, PushBox.Turning, hpc, ha, hf]
  have hlast : s'.push.Last ↔ s.push.Last := by rw [PushBox.Last, PushBox.Last, hpc, hf]
  refine ⟨hdata ▸ h.data, hmotion ▸ h.wheels, fun hp => ?_, fun hp => ?_⟩
  · have hheld := h.held (hpush.mp hp)
    refine ⟨fun ht => ?_, fun ht => ?_, fun hs => ?_, ?_, fun ht => ?_, fun hl => ?_,
      hdata ▸ h.data⟩
    · rw [hmotion]
      exact hheld.angle (hturn.mp ht)
    · rw [hmotion]
      exact hheld.trace (hturn.not.mp ht)
    · rw [hmotion]
      exact hheld.on (hpc ▸ hs)
    · rw [hmotion]
      exact hheld.speed
    · rw [hmotion]
      exact hheld.turning (ht.imp hturn.mp fun hr => hpc ▸ hr)
    · rw [hmotion]
      exact hheld.last (hlast.mp hl)
  · rw [hmotion]
    exact h.traced (hpush.not.mp hp)

/-- **A turn of the car's loop**: it hands to the wheels what was asked for, or what the angle loop
    makes of it.  Three boxes hold what can be handed over (the tracing code's, and the task's
    before and during the turn), and all of them are below the wheels' bound. -/
theorem Handover.Driven.motion {s : Handover ℚ} (h : s.Driven) (yaw : ℚ) (count : Wheel → ℤ) :
    ({ s with push := { s.push with
      motion := car_motion_run count { s.push.motion with Att_yaw := yaw } } } : Handover ℚ).Driven := by
  have hwheels : ({ s.push.motion with Att_yaw := yaw } : CarMotion ℚ).Sound speedLimit :=
    ⟨h.wheels.motor, h.wheels.forwards, h.wheels.yaw⟩
  generalize hm : ({ s.push.motion with Att_yaw := yaw } : CarMotion ℚ) = m at hwheels ⊢
  have hcar : m.car = s.push.motion.car := by rw [← hm]
  have hrun := car_motion_run_eq count m
  have hcar' : (car_motion_run count m).car = { m.car with Car_Speed := m.handed } := by rw [hrun]
  have hboxes : wheelBound 250 500 1000 ≤ speedLimit ∧ wheelBound 500 500 300 ≤ speedLimit ∧
      wheelBound 200 400 300 ≤ speedLimit := by decide +kernel
  -- the box that holds what is handed to the wheels depends on who drives
  by_cases hpush : s.Pushing
  · have hheld := h.held hpush
    by_cases hturn : s.push.Turning
    · -- the angle loop has the control right
      have hright : m.car.Car_Speed_ConRight = Con_By_AngleLoop := hcar ▸ hheld.angle hturn
      have hhanded : m.handed = { m.car.Car_Speed with
          Omega := (Pos_PID_Controller m.Car_Yaw_Controller m.Att_yaw).1 } := if_pos hright
      have homega := hwheels.yaw.output m.Att_yaw
      have hbox := hheld.turning (Or.inl hturn)
      have hwithin : m.handed.Within 500 500 300 := by
        rw [hhanded, hcar]
        exact ⟨hbox.Vx, hbox.Vy, homega⟩
      refine ⟨h.data, hwheels.motion_run hwithin hboxes.2.1 count, fun _ => ?_,
        fun hp => absurd hpush hp⟩
      refine hheld.setMotion ?_ ?_ ?_ ?_ (Or.inr ⟨hturn, ?_⟩)
      · rw [hcar', hcar]
      · rw [hcar', hcar]
        exact id
      · rw [hcar', hhanded, hcar]
      · rw [hcar', hhanded, hcar]
      · rw [hcar', hhanded]
        exact homega
    · have hright : m.car.Car_Speed_ConRight = Con_By_TraceLine := hcar ▸ hheld.trace hturn
      have hhanded : m.handed = m.car.Car_Speed := if_neg (by rw [hright]; decide)
      refine ⟨h.data, ?_, fun _ => ?_, fun hp => absurd hpush hp⟩
      · rcases hheld.speed with hbox | hbox
        · exact hwheels.motion_run (by rw [hhanded, hcar]; exact hbox) hboxes.1 count
        · exact hwheels.motion_run (by rw [hhanded, hcar]; exact hbox) hboxes.2.1 count
      · refine hheld.setMotion ?_ ?_ ?_ ?_ (Or.inl ?_)
        · rw [hcar', hcar]
        · rw [hcar', hcar]
          exact id
        · rw [hcar', hhanded, hcar]
        · rw [hcar', hhanded, hcar]
        · rw [hcar', hhanded, hcar]
  · have htraced := h.traced hpush
    have hright : m.car.Car_Speed_ConRight = Con_By_TraceLine := hcar ▸ htraced.right
    have hhanded : m.handed = m.car.Car_Speed := if_neg (by rw [hright]; decide)
    refine ⟨h.data, hwheels.motion_run (by rw [hhanded, hcar]; exact htraced.speed) hboxes.2.2 count,
      fun hp => absurd hp hpush, fun _ => ?_⟩
    show (car_motion_run count m).car.Traced
    rw [hcar', hhanded, hcar]
    exact htraced

/-- A change of the switch or the yaw. -/
theorem Handover.Driven.setMotion {s : Handover ℚ} (h : s.Driven) {m : CarMotion ℚ}
    (hwheels : m.Sound speedLimit)
    (hright : m.car.Car_Speed_ConRight = s.push.motion.car.Car_Speed_ConRight)
    (hon : s.push.motion.car.Car_BootSwitch = true → m.car.Car_BootSwitch = true)
    (hspeed : m.car.Car_Speed = s.push.motion.car.Car_Speed) :
    ({ s with push := { s.push with motion := m } } : Handover ℚ).Driven := by
  refine ⟨h.data, hwheels, fun hp => ?_, fun hp => ?_⟩
  · exact (h.held hp).setMotion hright hon (by rw [hspeed]) (by rw [hspeed])
      (Or.inl (by rw [hspeed]))
  · obtain ⟨htrace, hbox⟩ := h.traced hp
    refine ⟨hright.trans htrace, ?_⟩
    show m.car.Car_Speed.Within 200 400 300
    rw [hspeed]
    exact hbox

/-! ## The whole program -/

/-- What holds of the program at any time.  `cycle` says whose turn it is, `finish` that the end of
    the run keeps the tracing thread inside `Vision_Handle` (so that the push task is never called
    again), and with the two of them `driven` says who has the car. -/
structure Program.Sound (s : Program ℚ) : Prop where
  cycle : Cycle s.hand
  finish : s.finish ≠ none → s.hand.trace = .Vision_Handle
  line : s.line.Tuned
  driven : s.hand.Driven

namespace Program

variable {o : Outside} {s : Program ℚ}

/-- While the tracing thread is in its driving code the car is the tracing code's: the push task
    runs only while that thread waits for its semaphore. -/
theorem Sound.tracing (h : s.Sound) (htracing : s.hand.Tracing) : s.motion.car.Traced := by
  refine h.driven.traced (h.cycle.not_pushing fun stage hstage => ?_)
  rcases htracing with htrace | htrace
  · exact TracePc.noConfusion (htrace.symm.trans hstage)
  · exact TracePc.noConfusion (htrace.symm.trans hstage)

/-- What a frame leaves the car as. -/
theorem Sound.drive (h : s.Sound) {car : Car ℚ} (hcar : s.hand.Tracing → car.Traced) (more : Bool) :
    (s.drive car more).hand.Driven :=
  h.driven.trace_step h.cycle _ fun htracing => ⟨car, rfl, hcar htracing⟩

/-- The tracing thread keeps it, case by case of what the thread can do. -/
theorem Sound.traces (h : s.Sound) {s' : Program ℚ} (hs' : s.Traces s') (hcycle : Cycle s'.hand) :
    s'.Sound := by
  cases hs' with
  | idle => exact h
  | finishing stage hfinish =>
    have htrace := h.finish (by rw [hfinish]; exact Option.some_ne_none stage)
    exact ⟨hcycle, fun _ => Handover.trace_line_entry_more htrace _, h.line,
      h.drive (fun htracing => (h.tracing htracing).command stage) true⟩
  | framed vision htrace hmoved hfinish =>
    exact ⟨hcycle, fun hne => absurd hfinish hne, h.line,
      h.drive (fun htracing => (h.tracing htracing).moved hmoved) false⟩
  | finished htrace => exact ⟨hcycle, fun _ => htrace, h.line, h.driven⟩
  | traced htrace hfinish =>
    have htuned : s.traced.Tuned := ⟨h.line.Normal, h.line.Vx⟩
    refine ⟨hcycle, fun hne => absurd hfinish hne, (htuned.method s.vision.Image_S).1, ?_⟩
    exact h.drive (fun htracing => Car.Traced.method (h.tracing htracing) htuned _) false
  | along htrace hfinish =>
    exact ⟨hcycle, fun hne => absurd hfinish hne, h.line,
      h.driven.trace_step h.cycle _ fun htracing => absurd htracing htrace⟩

/-- **A step of the car's thread**: with the switch on it is a turn of the car's loop, otherwise
    only the yaw is read. -/
theorem Sound.car_motion (h : s.Sound) (r : Reading) (count : Wheel → ℤ) :
    (s.act o (.car_motion r count)).hand.Driven := by
  show (s.setMotion (car_motion_entry r count (s.att, s.motion)).2).hand.Driven
  rw [car_motion_entry]
  dsimp only
  split
  · exact h.driven.motion _ count
  · exact h.driven.setMotion
      ⟨h.driven.wheels.motor, h.driven.wheels.forwards, h.driven.wheels.yaw⟩ rfl id rfl

/-- **Every step** keeps the invariant.  The cycle of the hand-over is kept by itself; the rest is
    a lemma for each thread that drives, and the interrupts leave the car alone. -/
theorem Sound.act (h : s.Sound) (a : Action ℚ) : (s.act o a).Sound := by
  have hcycle : Cycle (s.act o a).hand := act_cycle h.cycle a
  cases a with
  | trace_line working c => exact h.traces (trace_line_entry_cases working c) hcycle
  | locate_box i =>
    exact ⟨hcycle, fun hne => (Handover.locate_box_entry_trace i s.hand).trans (h.finish hne), h.line,
      h.driven.locate_step h.cycle i⟩
  | car_motion r count => exact ⟨hcycle, h.finish, h.line, h.car_motion (o := o) r count⟩
  | mcx bytes => exact ⟨hcycle, h.finish, h.line, h.driven.keep rfl rfl rfl rfl rfl rfl⟩
  | art bytes => exact ⟨hcycle, h.finish, h.line, h.driven.keep rfl rfl rfl rfl rfl rfl⟩
  | image => exact ⟨hcycle, h.finish, h.line, h.driven.keep rfl rfl rfl rfl rfl rfl⟩
  | clock ticks => exact ⟨hcycle, h.finish, h.line, h.driven.keep rfl rfl rfl rfl rfl rfl⟩
  | button =>
    exact ⟨hcycle, h.finish, h.line,
      h.driven.setMotion (h.driven.wheels.setCar _) rfl (fun _ => rfl) rfl⟩
  | CarStart => exact ⟨hcycle, h.finish, h.line, h.driven⟩

/-! ## The initialisation -/

/-- Before the switch is turned off the wheels are asked to stand still: the thread of the car may
    take any number of turns with the switch on, and the speed record is still zero. -/
structure Idling (m : CarMotion ℚ) : Prop where
  sound : m.Sound 0
  right : m.car.Car_Speed_ConRight = Con_By_TraceLine
  speed : m.car.Car_Speed.Within 0 0 0

/-- A turn of the thread of the car keeps it: the targets are those of the speed zero. -/
theorem Idling.entry {x : Attitude ℚ × CarMotion ℚ} (h : Idling x.2) (r : Reading)
    (count : Wheel → ℤ) : Idling (car_motion_entry r count x).2 := by
  rw [car_motion_entry]
  dsimp only
  have hsound : ({ x.2 with Att_yaw := (Att_GetYaw r x.1).1 } : CarMotion ℚ).Sound 0 :=
    ⟨h.sound.motor, h.sound.forwards, h.sound.yaw⟩
  split
  · have hhanded : ({ x.2 with Att_yaw := (Att_GetYaw r x.1).1 } : CarMotion ℚ).handed =
        x.2.car.Car_Speed := if_neg (by rw [h.right]; decide)
    refine ⟨hsound.motion_run (by rw [hhanded]; exact h.speed) (by decide +kernel) count, ?_, ?_⟩
    · exact (car_motion_run_ConRight count _).trans h.right
    · rw [car_motion_run_eq]
      show CarMotion.handed _ |>.Within 0 0 0
      rw [hhanded]
      exact h.speed
  · exact ⟨hsound, h.right, h.speed⟩

theorem Idling.entries (turns : List (Reading × (Wheel → ℤ))) :
    ∀ x : Attitude ℚ × CarMotion ℚ, Idling x.2 →
      Idling (turns.foldl (fun s t => car_motion_entry t.1 t.2 s) x).2 := by
  induction turns with
  | nil => exact fun x h => h
  | cons t turns ih => exact fun x h => ih _ (h.entry t.1 t.2)

/-- The car's globals when the thread is started. -/
theorem Idling.start : Idling { (CarMotion.zero : CarMotion ℚ) with
    motors := Motor_init CarMotion.zero.motors
    Car_Yaw_Controller := (car_motion_Init CarMotion.zero).Car_Yaw_Controller
    car := { CarMotion.zero.car with Car_Speed_ConRight := Con_By_TraceLine } } where
  sound := by
    refine ⟨fun w => ?_, fun w => ?_, rfl, rfl, rfl, rfl, rfl⟩
    · cases w <;> exact Motor.init_within _ _ _ _ le_rfl
    · have htarget : CarMotion.target { (CarMotion.zero : CarMotion ℚ) with
          motors := Motor_init CarMotion.zero.motors } w = 0 := by cases w <;> rfl
      exact (congrArg (w.sign * ·) htarget).trans_le ((mul_zero _).trans_le maxLinearSpeed_pos.le)
  right := rfl
  speed := ⟨abs_zero.le, abs_zero.le, abs_zero.le⟩

/-- **After `car_motion_Init`** the car is parked, whatever turns its thread has made before the
    switch was cleared. -/
theorem car_motion_Init_started_sound (samples : ℕ → Axes ℤ)
    (turns : List (Reading × (Wheel → ℤ))) :
    (car_motion_Init_started samples turns : Attitude ℚ × CarMotion ℚ).2.Sound 0 ∧
      (car_motion_Init_started samples turns : Attitude ℚ × CarMotion ℚ).2.car.Car_Speed_ConRight =
        Con_By_TraceLine := by
  -- the turns before the switch is off ask for the speed 0, and `Car_Stop` takes the duty
  have h := Idling.entries turns (Att_Algo_Init samples Attitude.zero, _) Idling.start
  exact ⟨⟨fun w => (h.sound.motor w).still, h.sound.forwards, h.sound.yaw⟩, h.right⟩

theorem start_sound (b : Boot ℚ) : b.start.Sound := by
  obtain ⟨hwheels, hright⟩ := car_motion_Init_started_sound b.samples b.turns
  refine ⟨Handover.start_cycle _ b.now, fun h => absurd rfl h, ⟨⟨rfl, rfl⟩, ⟨rfl, rfl⟩⟩, ?_⟩
  refine ⟨⟨⟨rfl, rfl⟩, ⟨rfl, rfl⟩, ⟨rfl, rfl⟩⟩, ?_, fun hp => LocatePc.noConfusion hp, fun _ => ?_⟩
  · refine ⟨fun w => ?_, hwheels.forwards, hwheels.yaw⟩
    have hw := hwheels.motor w
    have hpos : (0 : ℚ) ≤ speedLimit := by decide +kernel
    exact ⟨hw.limited, hw.target.trans hpos, hw.Ref.trans hpos, hw.duty, hw.integral⟩
  · exact ⟨hright, abs_zero.le.trans (by norm_num), abs_zero.le.trans (by norm_num),
      abs_zero.le.trans (by norm_num)⟩

/-- **Every run** keeps the invariant, by induction on the run: `start_sound` begins it, and
    `Sound.act` is the step. -/
theorem run_sound (b : Boot ℚ) (as : List (Action ℚ)) : (b.start.run o as).Sound := by
  induction as using List.reverseRecOn with
  | nil => exact start_sound b
  | append_singleton as a ih =>
    rw [run_concat]
    exact ih.act a

end Program

end Car2025
