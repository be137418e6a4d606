/-
  The part of `car.c` that the vision code commands: the speed request and who may set it.
-/
import Mathlib
import Car2025.Lib.CFloat

namespace Car2025

/-- `Speed_Con_Right` -/
inductive Speed_Con_Right where
  | Con_By_TraceLine
  | Con_By_AngleLoop
  | Con_By_Circule
  deriving DecidableEq, Repr

open Speed_Con_Right

/-- `mecanum_Speed` -/
structure mecanum_Speed (R : Type) where
  Vx : R
  Vy : R
  Omega : R

/-- The globals of `car.c`. -/
structure Car (R : Type) where
  Car_Speed : mecanum_Speed R
  Car_BootSwitch : Bool
  Car_Speed_ConRight : Speed_Con_Right

section

variable {R : Type}

/-- `Car_Change_Speed`: ignored while the car is switched off; the angle loop keeps its own
    `Omega`. -/
def Car_Change_Speed (xSpeed ySpeed aSpeed : R) (car : Car R) : Car R :=
  if car.Car_BootSwitch then
    { car with
      Car_Speed :=
        { Vx := xSpeed
          Vy := ySpeed
          Omega := if car.Car_Speed_ConRight ≠ Con_By_AngleLoop then aSpeed
            else car.Car_Speed.Omega } }
  else car

/-- The globals before `main` runs. -/
def Car.start [CFloat R] : Car R :=
  ⟨⟨CFloat.ofInt 0, CFloat.ofInt 0, CFloat.ofInt 0⟩, true, Con_By_TraceLine⟩

end

end Car2025
