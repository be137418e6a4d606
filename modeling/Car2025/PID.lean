/-
  `PID.c`: the position controller.

  `Value_I_Iso` is read by nothing.
-/
import Mathlib
import Car2025.Lib.CFloat

namespace Car2025

/-- `Pos_PID_t` -/
structure Pos_PID_t (R : Type) where
  Kp : R
  Ki : R
  Kd : R
  Value_D : R
  Value_I : R
  Error : R
  Past_Error : R
  Output : R
  Ref : R
  Output_Max : R
  Output_Min : R
  Value_I_Max : R

section

variable {R : Type} [CFloat R]

/-- `Pos_PID_Init` -/
def Pos_PID_Init (plant : Pos_PID_t R) (Kp Ki Kd : R) : Pos_PID_t R :=
  { plant with
    Error := CFloat.ofInt 0
    Value_I := CFloat.ofInt 0
    Value_D := CFloat.ofInt 0
    Past_Error := CFloat.ofInt 0
    Kp := Kp
    Ki := Ki
    Kd := Kd }

/-- `Pos_PID_Controller`: the output, and the controller afterwards.  The output of a call uses the
    integral before it is limited. -/
def Pos_PID_Controller (plant : Pos_PID_t R) (ValueCurrent : R) : R × Pos_PID_t R :=
  let Error := plant.Ref - ValueCurrent
  let Value_I := plant.Value_I + Error
  let Value_D := CFloat.abs (Error - plant.Past_Error)
  let Output := plant.Kp * Error + plant.Ki * Value_I - Value_D * plant.Kd
  let plant := { plant with
    Error := Error, Value_I := Value_I, Value_D := Value_D, Output := Output, Past_Error := Error }
  let plant :=
    if CFloat.lt plant.Value_I_Max plant.Value_I then { plant with Value_I := plant.Value_I_Max }
    else plant
  let plant :=
    if CFloat.lt plant.Value_I (-plant.Value_I_Max) then
      { plant with Value_I := -plant.Value_I_Max }
    else plant
  if CFloat.lt plant.Output_Max plant.Output then (plant.Output_Max, plant)
  else if CFloat.lt plant.Output plant.Output_Min then (plant.Output_Min, plant)
  else (plant.Output, plant)

/-- A plant before its initialisation: a zeroed global. -/
def Pos_PID_t.zero : Pos_PID_t R :=
  let z : R := CFloat.ofInt 0
  ⟨z, z, z, z, z, z, z, z, z, z, z, z⟩

end

/-! ## What a call keeps and limits, in exact arithmetic -/

/-- The parts of a controller that it never changes itself. -/
def Pos_PID_t.settings {R : Type} (plant : Pos_PID_t R) : R × R × R × R × R × R × R :=
  (plant.Kp, plant.Ki, plant.Kd, plant.Ref, plant.Output_Max, plant.Output_Min, plant.Value_I_Max)

theorem Pos_PID_Controller_settings {R : Type} [CFloat R] (plant : Pos_PID_t R) (v : R) :
    (Pos_PID_Controller plant v).2.settings = plant.settings := by
  rw [Pos_PID_Controller]
  dsimp only
  split_ifs <;> rfl

theorem Pos_PID_Controller_Ref {R : Type} [CFloat R] (plant : Pos_PID_t R) (v : R) :
    (Pos_PID_Controller plant v).2.Ref = plant.Ref := by
  have h := Pos_PID_Controller_settings plant v
  simp only [Pos_PID_t.settings, Prod.mk.injEq] at h
  exact h.2.2.2.1

/-- The output is within its limits. -/
theorem Pos_PID_Controller_output (plant : Pos_PID_t ℚ) (v : ℚ)
    (hlim : plant.Output_Min ≤ plant.Output_Max) :
    plant.Output_Min ≤ (Pos_PID_Controller plant v).1 ∧
      (Pos_PID_Controller plant v).1 ≤ plant.Output_Max := by
  rw [Pos_PID_Controller]
  simp only [CFloat.lt_rat]
  split_ifs <;> constructor <;> dsimp only at * <;> linarith

/-- The integral is within its limit. -/
theorem Pos_PID_Controller_integral (plant : Pos_PID_t ℚ) (v : ℚ) (hlim : 0 ≤ plant.Value_I_Max) :
    |(Pos_PID_Controller plant v).2.Value_I| ≤ plant.Value_I_Max := by
  rw [Pos_PID_Controller, abs_le]
  simp only [CFloat.lt_rat]
  split_ifs <;> constructor <;> dsimp only at * <;> linarith

end Car2025
