/-
  Runs of the position controller, in exact arithmetic.

  1. **Runs** — from `Pos_PID_Init` on, the integral is the saturated sum of the errors and the past
     error is the last one (`Tuning.after_spec`).  What a call returns follows from the measurements
     alone (`Tuning.output_eq`).

  2. **Symmetry (`Pos_PID_symmetric_iff`)** — the derivative term is a magnitude: it does not change
     its sign with the error, and mirrored measurements give opposite outputs only where it does not
     show.

  3. **Integral (`Pos_PID_integral_iff`)** — the output is computed before the integral is limited: it
     uses the saturated sum exactly where the sum before saturation is within the limit.
-/
import Mathlib
import Car2025.PID
import Car2025.Lib.Runs
import Car2025.Lib.Saturate

namespace Car2025

open Runs Saturate

/-! ## Runs -/

/-- What is set on a controller when it is initialised. -/
structure Tuning where
  Kp : ℚ
  Ki : ℚ
  Kd : ℚ
  Ref : ℚ
  Output_Max : ℚ
  Output_Min : ℚ
  Value_I_Max : ℚ

/-- The controller after `Pos_PID_Init`, with its reference and its limits. -/
def Tuning.start (t : Tuning) (plant : Pos_PID_t ℚ) : Pos_PID_t ℚ :=
  { Pos_PID_Init plant t.Kp t.Ki t.Kd with
    Ref := t.Ref
    Output_Max := t.Output_Max
    Output_Min := t.Output_Min
    Value_I_Max := t.Value_I_Max }

/-- The controller after a sequence of measurements. -/
def Pos_PID_t.after (plant : Pos_PID_t ℚ) (ms : List ℚ) : Pos_PID_t ℚ :=
  ms.foldl (fun plant m => (Pos_PID_Controller plant m).2) plant

/-- What the controller returns for the measurement `m`. -/
def Pos_PID_t.output (plant : Pos_PID_t ℚ) (m : ℚ) : ℚ := (Pos_PID_Controller plant m).1

/-- The part of `Output` that comes from the integral. -/
def Pos_PID_t.integral_part (plant : Pos_PID_t ℚ) : ℚ :=
  plant.Output - (plant.Kp * plant.Error - plant.Value_D * plant.Kd)

theorem Pos_PID_t.after_concat (plant : Pos_PID_t ℚ) (ms : List ℚ) (m : ℚ) :
    plant.after (ms ++ [m]) = (Pos_PID_Controller (plant.after ms) m).2 := by
  rw [Pos_PID_t.after, List.foldl_append, List.foldl_cons, List.foldl_nil, Pos_PID_t.after]

/-- **One call**, as limits of a value.  The output is made of the sum before it is limited, and
    what is kept is the sum after it. -/
theorem Pos_PID_Controller_eq (plant : Pos_PID_t ℚ) (m : ℚ) (h : 0 ≤ plant.Value_I_Max) :
    Pos_PID_Controller plant m =
      (limit plant.Output_Min plant.Output_Max
        (plant.Kp * (plant.Ref - m) + plant.Ki * (plant.Value_I + (plant.Ref - m)) -
          |plant.Ref - m - plant.Past_Error| * plant.Kd),
      { plant with
        Error := plant.Ref - m
        Value_I := limit (-plant.Value_I_Max) plant.Value_I_Max (plant.Value_I + (plant.Ref - m))
        Value_D := |plant.Ref - m - plant.Past_Error|
        Output := plant.Kp * (plant.Ref - m) + plant.Ki * (plant.Value_I + (plant.Ref - m)) -
          |plant.Ref - m - plant.Past_Error| * plant.Kd
        Past_Error := plant.Ref - m }) := by
  rw [← limit_two_tests h]
  simp only [Pos_PID_Controller, limit, CFloat.lt_rat, CFloat.abs_rat]
  split_ifs <;> rfl

namespace Tuning

variable (t : Tuning) (plant : Pos_PID_t ℚ)

/-- The errors of a sequence of measurements. -/
def errors (ms : List ℚ) : List ℚ := ms.map fun m => t.Ref - m

/-- The saturated sum of the errors. -/
def integral (ms : List ℚ) : ℚ := total t.Value_I_Max (t.errors ms)

/-- The last error; 0 at the start. -/
def last_error (ms : List ℚ) : ℚ := (t.errors ms).getLastD 0

/-- The magnitude of the change of the error. -/
def change (ms : List ℚ) (m : ℚ) : ℚ := |t.Ref - m - t.last_error ms|

/-- The terms of the output that change their sign with the errors; the sum of the errors is not
    yet saturated. -/
def signed_part (ms : List ℚ) (m : ℚ) : ℚ :=
  t.Kp * (t.Ref - m) + t.Ki * (t.integral ms + (t.Ref - m))

theorem errors_concat (ms : List ℚ) (m : ℚ) : t.errors (ms ++ [m]) = t.errors ms ++ [t.Ref - m] := by
  rw [errors, List.map_append, List.map_singleton, errors]

theorem integral_concat (ms : List ℚ) (m : ℚ) :
    t.integral (ms ++ [m]) =
      limit (-t.Value_I_Max) t.Value_I_Max (t.integral ms + (t.Ref - m)) := by
  rw [integral, errors_concat, total_concat, integral]

theorem last_error_concat (ms : List ℚ) (m : ℚ) : t.last_error (ms ++ [m]) = t.Ref - m := by
  rw [last_error, errors_concat, List.getLastD_concat]

/-- What a controller carries from one call to the next: its settings, the saturated sum, and the
    last error. -/
structure Carries (s : Pos_PID_t ℚ) (ms : List ℚ) : Prop where
  settings : s.settings =
    (t.Kp, t.Ki, t.Kd, t.Ref, t.Output_Max, t.Output_Min, t.Value_I_Max)
  Value_I : s.Value_I = t.integral ms
  Past_Error : s.Past_Error = t.last_error ms

variable {t}

/-- What a call returns, and what it leaves. -/
theorem Carries.call (h : 0 ≤ t.Value_I_Max) {s : Pos_PID_t ℚ} {ms : List ℚ} (hs : t.Carries s ms)
    (m : ℚ) :
    t.Carries (Pos_PID_Controller s m).2 (ms ++ [m]) ∧
    s.output m = limit t.Output_Min t.Output_Max
      (t.signed_part ms m - t.Kd * t.change ms m) ∧
    (Pos_PID_Controller s m).2.integral_part = t.Ki * (t.integral ms + (t.Ref - m)) := by
  have hset := hs.settings
  simp only [Pos_PID_t.settings, Prod.mk.injEq] at hset
  obtain ⟨hKp, hKi, hKd, hRef, hMax, hMin, hI⟩ := hset
  have hcall := Pos_PID_Controller_eq s m (by rw [hI]; exact h)
  rw [hRef, hI, hMax, hMin, hKp, hKi, hKd, hs.Value_I, hs.Past_Error] at hcall
  refine ⟨⟨(Pos_PID_Controller_settings s m).trans hs.settings, ?_, ?_⟩, ?_, ?_⟩
  · rw [hcall, integral_concat]
  · rw [hcall, last_error_concat]
  · rw [Pos_PID_t.output, hcall, mul_comm t.Kd]
    rfl
  · rw [hcall]
    simp only [Pos_PID_t.integral_part]
    ring

variable (t)

/-- **A run** carries the saturated sum of the errors and the last error, by induction on the
    calls. -/
theorem after_carries (h : 0 ≤ t.Value_I_Max) (ms : List ℚ) :
    t.Carries ((t.start plant).after ms) ms := by
  induction ms using List.reverseRecOn with
  | nil => exact ⟨rfl, rfl, rfl⟩
  | append_singleton ms m ih =>
    rw [Pos_PID_t.after_concat]
    exact (ih.call h m).1

/-- What a call of a run returns. -/
theorem output_eq (h : 0 ≤ t.Value_I_Max) (ms : List ℚ) (m : ℚ) :
    ((t.start plant).after ms).output m = limit t.Output_Min t.Output_Max
      (t.signed_part ms m - t.Kd * t.change ms m) :=
  ((t.after_carries plant h ms).call h m).2.1

/-- The part of it that comes from the integral. -/
theorem integral_part_eq (h : 0 ≤ t.Value_I_Max) (ms : List ℚ) (m : ℚ) :
    ((t.start plant).after (ms ++ [m])).integral_part =
      t.Ki * (t.integral ms + (t.Ref - m)) := by
  rw [Pos_PID_t.after_concat]
  exact ((t.after_carries plant h ms).call h m).2.2

/-! ## Symmetry -/

/-- The measurement on the other side of the reference. -/
def mirror (m : ℚ) : ℚ := 2 * t.Ref - m

theorem mirror_error (m : ℚ) : t.Ref - t.mirror m = -(t.Ref - m) := by
  rw [mirror]
  ring

theorem mirror_errors (ms : List ℚ) : t.errors (ms.map t.mirror) = (t.errors ms).map Neg.neg := by
  simp only [errors, List.map_map]
  exact List.map_congr_left fun m _ => t.mirror_error m

theorem mirror_integral (h : 0 ≤ t.Value_I_Max) (ms : List ℚ) :
    t.integral (ms.map t.mirror) = -t.integral ms := by
  rw [integral, mirror_errors, total_map_neg h, integral]

theorem mirror_signed_part (h : 0 ≤ t.Value_I_Max) (ms : List ℚ) (m : ℚ) :
    t.signed_part (ms.map t.mirror) (t.mirror m) = -t.signed_part ms m := by
  rw [signed_part, t.mirror_integral h, mirror_error, signed_part]
  ring

/-- **The change of the error is a magnitude**: it is the same on both sides, so the differential
    part is not mirrored with the rest. -/
theorem mirror_change (ms : List ℚ) (m : ℚ) :
    t.change (ms.map t.mirror) (t.mirror m) = t.change ms m := by
  have hlast : t.last_error (ms.map t.mirror) = -t.last_error ms := by
    induction ms using List.reverseRecOn with
    | nil => exact neg_zero.symm
    | append_singleton ms m' _ =>
      rw [List.map_append, List.map_singleton, last_error_concat, last_error_concat, mirror_error]
  rw [change, hlast, mirror_error, ← neg_add', ← sub_eq_add_neg, abs_neg, change]

/-- **The derivative term does not show** in call `m`: there is none, or the other terms reach the
    limit in spite of it.  Limits with a negative `Output_Max` exclude each other. -/
def Unbiased (ms : List ℚ) (m : ℚ) : Prop :=
  if 0 ≤ t.Output_Max then
    t.Kd * t.change ms m = 0 ∨ t.Output_Max = 0 ∨
      t.Output_Max + |t.Kd * t.change ms m| ≤ |t.signed_part ms m|
  else if t.Output_Max + t.Kd * t.change ms m < 0 then
    -(t.Output_Max + t.Kd * t.change ms m) ≤ |t.signed_part ms m|
  else t.Output_Max + t.Kd * t.change ms m < |t.signed_part ms m|

end Tuning

/-- **Mirrored measurements** — with symmetric limits two controllers of one tuning, one fed with the
    measurements mirrored at the reference, return opposite outputs at every call exactly when the
    derivative term shows at none. -/
theorem Pos_PID_symmetric_iff (t : Tuning) (plant plant' : Pos_PID_t ℚ)
    (hsym : t.Output_Min = -t.Output_Max) (hI : 0 ≤ t.Value_I_Max) (ms : List ℚ) :
    EachStep (fun pre m => ((t.start plant').after (pre.map t.mirror)).output (t.mirror m) =
      -((t.start plant).after pre).output m) ms ↔ EachStep t.Unbiased ms := by
  apply eachStep_congr
  intro pre m _
  rw [t.output_eq plant' hI, t.output_eq plant hI, t.mirror_signed_part hI, t.mirror_change, hsym,
    Tuning.Unbiased]
  rcases le_or_gt 0 t.Output_Max with hM | hM
  · rw [if_pos hM]
    exact limit_opposite_iff hM
  · rw [if_neg hM.not_ge]
    exact limit_opposite_inverted hM

/-- `TraceLine_Vx_Con`, whose `Value_I_Max` is never set. -/
def TraceLine_Vx_tuning : Tuning := ⟨11 / 2, 0, 1, 0, 200, -200, 0⟩

theorem Pos_PID_symmetric_iff_Vx :
    EachStep (fun pre m =>
      ((TraceLine_Vx_tuning.start Pos_PID_t.zero).after (pre.map TraceLine_Vx_tuning.mirror)).output
        (TraceLine_Vx_tuning.mirror m) =
      -((TraceLine_Vx_tuning.start Pos_PID_t.zero).after pre).output m) [50, -50] ↔
    EachStep TraceLine_Vx_tuning.Unbiased [50, -50] :=
  Pos_PID_symmetric_iff TraceLine_Vx_tuning Pos_PID_t.zero Pos_PID_t.zero rfl (le_refl 0) [50, -50]

/-- The measurement 10 gives -65, the measurement -10 gives 45. -/
theorem Pos_PID_symmetric_biased :
    ¬ EachStep (fun pre m =>
      ((TraceLine_Vx_tuning.start Pos_PID_t.zero).after (pre.map TraceLine_Vx_tuning.mirror)).output
        (TraceLine_Vx_tuning.mirror m) =
      -((TraceLine_Vx_tuning.start Pos_PID_t.zero).after pre).output m) [10] := by
  intro h
  have h10 : ((TraceLine_Vx_tuning.start Pos_PID_t.zero).after []).output
        (TraceLine_Vx_tuning.mirror 10) =
      -((TraceLine_Vx_tuning.start Pos_PID_t.zero).after []).output 10 :=
    h [] 10 (List.prefix_refl _)
  exact absurd h10 (by decide +kernel)

/-! ## The integral -/

/-- **The integral** — every call returns the limited value of the formula with the saturated sum of
    the errors, and uses an integral part within the limit, exactly when in every call the sum is
    within the limit before it is saturated or there is no integral term. -/
theorem Pos_PID_integral_iff (t : Tuning) (plant : Pos_PID_t ℚ)
    (hlim : t.Output_Min ≤ t.Output_Max) (hI : 0 ≤ t.Value_I_Max) (ms : List ℚ) :
    EachStep (fun pre m =>
      ((t.start plant).after pre).output m = max t.Output_Min (min t.Output_Max
        (t.Kp * (t.Ref - m) + t.Ki * t.integral (pre ++ [m]) - t.Kd * t.change pre m)) ∧
      |((t.start plant).after (pre ++ [m])).integral_part| ≤ |t.Ki| * t.Value_I_Max) ms ↔
    EachStep (fun pre m => t.Ki = 0 ∨ |t.integral pre + (t.Ref - m)| ≤ t.Value_I_Max) ms := by
  apply eachStep_congr
  intro pre m _
  rw [t.output_eq plant hI, t.integral_part_eq plant hI, limit_eq hlim, t.integral_concat, abs_mul,
    Tuning.signed_part]
  constructor
  · rintro ⟨-, hpart⟩
    by_cases hKi : t.Ki = 0
    · exact Or.inl hKi
    · exact Or.inr (le_of_mul_le_mul_left hpart (abs_pos.mpr hKi))
  · rintro (hKi | hsum)
    · rw [hKi, abs_zero, zero_mul, zero_mul, zero_mul, zero_mul]
      exact ⟨rfl, le_refl 0⟩
    · rw [(limit_eq_self_iff hI).mpr hsum]
      exact ⟨rfl, mul_le_mul_of_nonneg_left hsum (abs_nonneg _)⟩

/-- An integrator with the limit 1. -/
def integrator : Tuning := ⟨0, 1, 0, 0, 10, -10, 1⟩

theorem Pos_PID_integral_iff_integrator :
    EachStep (fun pre m =>
      ((integrator.start Pos_PID_t.zero).after pre).output m =
        max integrator.Output_Min (min integrator.Output_Max
          (integrator.Kp * (integrator.Ref - m) + integrator.Ki * integrator.integral (pre ++ [m]) -
            integrator.Kd * integrator.change pre m)) ∧
      |((integrator.start Pos_PID_t.zero).after (pre ++ [m])).integral_part| ≤
        |integrator.Ki| * integrator.Value_I_Max) [1, -1] ↔
    EachStep (fun pre m => integrator.Ki = 0 ∨
      |integrator.integral pre + (integrator.Ref - m)| ≤ integrator.Value_I_Max) [1, -1] :=
  Pos_PID_integral_iff integrator Pos_PID_t.zero (by decide) zero_le_one [1, -1]

/-- The error 2 gives the output 2, not 1. -/
theorem Pos_PID_integral_exceeds :
    ¬ EachStep (fun pre m =>
      ((integrator.start Pos_PID_t.zero).after pre).output m =
        max integrator.Output_Min (min integrator.Output_Max
          (integrator.Kp * (integrator.Ref - m) + integrator.Ki * integrator.integral (pre ++ [m]) -
            integrator.Kd * integrator.change pre m)) ∧
      |((integrator.start Pos_PID_t.zero).after (pre ++ [m])).integral_part| ≤
        |integrator.Ki| * integrator.Value_I_Max) [-2] := by
  intro h
  have h2 : ((integrator.start Pos_PID_t.zero).after []).output (-2) =
      max integrator.Output_Min (min integrator.Output_Max
        (integrator.Kp * (integrator.Ref - -2) + integrator.Ki * integrator.integral [-2] -
          integrator.Kd * integrator.change [] (-2))) :=
    (h [] (-2) (List.prefix_refl _)).1
  exact absurd h2 (by decide +kernel)

end Car2025
