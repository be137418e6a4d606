/-
  `Step_PID_Controller`, the second controller of `PID.c`.

  1. **Program** — the two past errors are shifted in the order that loses the older one, and the second
     limit is compared like the first.

  2. **Runs** — so from the second call on both past errors are the last one (`after_concat`).

  3. **Result (`Step_PID_Controller_iff`)** — the calls whose errors and outputs hide both slips.

  The caller may change the settings between two calls.  The program calls only `Pos_PID_Controller`.
-/
import Mathlib
import Car2025.Lib.CFloat
import Car2025.Lib.Runs

namespace Car2025

open Runs

/-! ## Program -/

/-- `Step_PID_t` -/
structure Step_PID_t (R : Type) where
  Kp : R
  Ki : R
  Kd : R
  Output : R
  Ref : R
  Output_Max : R
  Output_Min : R
  error_current : R
  error_past1 : R
  error_past2 : R

/-- `Step_PID_Controller`: the output, and the controller afterwards. -/
def Step_PID_Controller {R : Type} [CFloat R] (plant : Step_PID_t R) (ValueCurrent : R) :
    R × Step_PID_t R :=
  let plant := { plant with error_current := plant.Ref - ValueCurrent }
  let plant := { plant with
    Output := plant.Kp * plant.error_current - plant.Ki * plant.error_past1 +
      plant.Kp * plant.error_past2 }
  let plant := { plant with error_past1 := plant.error_current }
  let plant := { plant with error_past2 := plant.error_past1 }
  if !CFloat.lt plant.Output plant.Output_Max then (plant.Output_Max, plant)
  else if !CFloat.lt plant.Output plant.Output_Min then (plant.Output_Min, plant)
  else (plant.Output, plant)

/-! ## Runs -/

/-- A call, with the settings it finds. -/
structure Step_call (R : Type) where
  Kp : R
  Ki : R
  Kd : R
  Ref : R
  Output_Max : R
  Output_Min : R
  ValueCurrent : R

section

variable {R : Type} [CFloat R]

/-- The error of a call. -/
def Step_call.error (c : Step_call R) : R := c.Ref - c.ValueCurrent

/-- The controller with the settings of a call. -/
def Step_PID_t.set (plant : Step_PID_t R) (c : Step_call R) : Step_PID_t R :=
  { plant with
    Kp := c.Kp, Ki := c.Ki, Kd := c.Kd, Ref := c.Ref
    Output_Max := c.Output_Max, Output_Min := c.Output_Min }

/-- The controller after a run of calls. -/
def Step_PID_t.after (plant : Step_PID_t R) (calls : List (Step_call R)) : Step_PID_t R :=
  calls.foldl (fun plant c => (Step_PID_Controller (plant.set c) c.ValueCurrent).2) plant

/-- What a call returns. -/
def Step_PID_t.returned (plant : Step_PID_t R) (c : Step_call R) : R :=
  (Step_PID_Controller (plant.set c) c.ValueCurrent).1

/-- The errors of the calls, the last one first. -/
def past_errors (calls : List (Step_call R)) : List R := (calls.map Step_call.error).reverse

/-- `Output`, from the errors before the call: both past errors are the last one, and before the first
    call they are what the controller holds. -/
def Step_output (plant : Step_PID_t R) (c : Step_call R) (pre : List (Step_call R)) : R :=
  match past_errors pre with
  | [] => c.Kp * c.error - c.Ki * plant.error_past1 + c.Kp * plant.error_past2
  | e :: _ => c.Kp * c.error - c.Ki * e + c.Kp * e

/-- **A controller with two past errors and two limits**: a call finds the errors of the two calls before
    it, and returns `Output` between the limits.  The operations are those of the program, rounded or
    not; only the comparison is asked to be an order, since the limits mean nothing otherwise. -/
structure Controls [LinearOrder R] (plant : Step_PID_t R) (pre : List (Step_call R))
    (c : Step_call R) : Prop where
  past1 : ∀ e, (past_errors pre)[0]? = some e → (plant.after pre).error_past1 = e
  past2 : ∀ e, (past_errors pre)[1]? = some e → (plant.after pre).error_past2 = e
  clamped : (plant.after pre).returned c =
    max c.Output_Min (min c.Output_Max (plant.after (pre ++ [c])).Output)

variable (plant : Step_PID_t R) (calls : List (Step_call R)) (c : Step_call R)

theorem past_errors_concat : past_errors (calls ++ [c]) = c.error :: past_errors calls := by
  rw [past_errors, List.map_append, List.reverse_append]
  rfl

/-- **What a call keeps**: its own error, twice.  The code moves the errors on in the wrong order,
    and the older one is overwritten before it is kept. -/
theorem after_concat :
    (plant.after (calls ++ [c])).error_past1 = c.error ∧
      (plant.after (calls ++ [c])).error_past2 = c.error ∧
      (plant.after (calls ++ [c])).Output = c.Kp * c.error - c.Ki * (plant.after calls).error_past1 +
        c.Kp * (plant.after calls).error_past2 := by
  have hlast : plant.after (calls ++ [c]) =
      (Step_PID_Controller ((plant.after calls).set c) c.ValueCurrent).2 := by
    rw [Step_PID_t.after, List.foldl_append, List.foldl_cons, List.foldl_nil, Step_PID_t.after]
  rw [hlast, Step_PID_Controller]
  dsimp only
  split_ifs <;> exact ⟨rfl, rfl, rfl⟩

/-- What a call returns, as comparisons. -/
theorem returned_eq [LinearOrder R] [CFloat.Ordered R] :
    (plant.after calls).returned c =
      if c.Output_Max ≤ (plant.after (calls ++ [c])).Output then c.Output_Max
      else if c.Output_Min ≤ (plant.after (calls ++ [c])).Output then c.Output_Min
      else (plant.after (calls ++ [c])).Output := by
  rw [(after_concat plant calls c).2.2, Step_PID_t.returned, Step_PID_Controller]
  simp only [Step_PID_t.set, Step_call.error, Bool.not_eq_true', ← Bool.not_eq_true,
    CFloat.Ordered.lt_iff, not_lt, apply_ite Prod.fst]
  congr

theorem Output_eq : (plant.after (calls ++ [c])).Output = Step_output plant c calls := by
  rw [(after_concat plant calls c).2.2, Step_output]
  induction calls using List.reverseRecOn with
  | nil => rfl
  | append_singleton calls last _ =>
    rw [past_errors_concat, (after_concat plant calls last).1, (after_concat plant calls last).2.1]

variable {plant calls c}

/-- **The two limits**: between them the lower one is returned, and below them the output.  Only
    above the upper limit, or on the lower one, is that what a clamp would return. -/
theorem returned_eq_clamp_iff [LinearOrder R] [CFloat.Ordered R] (hlim : c.Output_Min ≤ c.Output_Max) :
    (plant.after calls).returned c =
        max c.Output_Min (min c.Output_Max (plant.after (calls ++ [c])).Output) ↔
      c.Output_Max ≤ Step_output plant c calls ∨ Step_output plant c calls = c.Output_Min := by
  rw [returned_eq, Output_eq]
  by_cases hmax : c.Output_Max ≤ Step_output plant c calls
  · rw [if_pos hmax, min_eq_left hmax, max_eq_right hlim]
    exact iff_of_true rfl (Or.inl hmax)
  · rw [if_neg hmax, min_eq_right (not_le.mp hmax).le]
    by_cases hmin : c.Output_Min ≤ Step_output plant c calls
    · rw [if_pos hmin, max_eq_right hmin]
      constructor
      · intro h
        exact Or.inr h.symm
      · rintro (h | h)
        · exact absurd h hmax
        · exact h.symm
    · rw [if_neg hmin, max_eq_left (not_le.mp hmin).le]
      constructor
      · intro h
        exact Or.inr h
      · rintro (h | h)
        · exact absurd h hmax
        · exact h

/-- **The past errors**: the second one is right where the errors of the last two calls are the
    same; the first one always is. -/
theorem past_errors_iff :
    ((∀ e, (past_errors calls)[0]? = some e → (plant.after calls).error_past1 = e) ∧
        ∀ e, (past_errors calls)[1]? = some e → (plant.after calls).error_past2 = e) ↔
      ∀ e1 e2, (past_errors calls)[0]? = some e1 → (past_errors calls)[1]? = some e2 → e1 = e2 := by
  induction calls using List.reverseRecOn with
  | nil => simp [past_errors]
  | append_singleton calls last _ =>
    obtain ⟨h1, h2, -⟩ := after_concat plant calls last
    rw [past_errors_concat, h1, h2]
    simp only [List.getElem?_cons_zero, List.getElem?_cons_succ, Option.some.injEq]
    constructor
    · rintro ⟨-, h⟩ e1 e2 rfl he2
      exact h e2 he2
    · intro h
      exact ⟨fun e he => he, fun e he => h _ e rfl he⟩

/-- **Control** — every call finds the two errors before it and returns its output between the limits
    exactly when the errors of any two calls before a call are the same, and no output lies below the
    upper limit, unless it is the lower one. -/
theorem Step_PID_Controller_iff [LinearOrder R] [CFloat.Ordered R] (plant : Step_PID_t R)
    (calls : List (Step_call R)) (hlim : ∀ c ∈ calls, c.Output_Min ≤ c.Output_Max) :
    EachStep (Controls plant) calls ↔ EachStep (fun pre c =>
      (∀ e1 e2, (past_errors pre)[0]? = some e1 → (past_errors pre)[1]? = some e2 → e1 = e2) ∧
        (c.Output_Max ≤ Step_output plant c pre ∨ Step_output plant c pre = c.Output_Min)) calls := by
  apply eachStep_congr
  intro pre c hpre
  have hc : c.Output_Min ≤ c.Output_Max :=
    hlim c (hpre.subset (List.mem_append_right pre List.mem_cons_self))
  rw [← past_errors_iff, ← returned_eq_clamp_iff hc]
  constructor
  · rintro ⟨h1, h2, h3⟩
    exact ⟨⟨h1, h2⟩, h3⟩
  · rintro ⟨⟨h1, h2⟩, h3⟩
    exact ⟨h1, h2, h3⟩

end

/-- A controller with proportional gain 1 and the limits -10 and 10, called with an error. -/
def step_call (e : ℚ) : Step_call ℚ := ⟨1, 0, 0, 0, 10, -10, -e⟩

/-- A controller that was never called. -/
def Step_PID_t.zero : Step_PID_t ℚ := ⟨0, 0, 0, 0, 0, 0, 0, 0, 0, 0⟩

/-- Two errors beyond the upper limit. -/
theorem Step_PID_Controller_twenty :
    EachStep (Controls Step_PID_t.zero) [step_call 20, step_call 20] ↔ EachStep (fun pre c =>
      (∀ e1 e2, (past_errors pre)[0]? = some e1 → (past_errors pre)[1]? = some e2 → e1 = e2) ∧
        (c.Output_Max ≤ Step_output Step_PID_t.zero c pre ∨
          Step_output Step_PID_t.zero c pre = c.Output_Min)) [step_call 20, step_call 20] :=
  Step_PID_Controller_iff Step_PID_t.zero [step_call 20, step_call 20] (by decide +kernel)

/-- Two errors of 1: the first output is 1, and -10 is returned. -/
theorem Step_PID_Controller_one :
    ¬ EachStep (Controls Step_PID_t.zero) [step_call 1, step_call 1] := by
  intro h
  have hfirst := (h [] (step_call 1) (by simp)).clamped
  exact absurd hfirst (by decide +kernel)

end Car2025
