/-
  The borders `Image_S.leftBroder` / `Image_S.rightBroder` and the ways a run can stop.

  The vision code works on two arrays `int16 broder[imgRow]`, one column per image row, row 69
  nearest to the car.  The functions receive a bare pointer, so a border is modelled the way the
  code sees it: as memory indexed from the pointer.  Rows `0 … 69` are the array; what lies beyond
  them is whatever the linker put there (`leftBroder[70]` is `rightBroder[0]`).

  1. **Accesses** — every read and write of a row goes through `rd` / `wr`, every division through
     `cdiv` / `fdiv`.  What a row outside the array does, and what a floating-point division by zero
     does, is the parameter `Outside`: under `.traps` the run stops there, so a finished run used
     rows `0 … 69` and nonzero divisors only; under `.reads` the access goes to the memory beyond the
     array and the division gives what the floating-point unit gives, as on the car.  An integer
     division by zero stops the run in either case.

  2. **Stops** — `Stop` lists the reasons why a call does not return.
-/
import Mathlib
import Car2025.Lib.CFloat
import Car2025.Lib.Outcome

namespace Car2025

open Outcome

/-! ## Constants of `camera.h` and `my_vision.h` -/

def imgRow : ℤ := 70
def imgCol : ℤ := 188

def LEFT_LOSE_VALUE : ℤ := 0
def RIGHT_LOSE_VALUE : ℤ := 187

/-! ## Stops -/

/-- Why a call does not return. -/
inductive Stop where
  /-- A row outside `0 … 69` was used (under `Outside.traps`). -/
  | row (i : ℤ)
  /-- An index outside `0 … 9` into a segment table was used. -/
  | entry (i : ℕ)
  /-- A division by zero. -/
  | divisor
  /-- A pointer that was never set was followed. -/
  | null
  /-- The closing loop `while(1)` of `Vision_ZebraHandle` was entered. -/
  | finished
  deriving DecidableEq, Repr

/-- What an access outside the rows of a border, or a floating-point division by zero, does. -/
inductive Outside where
  | traps
  | reads
  deriving DecidableEq, Repr

@[simp] theorem ok_bind {ε α β : Type} (a : α) (f : α → Except ε β) :
    ((Except.ok a : Except ε α) >>= f) = f a := rfl

@[simp] theorem error_bind {ε α β : Type} (e : ε) (f : α → Except ε β) :
    ((Except.error e : Except ε α) >>= f) = .error e := rfl

@[simp] theorem pure_ok {ε α : Type} (a : α) : (pure a : Except ε α) = .ok a := rfl

/-! ## Rows -/

/-- A border, as memory seen through its pointer. -/
abbrev Broder := ℤ → ℤ

/-- The rows of the array. -/
def InRows (i : ℤ) : Prop := 0 ≤ i ∧ i < imgRow

instance (i : ℤ) : Decidable (InRows i) := inferInstanceAs (Decidable (_ ∧ _))

theorem inRows_iff {i : ℤ} : InRows i ↔ 0 ≤ i ∧ i ≤ 69 := by
  unfold InRows imgRow
  omega

/-- An access to row `i` goes through. -/
def Outside.Allows (o : Outside) (i : ℤ) : Prop := o = .reads ∨ InRows i

instance (o : Outside) (i : ℤ) : Decidable (o.Allows i) := inferInstanceAs (Decidable (_ ∨ _))

theorem Outside.allows_of_rows (o : Outside) {i : ℤ} (h0 : 0 ≤ i) (h1 : i ≤ 69) : o.Allows i :=
  Or.inr (inRows_iff.mpr ⟨h0, h1⟩)

@[simp] theorem Outside.reads_allows (i : ℤ) : Outside.reads.Allows i := Or.inl rfl

/-- The read `broder[i]`. -/
def rd (o : Outside) (broder : Broder) (i : ℤ) : Except Stop ℤ :=
  if o.Allows i then .ok (broder i) else .error (.row i)

/-- The write `broder[i] = v`. -/
def wr (o : Outside) (broder : Broder) (i v : ℤ) : Except Stop Broder :=
  if o.Allows i then .ok (Function.update broder i v) else .error (.row i)

theorem rd_of_allows {o : Outside} {b : Broder} {i : ℤ} (h : o.Allows i) : rd o b i = .ok (b i) :=
  if_pos h

theorem wr_of_allows {o : Outside} {b : Broder} {i v : ℤ} (h : o.Allows i) :
    wr o b i v = .ok (Function.update b i v) :=
  if_pos h

@[simp] theorem rd_reads (b : Broder) (i : ℤ) : rd .reads b i = .ok (b i) := rfl

@[simp] theorem wr_reads (b : Broder) (i v : ℤ) : wr .reads b i v = .ok (Function.update b i v) :=
  rfl

/-- The condition `p(broder[i]) && p(broder[j]) && …`, read from left to right and cut short at
    the first row that fails. -/
def allRows (o : Outside) (broder : Broder) (p : ℤ → Bool) : List ℤ → Except Stop Bool
  | [] => pure true
  | i :: is => do
    if p (← rd o broder i) then allRows o broder p is else pure false

/-- With every row allowed, `allRows` is the conjunction. -/
theorem allRows_eq {o : Outside} {b : Broder} {p : ℤ → Bool} :
    ∀ is : List ℤ, (∀ i ∈ is, o.Allows i) → allRows o b p is = .ok (is.all fun i => p (b i))
  | [], _ => rfl
  | i :: is, h => by
    have htail : allRows o b p is = .ok (is.all fun j => p (b j)) :=
      allRows_eq is (fun j hj => h j (List.mem_cons_of_mem i hj))
    rw [allRows, rd_of_allows (h i List.mem_cons_self), ok_bind, List.all_cons]
    cases hp : p (b i) with
    | true => rw [if_pos rfl, htail, Bool.true_and]
    | false => rw [if_neg Bool.false_ne_true, Bool.false_and, pure_ok]

/-! ## Integers and divisions -/

/-- The conversion to `int16`. -/
def int16 (x : ℤ) : ℤ := Int.bmod x (2 ^ 16)

theorem int16_of_small {x : ℤ} (h0 : -32768 ≤ x) (h1 : x < 32768) : int16 x = x := by
  unfold int16
  rw [Int.bmod_def]
  omega

/-- Integer division, truncating toward zero. -/
def cdiv (a d : ℤ) : Except Stop ℤ := if d = 0 then .error .divisor else .ok (a.tdiv d)

/-- Floating-point division by a converted integer. -/
def fdiv {R : Type} [CFloat R] (o : Outside) (a : R) (d : ℤ) : Except Stop R :=
  if o = .traps ∧ d = 0 then .error .divisor else .ok (a / CFloat.ofInt d)

theorem cdiv_of_ne {a d : ℤ} (h : d ≠ 0) : cdiv a d = .ok (a.tdiv d) := if_neg h

theorem fdiv_of_ne {R : Type} [CFloat R] {o : Outside} {a : R} {d : ℤ} (h : d ≠ 0) :
    fdiv o a d = .ok (a / CFloat.ofInt d) :=
  if_neg (fun hz => h hz.2)

@[simp] theorem fdiv_reads {R : Type} [CFloat R] (a : R) (d : ℤ) :
    fdiv .reads a d = .ok (a / CFloat.ofInt d) :=
  if_neg (fun h => by cases h.1)

/-! ## Whether an access can stop

  Where the accesses go through, nothing here stops; where they trap, the reason is never a pointer
  and never the end of the run.
-/

/-- The reasons for which accesses and floating-point divisions can stop. -/
def Outside.Stops (o : Outside) (e : Stop) : Prop := o = .traps ∧ e ≠ .null ∧ e ≠ .finished

theorem Outside.not_reads_stops (e : Stop) : ¬ Outside.reads.Stops e :=
  fun h => Outside.noConfusion h.1

/-- `x` stops for such a reason only. -/
abbrev Outside.Draws {α : Type} (o : Outside) (x : Except Stop α) : Prop :=
  Ends o.Stops x fun _ => True

section

variable {o : Outside} {b : Broder} {i v : ℤ}

theorem rd_draws : o.Draws (rd o b i) := by
  cases o with
  | reads => trivial
  | traps =>
    exact Ends.ite (fun _ => trivial)
      (fun _ => ⟨rfl, fun h => Stop.noConfusion h, fun h => Stop.noConfusion h⟩)

theorem wr_draws : o.Draws (wr o b i v) := by
  cases o with
  | reads => trivial
  | traps =>
    exact Ends.ite (fun _ => trivial)
      (fun _ => ⟨rfl, fun h => Stop.noConfusion h, fun h => Stop.noConfusion h⟩)

theorem fdiv_draws {R : Type} [CFloat R] {a : R} {d : ℤ} : o.Draws (fdiv o a d) :=
  Ends.ite (fun h => ⟨h.1, fun h => Stop.noConfusion h, fun h => Stop.noConfusion h⟩)
    (fun _ => trivial)

end

end Car2025
