/-
  The lines that the road handlers draw into a border.

  Each function is translated statement by statement.  A row is assigned from a `float`, which
  converts it to `int16`; where the source then clamps the row, it does so after the conversion.

  None of the functions checks its rows.  Stated below are the rows from which an extension returns
  where rows outside the array trap (`…_ok`), and that no function ever stops for another reason than
  such a row or a divisor (`…_draws`).
-/
import Mathlib
import Car2025.UserMath

namespace Car2025

open Outcome

/-- A side of the image: `L` has the border of lose value 0. -/
inductive Side where
  | L
  | R
  deriving DecidableEq, Repr

section

variable {R : Type} [CFloat R]

/-! ## `Vision_ExtendLine` -/

/-- The two clamping statements after an extension: to at least 0, then to at most
    `imgCol - 1`. -/
def clampRow (o : Outside) (broder : Broder) (i : ℤ) : Except Stop Broder := do
  let v ← rd o broder i
  let broder ← wr o broder i (if v < 0 then 0 else v)
  let v ← rd o broder i
  wr o broder i (if v > imgCol - 1 then imgCol - 1 else v)

/-- `for(int i = x-1 ; i > 0 ; i--)`, from `i` on. -/
def Vision_ExtendLine_far (o : Outside) (x : ℤ) (this_K : R) :
    ℕ → ℤ → Broder → Except Stop Broder
  | 0, _, broder => pure broder
  | n + 1, i, broder => do
    let broder ← wr o broder i
      (int16 (CFloat.toInt (CFloat.ofInt (← rd o broder x) - this_K * CFloat.ofInt (x - i))))
    let broder ← clampRow o broder i
    Vision_ExtendLine_far o x this_K n (i - 1) broder

/-- `for(int i = 0 ; i < imgRow-1-x ; i++)`, from `i` on. -/
def Vision_ExtendLine_near (o : Outside) (x : ℤ) (this_K : R) :
    ℕ → ℤ → Broder → Except Stop Broder
  | 0, _, broder => pure broder
  | n + 1, i, broder => do
    let broder ← wr o broder (x + i)
      (int16 (CFloat.toInt (CFloat.ofInt (← rd o broder x) + this_K * CFloat.ofInt i)))
    let broder ← clampRow o broder (x + i)
    Vision_ExtendLine_near o x this_K n (i + 1) broder

variable (R) in
/-- `Vision_ExtendLine`: `direction` is `true` for the far side. -/
def Vision_ExtendLine (o : Outside) (broder : Broder) (x : ℤ) (direction : Bool) :
    Except Stop Broder := do
  if direction then
    let this_K : R ← if x + 5 ≤ imgRow - 1 then
        fdiv o (CFloat.ofInt ((← rd o broder (x + 5)) - (← rd o broder x))) 5
      else
        fdiv o (CFloat.ofInt ((← rd o broder (imgRow - 1)) - (← rd o broder x))) (imgRow - 1 - x)
    Vision_ExtendLine_far o x this_K (x - 1).toNat (x - 1) broder
  else
    let this_K : R ← if x - 5 ≥ 0 then
        fdiv o (CFloat.ofInt ((← rd o broder x) - (← rd o broder (x - 5)))) 5
      else
        fdiv o (CFloat.ofInt ((← rd o broder x) - (← rd o broder 0))) x
    Vision_ExtendLine_near o x this_K (imgRow - 1 - x).toNat 0 broder

/-! ## `Vision_set_AdditionalLine`, `Vision_SetLose`, `Vision_SetLineWithPointK` -/

/-- `for(int i = pmin ; i<=pmax ; i++)`, from `i` on. -/
def Vision_set_AdditionalLine_loop (o : Outside) (pmin : ℤ) (slope : R) :
    ℕ → ℤ → Broder → Except Stop Broder
  | 0, _, broder => pure broder
  | n + 1, i, broder => do
    let broder ← wr o broder i
      (int16 (CFloat.toInt (CFloat.ofInt (i - pmin) * slope + CFloat.ofInt (← rd o broder pmin))))
    Vision_set_AdditionalLine_loop o pmin slope n (i + 1) broder

variable (R) in
/-- `Vision_set_AdditionalLine` -/
def Vision_set_AdditionalLine (o : Outside) (p1 p2 : ℤ) (broder : Broder) :
    Except Stop Broder := do
  let slope : R ← Point_CalSlope o ⟨p1, ← rd o broder p1⟩ ⟨p2, ← rd o broder p2⟩
  let pmin := if p1 > p2 then p2 else p1
  let pmax := if p1 > p2 then p1 else p2
  Vision_set_AdditionalLine_loop o pmin slope (pmax - pmin + 1).toNat pmin broder

/-- `for(int i = min;i<max;i++)`, from `i` on. -/
def Vision_SetLose_loop (o : Outside) (v : ℤ) : ℕ → ℤ → Broder → Except Stop Broder
  | 0, _, broder => pure broder
  | n + 1, i, broder => do Vision_SetLose_loop o v n (i + 1) (← wr o broder i v)

/-- `Vision_SetLose` on the border of a side: the last row is left alone. -/
def Vision_SetLose (o : Outside) (side : Side) (broder : Broder) (x1 x2 : ℤ) :
    Except Stop Broder :=
  let max := Tool_CmpMax x1 x2
  let min := Tool_CmpMin x1 x2
  Vision_SetLose_loop o (if side = .L then LEFT_LOSE_VALUE else RIGHT_LOSE_VALUE)
    (max - min).toNat min broder

/-- `for(int i = min; i<=max ;i++)`, from `i` on. -/
def Vision_SetLineWithPointK_loop (o : Outside) (seed : ℤ) (slope : R) :
    ℕ → ℤ → Broder → Except Stop Broder
  | 0, _, broder => pure broder
  | n + 1, i, broder => do
    let broder ← wr o broder i
      (int16 (CFloat.toInt (CFloat.ofInt (← rd o broder seed) + CFloat.ofInt (i - seed) * slope)))
    Vision_SetLineWithPointK_loop o seed slope n (i + 1) broder

/-- `Vision_SetLineWithPointK` -/
def Vision_SetLineWithPointK (o : Outside) (broder : Broder) (seed : ℤ) (slope : R) (x1 x2 : ℤ) :
    Except Stop Broder :=
  let max := Tool_CmpMax x1 x2
  let min := Tool_CmpMin x1 x2
  Vision_SetLineWithPointK_loop o seed slope (max - min + 1).toNat min broder

/-! ## Inside the rows nothing stops -/

theorem clampRow_ok {o : Outside} {b : Broder} {i : ℤ} (h : o.Allows i) :
    ∃ b', clampRow o b i = .ok b' := by
  unfold clampRow
  rw [rd_of_allows h, ok_bind, wr_of_allows h, ok_bind, rd_of_allows h, ok_bind, wr_of_allows h]
  exact ⟨_, rfl⟩

theorem Vision_ExtendLine_far_ok {o : Outside} {x : ℤ} (this_K : R) (hx : o.Allows x) :
    ∀ (n : ℕ) (i : ℤ) (b : Broder), (∀ j, i - n < j → j ≤ i → o.Allows j) →
      ∃ b', Vision_ExtendLine_far o x this_K n i b = .ok b'
  | 0, _, b, _ => ⟨b, rfl⟩
  | n + 1, i, b, h => by
    have hi : o.Allows i := h i (by push_cast; omega) (le_refl i)
    rw [Vision_ExtendLine_far, rd_of_allows hx, ok_bind, wr_of_allows hi, ok_bind]
    obtain ⟨b', hb'⟩ := clampRow_ok (b := Function.update b i (int16 (CFloat.toInt
      (CFloat.ofInt (b x) - this_K * CFloat.ofInt (x - i))))) hi
    rw [hb', ok_bind]
    exact Vision_ExtendLine_far_ok this_K hx n (i - 1) b'
      (fun j h1 h2 => h j (by push_cast; omega) (by omega))

theorem Vision_ExtendLine_near_ok {o : Outside} {x : ℤ} (this_K : R) (hx : o.Allows x) :
    ∀ (n : ℕ) (i : ℤ) (b : Broder), (∀ j, x + i ≤ j → j < x + i + n → o.Allows j) →
      ∃ b', Vision_ExtendLine_near o x this_K n i b = .ok b'
  | 0, _, b, _ => ⟨b, rfl⟩
  | n + 1, i, b, h => by
    have hi : o.Allows (x + i) := h (x + i) (le_refl _) (by push_cast; omega)
    rw [Vision_ExtendLine_near, rd_of_allows hx, ok_bind, wr_of_allows hi, ok_bind]
    obtain ⟨b', hb'⟩ := clampRow_ok (b := Function.update b (x + i) (int16 (CFloat.toInt
      (CFloat.ofInt (b x) + this_K * CFloat.ofInt i)))) hi
    rw [hb', ok_bind]
    exact Vision_ExtendLine_near_ok this_K hx n (i + 1) b'
      (fun j h1 h2 => h j (by omega) (by push_cast; omega))

/-- **Far extension** from any row but the nearest one: its slope is taken from the rows nearer
    than it, and there must be one. -/
theorem Vision_ExtendLine_far_side_ok {o : Outside} {b : Broder} {x : ℤ} (h0 : 0 ≤ x)
    (h68 : x ≤ 68) : ∃ b', Vision_ExtendLine R o b x true = .ok b' := by
  have hx := o.allows_of_rows h0 (by omega)
  have hloop : ∀ K_ : R, ∃ b', Vision_ExtendLine_far o x K_ (x - 1).toNat (x - 1) b = .ok b' :=
    fun K_ => Vision_ExtendLine_far_ok K_ hx _ _ _
      (fun j h1 h2 => o.allows_of_rows (by omega) (by omega))
  unfold Vision_ExtendLine
  rw [if_pos rfl]
  by_cases h5 : x + 5 ≤ imgRow - 1
  · rw [if_pos h5, rd_of_allows (o.allows_of_rows (by omega) (by unfold imgRow at h5; omega)),
      ok_bind, rd_of_allows hx, ok_bind, fdiv_of_ne (by decide), ok_bind]
    exact hloop _
  · rw [if_neg h5, rd_of_allows (o.allows_of_rows (by decide) (by decide)), ok_bind,
      rd_of_allows hx, ok_bind, fdiv_of_ne (by unfold imgRow; omega), ok_bind]
    exact hloop _

/-- **Near extension** from any row but the farthest one: its slope is taken from the rows farther
    than it. -/
theorem Vision_ExtendLine_near_side_ok {o : Outside} {b : Broder} {x : ℤ} (h1 : 1 ≤ x)
    (h69 : x ≤ 69) : ∃ b', Vision_ExtendLine R o b x false = .ok b' := by
  have hx := o.allows_of_rows (by omega) h69
  have hloop : ∀ K_ : R,
      ∃ b', Vision_ExtendLine_near o x K_ (imgRow - 1 - x).toNat 0 b = .ok b' :=
    fun K_ => Vision_ExtendLine_near_ok K_ hx _ _ _
      (fun j h1 h2 => o.allows_of_rows (by omega) (by unfold imgRow at h2; omega))
  unfold Vision_ExtendLine
  rw [if_neg Bool.false_ne_true]
  by_cases h5 : x - 5 ≥ 0
  · rw [if_pos h5, rd_of_allows hx, ok_bind,
      rd_of_allows (o.allows_of_rows (by omega) (by omega)), ok_bind, fdiv_of_ne (by decide),
      ok_bind]
    exact hloop _
  · rw [if_neg h5, rd_of_allows hx, ok_bind,
      rd_of_allows (o.allows_of_rows (by decide) (by decide)), ok_bind, fdiv_of_ne (by omega),
      ok_bind]
    exact hloop _

/-! ## Nothing stops for another reason -/

section

variable {o : Outside}

theorem clampRow_draws (b : Broder) (i : ℤ) : o.Draws (clampRow o b i) := by
  apply rd_draws.bind
  intro v _
  apply wr_draws.bind
  intro b _
  exact rd_draws.bind fun v _ => wr_draws

theorem Vision_ExtendLine_far_draws (x : ℤ) (this_K : R) (n : ℕ) :
    ∀ (i : ℤ) (b : Broder), o.Draws (Vision_ExtendLine_far o x this_K n i b) := by
  induction n with
  | zero => intro i b; exact trivial
  | succ n ih =>
    intro i b
    apply rd_draws.bind
    intro v _
    apply wr_draws.bind
    intro b _
    exact (clampRow_draws b i).bind fun b _ => ih (i - 1) b

theorem Vision_ExtendLine_near_draws (x : ℤ) (this_K : R) (n : ℕ) :
    ∀ (i : ℤ) (b : Broder), o.Draws (Vision_ExtendLine_near o x this_K n i b) := by
  induction n with
  | zero => intro i b; exact trivial
  | succ n ih =>
    intro i b
    apply rd_draws.bind
    intro v _
    apply wr_draws.bind
    intro b _
    exact (clampRow_draws b (x + i)).bind fun b _ => ih (i + 1) b

variable (R) in
/-- An extension stops only where it reads or draws off the rows, or divides by zero. -/
theorem Vision_ExtendLine_draws (b : Broder) (x : ℤ) (direction : Bool) :
    o.Draws (Vision_ExtendLine R o b x direction) := by
  -- the slope is computed in four ways, and each is passed on to one of the two loops
  have hslope : ∀ (i j d : ℤ) (line : R → Except Stop Broder), (∀ this_K, o.Draws (line this_K)) →
      o.Draws (rd o b i >>= fun v => rd o b j >>= fun w =>
        fdiv o (CFloat.ofInt (v - w)) d >>= line) := by
    intro i j d line hline
    apply rd_draws.bind
    intro v _
    apply rd_draws.bind
    intro w _
    exact fdiv_draws.bind fun this_K _ => hline this_K
  refine Ends.ite (fun _ => ?_) (fun _ => ?_)
  · have hline := fun this_K : R => Vision_ExtendLine_far_draws (o := o) x this_K (x - 1).toNat (x - 1) b
    exact Ends.ite (fun _ => hslope _ _ _ _ hline) (fun _ => hslope _ _ _ _ hline)
  · have hline := fun this_K : R =>
      Vision_ExtendLine_near_draws (o := o) x this_K (imgRow - 1 - x).toNat 0 b
    exact Ends.ite (fun _ => hslope _ _ _ _ hline) (fun _ => hslope _ _ _ _ hline)

theorem Vision_set_AdditionalLine_loop_draws (pmin : ℤ) (slope : R) (n : ℕ) :
    ∀ (i : ℤ) (b : Broder), o.Draws (Vision_set_AdditionalLine_loop o pmin slope n i b) := by
  induction n with
  | zero => intro i b; exact trivial
  | succ n ih =>
    intro i b
    apply rd_draws.bind
    intro v _
    exact wr_draws.bind fun b _ => ih (i + 1) b

variable (R) in
theorem Vision_set_AdditionalLine_draws (p1 p2 : ℤ) (b : Broder) :
    o.Draws (Vision_set_AdditionalLine R o p1 p2 b) := by
  apply rd_draws.bind
  intro y1 _
  apply rd_draws.bind
  intro y2 _
  have hslope : o.Draws (Point_CalSlope o ⟨p1, y1⟩ ⟨p2, y2⟩ : Except Stop R) := fdiv_draws
  exact hslope.bind fun slope _ => Vision_set_AdditionalLine_loop_draws _ slope _ _ b

theorem Vision_SetLose_draws (side : Side) (b : Broder) (x1 x2 : ℤ) :
    o.Draws (Vision_SetLose o side b x1 x2) := by
  have hloop : ∀ (v : ℤ) (n : ℕ) (i : ℤ) (b : Broder),
      o.Draws (Vision_SetLose_loop o v n i b) := by
    intro v n
    induction n with
    | zero => intro i b; exact trivial
    | succ n ih =>
      intro i b
      exact wr_draws.bind fun b _ => ih (i + 1) b
  exact hloop _ _ _ b

theorem Vision_SetLineWithPointK_draws (b : Broder) (seed : ℤ) (slope : R) (x1 x2 : ℤ) :
    o.Draws (Vision_SetLineWithPointK o b seed slope x1 x2) := by
  have hloop : ∀ (n : ℕ) (i : ℤ) (b : Broder),
      o.Draws (Vision_SetLineWithPointK_loop o seed slope n i b) := by
    intro n
    induction n with
    | zero => intro i b; exact trivial
    | succ n ih =>
      intro i b
      apply rd_draws.bind
      intro v _
      exact wr_draws.bind fun b _ => ih (i + 1) b
  exact hloop _ _ b

end

end

end Car2025
