/-
  `trace_line.c`: from the borders of a frame to the speed of the car.

  1. **Program** — while the tracing code has the control right, `trace_line_method` adds up how far
     the mid-line of every row that is not lost lies from the middle of the image, weighted by the
     row, divides by the number of rows, and feeds the two controllers; it leaves the sum at 0.

  2. **Offset (`Aver_Offset`)** — started from 0, the loop computes the mean over the rows.

  3. **Runs (`trace_line_offset`)** — it is always started from 0.

  `quan` is a global that is written before it is read, `TraceLine_Yaw_Con` and `speed_decision_mark`
  are used by nothing that is called, and the threads are in `Handover`.
-/
import Mathlib
import Car2025.Lib.Runs
import Car2025.PID
import Car2025.Vision.Range

namespace Car2025

open Speed_Con_Right RoadSymbol_type Runs

/-! ## Program -/

/-- The globals of `trace_line.c`, and those that `trace_line_method` reads or sets elsewhere. -/
structure TraceLine (R : Type) where
  TraceLine_Aver_Offset : R
  TraceLine_Normal_Con : Pos_PID_t R
  TraceLine_Vx_Con : Pos_PID_t R
  car : Car R
  icm20602_gyro_z : ℤ
  Current_Road : RoadSymbol_type
  cir_speed_flag : Bool

/-- `BASIC_SPEED` and `Cir_SPEED` -/
def BASIC_SPEED : ℤ := 400
def Cir_SPEED : ℤ := 100

/-- `row_begin` of `trace_line_method` -/
def row_begin : ℤ := 20

/-- At least one border of the row is not lost. -/
def Image.Seen (I : Image) (i : ℤ) : Prop :=
  I.leftBroder i ≠ LEFT_LOSE_VALUE ∨ I.rightBroder i ≠ RIGHT_LOSE_VALUE

instance (I : Image) : DecidablePred I.Seen := fun _ => inferInstanceAs (Decidable (_ ∨ _))

section

variable {R : Type} [CFloat R]

/-- `quan`, the weight of a row. -/
def quan (i : ℤ) : R :=
  CFloat.ofInt 1 -
    (CFloat.ofInt (i + 1) / CFloat.ofInt imgRow - CFloat.ofInt 1) *
      (CFloat.ofInt (i + 1) / CFloat.ofInt imgRow - CFloat.ofInt 1)

/-- The loop over the rows, from row `i` down: `TraceLine_Aver_Offset` and `valid_line`. -/
def trace_line_loop (I : Image) : ℕ → ℤ → R → ℕ → R × ℕ
  | 0, _, offset, valid_line => (offset, valid_line)
  | n + 1, i, offset, valid_line =>
    if I.Seen i then
      trace_line_loop I n (i - 1) (offset + CFloat.ofInt (imgCol.tdiv 2 - I.MID_Table i) * quan i)
        (valid_line + 1)
    else trace_line_loop I n (i - 1) offset valid_line

/-- What `trace_line_method` does with the offset: both controllers are fed with it, and the speed of
    the car is set. -/
def TraceLine.steer (offset : R) (s : TraceLine R) : TraceLine R :=
  let (yaw_now, normal) := Pos_PID_Controller s.TraceLine_Normal_Con
    (offset - CFloat.ofInt (s.icm20602_gyro_z.tdiv 100))
  let (vx, vx_con) := Pos_PID_Controller s.TraceLine_Vx_Con offset
  let speed_now : R := CFloat.ofInt
    (if s.Current_Road = CirculeRoads ∧ s.cir_speed_flag = true then Cir_SPEED else BASIC_SPEED)
  let speed_now := if CFloat.lt speed_now (CFloat.ofInt 0) then CFloat.ofInt 0 else speed_now
  { s with
    TraceLine_Normal_Con := normal
    TraceLine_Vx_Con := vx_con
    car := Car_Change_Speed vx speed_now yaw_now s.car
    TraceLine_Aver_Offset := CFloat.ofInt 0 }

/-- `trace_line_method`, on the borders that `Vision_Handle` has found. -/
def trace_line_method (I : Image) (s : TraceLine R) : TraceLine R :=
  if s.car.Car_Speed_ConRight = Con_By_TraceLine then
    let (offset, valid_line) := trace_line_loop I (imgRow - row_begin).toNat (imgRow - 1)
      s.TraceLine_Aver_Offset 0
    s.steer (if valid_line ≠ 0 then offset / CFloat.ofInt valid_line else CFloat.ofInt 0)
  else s

/-- `trace_line_init`, as far as it touches these globals. -/
def trace_line_init (s : TraceLine R) : TraceLine R :=
  { s with
    TraceLine_Vx_Con :=
      { Pos_PID_Init s.TraceLine_Vx_Con (CFloat.ofRat (11 / 2)) (CFloat.ofInt 0)
          (CFloat.ofInt 1) with
        Output_Max := CFloat.ofInt 200
        Output_Min := CFloat.ofInt (-200)
        Value_I := CFloat.ofInt 200
        Ref := CFloat.ofInt 0 }
    TraceLine_Normal_Con :=
      { Pos_PID_Init s.TraceLine_Normal_Con (CFloat.ofInt (-8)) (CFloat.ofInt 0)
          (CFloat.ofInt (-2)) with
        Output_Max := CFloat.ofInt 300
        Output_Min := CFloat.ofInt (-300)
        Value_I := CFloat.ofInt 200
        Ref := CFloat.ofInt 0 } }

/-- The globals before `main` runs. -/
def TraceLine.zero : TraceLine R :=
  ⟨CFloat.ofInt 0, Pos_PID_t.zero, Pos_PID_t.zero, Car.start, 0, NormalRoads, false⟩

/-- What happens between two frames: one is handled, or anything else in the program changes
    anything but the offset, which no other function touches. -/
inductive TraceLine.Action (R : Type) where
  | frame (I : Image)
  | elsewhere (f : TraceLine R → TraceLine R)

def TraceLine.act (s : TraceLine R) : TraceLine.Action R → TraceLine R
  | .frame I => trace_line_method I s
  | .elsewhere f => { f s with TraceLine_Aver_Offset := s.TraceLine_Aver_Offset }

def TraceLine.run (s : TraceLine R) (as : List (TraceLine.Action R)) : TraceLine R :=
  as.foldl TraceLine.act s

theorem TraceLine.run_concat (s : TraceLine R) (as : List (TraceLine.Action R))
    (a : TraceLine.Action R) : s.run (as ++ [a]) = (s.run as).act a := by
  rw [TraceLine.run, List.foldl_append, List.foldl_cons, List.foldl_nil, TraceLine.run]

/-- **The offset is 0 between the frames**, whether they are traced or not: the last thing that a
    traced frame does is to clear it. -/
theorem TraceLine.run_offset {s : TraceLine R} (h : s.TraceLine_Aver_Offset = CFloat.ofInt 0)
    (as : List (TraceLine.Action R)) : (s.run as).TraceLine_Aver_Offset = CFloat.ofInt 0 := by
  induction as using List.reverseRecOn with
  | nil => exact h
  | append_singleton as a ih =>
    rw [TraceLine.run_concat]
    cases a with
    | frame I =>
      show (trace_line_method I (s.run as)).TraceLine_Aver_Offset = _
      rw [trace_line_method]
      split
      · rfl
      · exact ih
    | elsewhere f => exact ih

end

/-! ## The offset of one frame -/

/-- How far the mid-line of a row lies from the middle, weighted. -/
def Image.row_offset (I : Image) (i : ℤ) : ℚ := ((imgCol.tdiv 2 - I.MID_Table i : ℤ) : ℚ) * quan i

/-- **The offset of a frame**: the mean over the rows from `row_begin` on that are not all lost, 0 if
    there is none. -/
noncomputable def Image.Aver_Offset (I : Image) : ℚ :=
  (∑ i ∈ (Finset.Ico row_begin imgRow).filter I.Seen, I.row_offset i) /
    ((Finset.Ico row_begin imgRow).filter I.Seen).card

/-- The loop adds up the rows `i - n + 1 … i`. -/
theorem trace_line_loop_eq (I : Image) : ∀ (n : ℕ) (i : ℤ) (offset : ℚ) (valid_line : ℕ),
    trace_line_loop I n i offset valid_line =
      (offset + ∑ r ∈ (Finset.Ioc (i - n) i).filter I.Seen, I.row_offset r,
        valid_line + ((Finset.Ioc (i - n) i).filter I.Seen).card) := by
  intro n
  induction n with
  | zero =>
    intro i offset valid_line
    rw [Nat.cast_zero, sub_zero, Finset.Ioc_self, Finset.filter_empty, Finset.sum_empty,
      Finset.card_empty, add_zero, add_zero]
    rfl
  | succ n ih =>
    intro i offset valid_line
    have hrows : Finset.Ioc (i - (n + 1 : ℕ)) i = insert i (Finset.Ioc (i - 1 - n) (i - 1)) := by
      ext r
      simp only [Finset.mem_Ioc, Finset.mem_insert]
      push_cast
      omega
    have hnot : i ∉ (Finset.Ioc (i - 1 - n) (i - 1)).filter I.Seen := by
      simp
    rw [trace_line_loop, hrows, Finset.filter_insert]
    by_cases hseen : I.Seen i
    · rw [if_pos hseen, if_pos hseen, ih, Finset.sum_insert hnot, Finset.card_insert_of_notMem hnot,
        ← add_assoc, add_assoc valid_line, add_comm 1]
      rfl
    · rw [if_neg hseen, if_neg hseen, ih]

theorem quan_mem {i : ℤ} (h : row_begin ≤ i) (h' : i < imgRow) :
    0 ≤ (quan i : ℚ) ∧ (quan i : ℚ) ≤ 1 := by
  have h1 : (20 : ℚ) ≤ i := by exact_mod_cast h
  have h2 : (i : ℚ) ≤ 69 := by exact_mod_cast Int.le_sub_one_of_lt h'
  have hquan : (quan i : ℚ) = 1 - ((i + 1) / 70 - 1) * ((i + 1) / 70 - 1) := by
    simp only [quan, imgRow, CFloat.ofInt_rat]
    push_cast
    rfl
  rw [hquan]
  constructor <;> nlinarith

/-- **The offset is at most half the width of the image**, as it is a mean of distances from the
    middle. -/
theorem Image.abs_Aver_Offset_le {I : Image} (h : I.InRange) : |I.Aver_Offset| ≤ 94 := by
  have hrow : ∀ i ∈ (Finset.Ico row_begin imgRow).filter I.Seen, |I.row_offset i| ≤ 94 := by
    intro i hi
    obtain ⟨h20, h70⟩ := Finset.mem_Ico.mp (Finset.mem_filter.mp hi).1
    obtain ⟨hmid0, hmid⟩ := h.2.2 i (by unfold row_begin at h20; omega)
      (by unfold imgRow at h70; omega)
    obtain ⟨hq0, hq1⟩ := quan_mem h20 h70
    have hcol : |((imgCol.tdiv 2 - I.MID_Table i : ℤ) : ℚ)| ≤ 94 := by
      have hcol : |imgCol.tdiv 2 - I.MID_Table i| ≤ 94 := by
        have hhalf : imgCol.tdiv 2 = 94 := by decide
        rw [hhalf, abs_le]
        omega
      exact_mod_cast hcol
    calc |I.row_offset i| = |((imgCol.tdiv 2 - I.MID_Table i : ℤ) : ℚ)| * quan i := by
          rw [Image.row_offset, abs_mul, abs_of_nonneg hq0]
      _ ≤ 94 * 1 := mul_le_mul hcol hq1 hq0 (by norm_num)
      _ = 94 := mul_one 94
  rw [Image.Aver_Offset]
  generalize (Finset.Ico row_begin imgRow).filter I.Seen = seen at hrow ⊢
  rw [abs_div, Nat.abs_cast]
  apply div_le_of_le_mul₀ (Nat.cast_nonneg _) (by norm_num)
  calc |∑ i ∈ seen, I.row_offset i| ≤ ∑ i ∈ seen, |I.row_offset i| :=
        Finset.abs_sum_le_sum_abs _ _
    _ ≤ seen.card • (94 : ℚ) := Finset.sum_le_card_nsmul _ _ _ hrow
    _ = 94 * seen.card := by rw [nsmul_eq_mul, mul_comm]

/-- **One frame**: with the offset at 0 before it, the controllers are fed with the offset of its
    borders. -/
theorem trace_line_method_eq (I : Image) {s : TraceLine ℚ} (h : s.TraceLine_Aver_Offset = 0) :
    trace_line_method I s =
      if s.car.Car_Speed_ConRight = Con_By_TraceLine then s.steer I.Aver_Offset else s := by
  have hrows : Finset.Ioc (imgRow - 1 - (imgRow - row_begin).toNat) (imgRow - 1) =
      Finset.Ico row_begin imgRow := by
    ext r
    simp only [Finset.mem_Ioc, Finset.mem_Ico, imgRow, row_begin]
    omega
  rw [trace_line_method, trace_line_loop_eq, hrows, h, zero_add, zero_add]
  dsimp only
  congr 2
  rw [Image.Aver_Offset]
  split_ifs with hseen
  · rfl
  · rw [not_not] at hseen
    rw [hseen, Nat.cast_zero, div_zero]
    rfl

/-! ## Runs -/

/-- **Tracing** — in every run whose frames have their borders in the image, whatever else happens
    between them, every frame finds the offset at 0 and, while the tracing code has the control right,
    feeds the controllers with the offset of its own borders, of magnitude at most 94. -/
theorem trace_line_offset (as : List (TraceLine.Action ℚ))
    (h : ∀ I, .frame I ∈ as → Pixels I.leftBroder ∧ Pixels I.rightBroder) :
    EachStep (fun pre a => ∀ I, a = .frame I →
      ((trace_line_init TraceLine.zero).run pre).TraceLine_Aver_Offset = 0 ∧
      |I.Aver_Offset| ≤ 94 ∧
      (trace_line_init TraceLine.zero).run (pre ++ [a]) =
        if ((trace_line_init TraceLine.zero).run pre).car.Car_Speed_ConRight = Con_By_TraceLine then
          ((trace_line_init TraceLine.zero).run pre).steer I.Aver_Offset
        else (trace_line_init TraceLine.zero).run pre) as := by
  rintro pre a hpre I rfl
  have hzero : ((trace_line_init TraceLine.zero).run pre).TraceLine_Aver_Offset = (0 : ℚ) :=
    TraceLine.run_offset rfl pre
  have hmem : TraceLine.Action.frame I ∈ as :=
    hpre.subset (List.mem_append_right pre List.mem_cons_self)
  obtain ⟨hl, hr⟩ := h I hmem
  refine ⟨hzero, Image.abs_Aver_Offset_le (Image.inRange_of_pixels hl hr), ?_⟩
  rw [TraceLine.run_concat]
  exact trace_line_method_eq I hzero

/-- A frame that is traced, one that is not, and one that is traced again. -/
def switchedRun : List (TraceLine.Action ℚ) :=
  let straight : Image := ⟨fun _ => 40, fun _ => 150⟩
  let give := fun right => TraceLine.Action.elsewhere fun s : TraceLine ℚ =>
    { s with car := { s.car with Car_Speed_ConRight := right } }
  [.frame straight, give Con_By_AngleLoop, .frame straight, give Con_By_TraceLine, .frame straight]

theorem trace_line_offset_switched :
    EachStep (fun pre a => ∀ I, a = .frame I →
      ((trace_line_init TraceLine.zero).run pre).TraceLine_Aver_Offset = 0 ∧
      |I.Aver_Offset| ≤ 94 ∧
      (trace_line_init TraceLine.zero).run (pre ++ [a]) =
        if ((trace_line_init TraceLine.zero).run pre).car.Car_Speed_ConRight = Con_By_TraceLine then
          ((trace_line_init TraceLine.zero).run pre).steer I.Aver_Offset
        else (trace_line_init TraceLine.zero).run pre) switchedRun := by
  apply trace_line_offset switchedRun
  intro I hI
  have hI' : I = ⟨fun _ => 40, fun _ => 150⟩ := by
    simpa [switchedRun] using hI
  subst hI'
  exact ⟨fun _ _ _ => by dsimp only; omega, fun _ _ _ => by dsimp only; omega⟩

end Car2025
