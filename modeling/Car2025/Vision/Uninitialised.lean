/-
  What uninitialised locals can change in a frame.

  1. **Lines** — `Line_IsMonotonous` starts its sum and its array from whatever the stack holds.  The
     sum decides which differences are filtered out, `df[-1]` replaces the first one, and the
     look-ahead runs on into cells that were never written.  A line is `Settled` when none of this
     matters.

  2. **Averages** — `Line_GetAverage` can return any column, so where two averages are compared the
     result can be any of the two.

  3. **Result (`SymbolJudge_features_settled`)** — for borders whose segments fit into the table the
     record of a frame depends on them alone exactly when every line that is looked at is settled
     and no averages are compared.
-/
import Mathlib
import Car2025.LineShape
import Car2025.Vision.Crossing

namespace Car2025

open segment_type

/-! ## The look-ahead -/

section

variable {df df' : ℤ → ℤ} {max : ℤ}

/-- Cells above `max` are not read: the look-ahead is bounded by the larger row. -/
theorem Line_IsMonotonous_turns_congr (h : ∀ j ≤ max, df j = df' j) (s i : ℤ) :
    ∀ (n : ℕ) (k : ℤ), i + k + n ≤ max → Line_IsMonotonous_turns df s i max n k =
      Line_IsMonotonous_turns df' s i max n k := by
  intro n
  induction n with
  | zero => exact fun k _ => rfl
  | succ n ih =>
    intro k hk
    push_cast at hk
    rw [Line_IsMonotonous_turns, Line_IsMonotonous_turns, h (i + k) (by omega),
      h (i + (k + 1)) (by omega), ih (k + 1) (by omega)]

/-- The loop reads no difference beyond the last one. -/
theorem Line_IsMonotonous_loop_congr (h : ∀ j ≤ max, df j = df' j) {howmany_point : ℤ}
    (hmax : howmany_point - 1 ≤ max) : ∀ (n : ℕ) (i : ℤ),
      Line_IsMonotonous_loop df howmany_point max n i =
        Line_IsMonotonous_loop df' howmany_point max n i := by
  intro n
  induction n with
  | zero => exact fun i => rfl
  | succ n ih =>
    intro i
    rw [Line_IsMonotonous_loop, Line_IsMonotonous_loop, ih (i + 1)]
    by_cases hi : i < howmany_point - 3
    · rw [if_pos hi, if_pos hi, h i (by omega),
        Line_IsMonotonous_turns_congr h 1 i _ 1 (by omega),
        Line_IsMonotonous_turns_congr h (-1) i _ 1 (by omega)]
    · rw [if_neg hi, if_neg hi]

/-- A turn that lasts, before index `m`: the difference behind it does not go on, and the nearest
    nonzero one behind that goes the other way. -/
def Turned (df : ℤ → ℤ) (m : ℤ) : Prop := ∃ i, 0 ≤ i ∧ i < m ∧ LastsAt df i

/-- A difference before index `m - 2` is not taken up by the next one, and the differences run out
    before a nonzero one decides about the turn. -/
def Undecided (df : ℤ → ℤ) (m : ℤ) : Prop :=
  ∃ i, 0 ≤ i ∧ i < m - 2 ∧ df i ≠ 0 ∧ df i * df (i + 1) ≤ 0 ∧ ∀ l, i + 1 < l → l < m → df l = 0

/-- The cells that are read. -/
def readCells (max : ℤ) (df : ℤ → ℤ) (j : ℤ) : ℤ := if j ≤ max then df j else 0

/-- **The second loop** over `m` differences: it finds a turn that lasts before index `m - 2`, on
    the cells that it reads.  These go beyond the differences wherever the look-ahead finds only
    zeros among them. -/
theorem Line_IsMonotonous_loop_turned {m : ℤ} (hm : m ≤ max) :
    Line_IsMonotonous_loop df (m + 1) max m.toNat 0 = false ↔ Turned (readCells max df) (m - 2) := by
  have hread : ∀ j ≤ max, df j = readCells max df j := fun j hj => (if_pos hj).symm
  have hzero : ∀ j, max < j → readCells max df j = 0 := fun j hj => if_neg (by omega)
  rw [Line_IsMonotonous_loop_congr hread (by omega), Line_IsMonotonous_loop_iff (by omega) hzero]
  constructor
  · rintro ⟨i, h0, -, h3, hlast⟩
    exact ⟨i, h0, by omega, hlast⟩
  · rintro ⟨i, h0, h3, hlast⟩
    exact ⟨i, h0, by omega, by omega, hlast⟩

/-- A turn among the differences is one whatever follows them. -/
theorem Turned.extend {m : ℤ} (hsame : ∀ j, 0 ≤ j → j < m → df' j = df j)
    (hzero : ∀ j, m ≤ j → df j = 0) (h : Turned df (m - 2)) : Turned df' (m - 2) := by
  obtain ⟨i, h0, h3, hlast⟩ := h
  obtain ⟨hnext, j, hj, hl, hneg⟩ := lastsAt_iff.mp hlast
  have hjm : j < m := by
    by_contra hout
    rw [hzero j (by omega), mul_zero] at hneg
    exact absurd hneg (lt_irrefl 0)
  refine ⟨i, h0, h3, lastsAt_iff.mpr ⟨?_, j, hj, fun l h h' => ?_, ?_⟩⟩
  · rw [hsame i h0 (by omega), hsame (i + 1) (by omega) (by omega)]
    exact hnext
  · rw [hsame l (by omega) (by omega)]
    exact hl l h h'
  · rw [hsame i h0 (by omega), hsame j (by omega) hjm]
    exact hneg

/-- What follows the differences makes a turn only where one is undecided. -/
theorem Turned.restrict {m : ℤ} (hsame : ∀ j, 0 ≤ j → j < m → df' j = df j)
    (h : Turned df' (m - 2)) : Turned df (m - 2) ∨ Undecided df m := by
  obtain ⟨i, h0, h3, hlast⟩ := h
  obtain ⟨hnext, j, hj, hl, hneg⟩ := lastsAt_iff.mp hlast
  rw [hsame i h0 (by omega), hsame (i + 1) (by omega) (by omega)] at hnext
  rw [hsame i h0 (by omega)] at hneg
  by_cases hjm : j < m
  · rw [hsame j (by omega) hjm] at hneg
    refine Or.inl ⟨i, h0, h3, lastsAt_iff.mpr ⟨hnext, j, hj, fun l h h' => ?_, hneg⟩⟩
    rw [← hsame l (by omega) (by omega)]
    exact hl l h h'
  · refine Or.inr ⟨i, h0, h3, fun hz => ?_, hnext, fun l h h' => ?_⟩
    · rw [hz, zero_mul] at hneg
      exact absurd hneg (lt_irrefl 0)
    · rw [← hsame l (by omega) h']
      exact hl l h (by omega)

/-- An undecided turn is made by the first cell that follows. -/
theorem Undecided.turned {m : ℤ} (hsame : ∀ j, 0 ≤ j → j < m → df' j = df j) {i : ℤ} (h0 : 0 ≤ i)
    (h3 : i < m - 2) (hne : df i ≠ 0) (hnext : df i * df (i + 1) ≤ 0)
    (hl : ∀ l, i + 1 < l → l < m → df l = 0) (hcell : df' m = -df i) : Turned df' (m - 2) := by
  refine ⟨i, h0, h3, lastsAt_iff.mpr ⟨?_, m, by omega, fun l h h' => ?_, ?_⟩⟩
  · rw [hsame i h0 (by omega), hsame (i + 1) (by omega) (by omega)]
    exact hnext
  · rw [hsame l (by omega) h']
    exact hl l h h'
  · rw [hsame i h0 (by omega), hcell, mul_neg, neg_lt_zero]
    exact mul_self_pos.mpr hne

end

/-! ## Lines that are settled -/

/-- The differences of the line between two rows, filtered from the start values `a` of the sum and
    `e` of the cell before the first, and zeros around them. -/
def lineFrom (b : Broder) (x1 x2 a e j : ℤ) : ℤ :=
  if 0 ≤ j ∧ j < max x1 x2 - min x1 x2 then filteredFrom b (max x1 x2) a e j.toNat else 0

/-- **Settled**: wherever the filter starts from, the line turns for good before its differences run
    out; or it never does, and never leaves a turn undecided. -/
def Settled (b : Broder) (x1 x2 : ℤ) : Prop :=
  (∀ a e, Turned (lineFrom b x1 x2 a e) (max x1 x2 - min x1 x2 - 2)) ∨
    ∀ a e, ¬ Turned (lineFrom b x1 x2 a e) (max x1 x2 - min x1 x2 - 2) ∧
      ¬ Undecided (lineFrom b x1 x2 a e) (max x1 x2 - min x1 x2)

section

variable {o : Outside} {x1 x2 : ℤ}

/-- Without a jump of 20 columns nothing is filtered out, wherever the filter starts from. -/
theorem lineFrom_of_smooth {b : Broder}
    (h : ∀ i : ℕ, (i : ℤ) < max x1 x2 - min x1 x2 → |difference b (max x1 x2) i| < 20) (a e : ℤ) :
    lineFrom b x1 x2 a e = fun j =>
      if 0 ≤ j ∧ j < max x1 x2 - min x1 x2 then difference b (max x1 x2) j.toNat else 0 := by
  have hkeep : ∀ i : ℕ, (i : ℤ) < max x1 x2 - min x1 x2 →
      filteredFrom b (max x1 x2) a e i = difference b (max x1 x2) i := by
    intro i hi
    have hsmall := h i hi
    have haver := abs_nonneg (averFrom b (max x1 x2) a i)
    cases i with
    | zero => exact if_neg (by omega)
    | succ i => exact if_neg (by omega)
  funext j
  simp only [lineFrom]
  by_cases hj : 0 ≤ j ∧ j < max x1 x2 - min x1 x2
  · rw [if_pos hj, if_pos hj, hkeep j.toNat (by omega)]
  · rw [if_neg hj, if_neg hj]

/-- **Smooth lines** are settled where they turn for good, and where no turn is left undecided.
    The start of the filter does not reach them, so the differences of the border itself decide. -/
theorem settled_iff_of_smooth {b : Broder}
    (h : ∀ i : ℕ, (i : ℤ) < max x1 x2 - min x1 x2 → |difference b (max x1 x2) i| < 20) :
    Settled b x1 x2 ↔ Turned (lineFrom b x1 x2 0 0) (max x1 x2 - min x1 x2 - 2) ∨
      ¬ Undecided (lineFrom b x1 x2 0 0) (max x1 x2 - min x1 x2) := by
  have hall : ∀ a e, lineFrom b x1 x2 a e = lineFrom b x1 x2 0 0 := fun a e =>
    (lineFrom_of_smooth h a e).trans (lineFrom_of_smooth h 0 0).symm
  simp only [Settled]
  simp only [hall]
  constructor
  · rintro (hturn | hnone)
    · exact Or.inl (hturn 0 0)
    · exact Or.inr (hnone 0 0).2
  · intro hline
    by_cases hturn : Turned (lineFrom b x1 x2 0 0) (max x1 x2 - min x1 x2 - 2)
    · exact Or.inl fun _ _ => hturn
    · exact Or.inr fun _ _ => ⟨hturn, hline.resolve_left hturn⟩

/-- The cells that the look-ahead reads. -/
def lineCells (junk : Uninit) (b : Broder) (x1 x2 : ℤ) : ℤ → ℤ :=
  readCells (max x1 x2)
    (dfAfter b (max x1 x2) junk.aver_df junk.df (max x1 x2 - min x1 x2))

/-- **The verdict** on a line: it is not monotonous where the cells show a turn, those of the line
    with those of the stack behind them. -/
theorem Line_IsMonotonous_turned (o : Outside) (junk : Uninit) (h : TwoRows x1 x2) (b : Broder) :
    ∃ v, Line_IsMonotonous o junk b x1 x2 = .ok v ∧
      (v = false ↔ Turned (lineCells junk b x1 x2) (max x1 x2 - min x1 x2 - 2)) := by
  have h1 := inRows_iff.mp h.row1
  have h2 := inRows_iff.mp h.row2
  refine ⟨_, ?_, Line_IsMonotonous_loop_turned (m := max x1 x2 - min x1 x2) (by omega)⟩
  rw [Line_IsMonotonous, Tool_CmpMax_eq, Tool_CmpMin_eq, add_sub_cancel_right,
    Line_IsMonotonous_df_eq o junk (by omega) (by omega) (by omega), ok_bind, pure_ok]

/-- The differences are the line's; what follows them is the stack's. -/
theorem lineCells_of_lt (h : TwoRows x1 x2) (junk : Uninit) (b : Broder) {j : ℤ} (h0 : 0 ≤ j)
    (hj : j < max x1 x2 - min x1 x2) :
    lineCells junk b x1 x2 j = lineFrom b x1 x2 junk.aver_df (junk.df (-1)) j := by
  have h1 := inRows_iff.mp h.row1
  have h2 := inRows_iff.mp h.row2
  simp only [lineCells, readCells, dfAfter, lineFrom]
  rw [if_pos (by omega), if_pos ⟨h0, hj⟩, if_pos ⟨h0, hj⟩]

/-- The stack with start values `a` and `e`, and `t` in the cell `m`; these three are all that a
    line can ask of it. -/
def stackOf (a e m t : ℤ) : Uninit where
  df j := if j = -1 then e else if j = m then t else 0
  aver_df := a
  total := 0

/-- The cell after the differences is read. -/
theorem lineCells_stackOf (h : TwoRows x1 x2) (b : Broder) (a e t : ℤ) :
    lineCells (stackOf a e (max x1 x2 - min x1 x2) t) b x1 x2 (max x1 x2 - min x1 x2) = t := by
  have h1 := inRows_iff.mp h.row1
  have h2 := inRows_iff.mp h.row2
  unfold lineCells readCells dfAfter stackOf
  rw [if_pos (by omega), if_neg (by omega)]
  exact (if_neg (by omega)).trans (if_pos rfl)

theorem turned_lineCells_of_turned (h : TwoRows x1 x2) (b : Broder) (junk : Uninit)
    (ht : Turned (lineFrom b x1 x2 junk.aver_df (junk.df (-1))) (max x1 x2 - min x1 x2 - 2)) :
    Turned (lineCells junk b x1 x2) (max x1 x2 - min x1 x2 - 2) :=
  ht.extend (fun _ h0 hj => lineCells_of_lt h junk b h0 hj) (fun j hj => if_neg (by omega))

/-- With zeros in the other cells the line decides. -/
theorem turned_lineCells_zeros (h : TwoRows x1 x2) (b : Broder) (a e : ℤ) :
    Turned (lineCells (stackOf a e 0 0) b x1 x2) (max x1 x2 - min x1 x2 - 2) ↔
      Turned (lineFrom b x1 x2 a e) (max x1 x2 - min x1 x2 - 2) := by
  have hsame := fun j h0 hj => lineCells_of_lt h (stackOf a e 0 0) b (j := j) h0 hj
  have hzero : ∀ j, max x1 x2 - min x1 x2 ≤ j → lineCells (stackOf a e 0 0) b x1 x2 j = 0 := by
    intro j hj
    have hcell : (stackOf a e 0 0).df j = 0 := (if_neg (by omega)).trans (ite_self 0)
    simp only [lineCells, readCells, dfAfter]
    rw [if_neg (by omega : ¬ (0 ≤ j ∧ j < max x1 x2 - min x1 x2)), hcell, ite_self]
  exact ⟨fun ht => ht.extend (fun j h0 hj => (hsame j h0 hj).symm) hzero,
    turned_lineCells_of_turned h b (stackOf a e 0 0)⟩

/-- **Lines**: the verdict is the same for every stack exactly when the line is settled.  A line
    that is not has two stacks to tell it from: the one of zeros, and one that holds the right
    start values or the one cell that decides an undecided turn. -/
theorem Line_IsMonotonous_settled (o : Outside) (h : TwoRows x1 x2) (b : Broder) :
    (∀ junk junk', Line_IsMonotonous o junk b x1 x2 = Line_IsMonotonous o junk' b x1 x2) ↔
      Settled b x1 x2 := by
  constructor
  · intro hsame
    -- every stack gives the verdict of the stack of zeros
    have hturned : ∀ junk, Turned (lineCells junk b x1 x2) (max x1 x2 - min x1 x2 - 2) ↔
        Turned (lineCells (stackOf 0 0 0 0) b x1 x2) (max x1 x2 - min x1 x2 - 2) := by
      intro junk
      obtain ⟨v, hv, hiff⟩ := Line_IsMonotonous_turned o junk h b
      obtain ⟨v', hv', hiff'⟩ := Line_IsMonotonous_turned o (stackOf 0 0 0 0) h b
      have heq := hsame junk (stackOf 0 0 0 0)
      rw [hv, hv'] at heq
      cases heq
      exact hiff.symm.trans hiff'
    by_cases hzero : Turned (lineCells (stackOf 0 0 0 0) b x1 x2) (max x1 x2 - min x1 x2 - 2)
    · exact Or.inl fun a e =>
        (turned_lineCells_zeros h b a e).mp ((hturned (stackOf a e 0 0)).mpr hzero)
    · refine Or.inr fun a e => ⟨fun ht => ?_, ?_⟩
      · exact hzero ((hturned _).mp ((turned_lineCells_zeros h b a e).mpr ht))
      · rintro ⟨i, h0, h3, hne, hnext, hl⟩
        let junk := stackOf a e (max x1 x2 - min x1 x2) (-lineFrom b x1 x2 a e i)
        have hcells : ∀ j, 0 ≤ j → j < max x1 x2 - min x1 x2 →
            lineCells junk b x1 x2 j = lineFrom b x1 x2 a e j :=
          fun j h0 hj => lineCells_of_lt h junk b h0 hj
        exact hzero ((hturned junk).mp
          (Undecided.turned hcells h0 h3 hne hnext hl (lineCells_stackOf h b a e _)))
  · intro hsettled junk junk'
    have hturned : Turned (lineCells junk b x1 x2) (max x1 x2 - min x1 x2 - 2) ↔
        Turned (lineCells junk' b x1 x2) (max x1 x2 - min x1 x2 - 2) := by
      rcases hsettled with hall | hnone
      · exact ⟨fun _ => turned_lineCells_of_turned h b junk' (hall _ _),
          fun _ => turned_lineCells_of_turned h b junk (hall _ _)⟩
      · have hno : ∀ junk, ¬ Turned (lineCells junk b x1 x2) (max x1 x2 - min x1 x2 - 2) := by
          intro junk ht
          have hcells := fun j h0 hj => lineCells_of_lt h junk b (j := j) h0 hj
          rcases ht.restrict hcells with h' | h'
          · exact (hnone _ _).1 h'
          · exact (hnone _ _).2 h'
        exact ⟨fun ht => absurd ht (hno junk), fun ht => absurd ht (hno junk')⟩
    obtain ⟨v, hv, hiff⟩ := Line_IsMonotonous_turned o junk h b
    obtain ⟨v', hv', hiff'⟩ := Line_IsMonotonous_turned o junk' h b
    rw [hv, hv']
    congr 1
    have hfalse := hiff.trans (hturned.trans hiff'.symm)
    cases v with
    | false => exact (hfalse.mp rfl).symm
    | true =>
      cases v' with
      | false => exact hfalse.mpr rfl
      | true => rfl

/-! ## Averages -/

theorem Line_GetAverage_loop_sum {b : Broder} : ∀ (n : ℕ) (i : ℤ), 0 ≤ i → i + n ≤ 70 →
    ∃ sum, ∀ total, Line_GetAverage_loop o b n i total = .ok (total + sum) := by
  intro n
  induction n with
  | zero => exact fun i _ _ => ⟨0, fun total => by rw [Line_GetAverage_loop, add_zero, pure_ok]⟩
  | succ n ih =>
    intro i h0 hn
    push_cast at hn
    obtain ⟨sum, hsum⟩ := ih (i + 1) (by omega) (by omega)
    refine ⟨b i + sum, fun total => ?_⟩
    rw [Line_GetAverage_loop, rd_of_allows (o.allows_of_rows h0 (by omega)), ok_bind, hsum,
      add_assoc]

/-- **Averages**: the sum can start where the average becomes any column, as `total` is added to
    before it is ever set. -/
theorem Line_GetAverage_any (h1 : 0 ≤ x1 ∧ x1 ≤ 69) (h2 : 0 ≤ x2 ∧ x2 ≤ 69) (b : Broder) {v : ℤ}
    (hv : -32768 ≤ v ∧ v < 32768) :
    ∃ junk : Uninit, Line_GetAverage o junk b x1 x2 = .ok v := by
  obtain ⟨sum, hsum⟩ := Line_GetAverage_loop_sum (o := o) (b := b)
    (max x1 x2 - min x1 x2 + 1).toNat (min x1 x2) (by omega) (by omega)
  refine ⟨⟨fun _ => 0, 0, v * (max x1 x2 - min x1 x2 + 1) - sum⟩, ?_⟩
  rw [Line_GetAverage, Tool_CmpMax_eq, Tool_CmpMin_eq, hsum, ok_bind, sub_add_cancel,
    cdiv_of_ne (by omega), ok_bind, Int.mul_tdiv_cancel _ (by omega), int16_of_small hv.1 hv.2,
    pure_ok]

end

/-! ## Feature points -/

section

variable {R : Type} [CFloat R] {o : Outside} {b : Broder} {S : FeatureSide}

/-- A third segment behind a long lost one: two averages are compared. -/
def ComparesAverages (S : FeatureSide) : Prop :=
  IsLose (S.my_segment 1) = true ∧ Vision_IsLone (S.my_segment 1) = true ∧
    IsNull (S.my_segment 2) = false

theorem FindFP_far_single (junk junk' : Uninit) (aver1 aver1' : ℤ) (S : FeatureSide)
    (hnull : IsNull (S.my_segment 2) = true) :
    FindFP_far R o junk aver1 b S = FindFP_far R o junk' aver1' b S := by
  simp only [FindFP_far]
  rw [hnull]
  rfl

/-- Where no averages are compared, the stack does not reach the feature points. -/
theorem Vision_BroderFindFP_congr (h : Segmented S) (hno : ¬ ComparesAverages S)
    (junk junk' : ℕ → Uninit) :
    Vision_BroderFindFP R o junk b S = Vision_BroderFindFP R o junk' b S := by
  have hrows0 := h.rows 0 h.first.2
  unfold Vision_BroderFindFP
  dsimp only
  rw [show (clearFP S).my_segment = S.my_segment from rfl]
  cases hlone : (IsLose (S.my_segment 1) && Vision_IsLone (S.my_segment 1)) with
  | false => rfl
  | true =>
    rw [Bool.and_eq_true] at hlone
    have hnull : IsNull (S.my_segment 2) = true := by
      cases hnull : IsNull (S.my_segment 2) with
      | true => rfl
      | false => exact absurd ⟨hlone.1, hlone.2, hnull⟩ hno
    have haver : ∀ junk : Uninit, ∃ v, Line_GetAverage o junk b (S.my_segment 0).begin
        (S.my_segment 0).end = .ok v :=
      fun junk => Line_GetAverage_ok junk (by omega) (by omega) (by omega) (by omega)
    obtain ⟨v, hv⟩ := haver (junk 0)
    obtain ⟨v', hv'⟩ := haver (junk' 0)
    obtain ⟨b', pf, hpf⟩ := FindArcFP_segment_ok (R := R) (o := o) (b := b) hrows0
    -- With no third segment the far search returns before it looks at an average.
    have hfar : ∀ (b₁ : Broder) (S₁ : FeatureSide), S₁.my_segment = S.my_segment →
        FindFP_far R o (junk 1) v b₁ S₁ = FindFP_far R o (junk' 1) v' b₁ S₁ :=
      fun b₁ S₁ hseg => FindFP_far_single _ _ _ _ S₁ (by rw [hseg]; exact hnull)
    rw [if_pos rfl, if_pos rfl, hv, ok_bind, hv', ok_bind, hpf, ok_bind, ok_bind]
    dsimp only
    split_ifs
    · rw [rd_of_allows (o.allows_of_rows (by omega) (by omega)), ok_bind, ok_bind]
      exact hfar _ _ rfl
    · exact hfar _ _ rfl

/-- The far segment, where both averages are known. -/
theorem FindFP_far_averages (h : Segmented S) (hnull : IsNull (S.my_segment 2) = false) (v : ℤ)
    (S₁ : FeatureSide) (hseg : S₁.my_segment = S.my_segment) :
    ∃ junk b' S', FindFP_far R o junk v b S₁ = .ok (b', S') ∧
      S'.FP_n = if |v| > 80 then S₁.FP_n - 1 else S₁.FP_n + 1 := by
  have hrows := h.rows 2 hnull
  obtain ⟨junk, hjunk⟩ := Line_GetAverage_any (o := o)
    (show 0 ≤ (S.my_segment 2).begin ∧ (S.my_segment 2).begin ≤ 69 by omega)
    (show 0 ≤ (S.my_segment 2).end ∧ (S.my_segment 2).end ≤ 69 by omega) b
    (show -32768 ≤ (0 : ℤ) ∧ (0 : ℤ) < 32768 by omega)
  obtain ⟨b', p, hp, -⟩ := FindFP_near_ok (R := R) (o := o) (b := b) hrows
  by_cases hfar : |v| > 80
  · refine ⟨junk, b, { setFP S₁ 0 ⟨-1, -1⟩ with FP_n := S₁.FP_n - 1 }, ?_, (if_pos hfar).symm⟩
    rw [FindFP_far, hseg, hnull, Bool.not_false, if_pos rfl, hjunk, ok_bind, sub_zero, if_pos hfar,
      pure_ok]
  · refine ⟨junk, b', { setFP S₁ 1 p with FP_n := S₁.FP_n + 1 }, ?_, (if_neg hfar).symm⟩
    rw [FindFP_far, hseg, hnull, Bool.not_false, if_pos rfl, hjunk, ok_bind, sub_zero, if_neg hfar,
      hp, ok_bind]
    rfl

/-- **Two points or none**: where averages are compared, the stack decides, since either of the two
    can be made anything. -/
theorem Vision_BroderFindFP_averages (h : Segmented S) (hcmp : ComparesAverages S) {v : ℤ}
    (hv : -32768 ≤ v ∧ v < 32768) :
    ∃ junk b' S', Vision_BroderFindFP R o junk b S = .ok (b', S') ∧
      S'.FP_n = if |v| > 80 then 0 else 2 := by
  obtain ⟨hlose, hlone, hnull⟩ := hcmp
  have hrows0 := h.rows 0 h.first.2
  obtain ⟨junk₀, hjunk₀⟩ := Line_GetAverage_any (o := o)
    (show 0 ≤ (S.my_segment 0).begin ∧ (S.my_segment 0).begin ≤ 69 by omega)
    (show 0 ≤ (S.my_segment 0).end ∧ (S.my_segment 0).end ≤ 69 by omega) b hv
  obtain ⟨b', pf, hpf⟩ := FindArcFP_segment_ok (R := R) (o := o) (b := b) hrows0
  let p : point_t := if pf.x = -1 ∧ pf.y = -1 then
    ⟨(S.my_segment 0).end, b' (S.my_segment 0).end⟩ else pf
  obtain ⟨junk₁, b'', S', hS', hn⟩ := FindFP_far_averages (R := R) (o := o) (b := b') h hnull v
    { setFP (clearFP S) 0 p with FP_n := (clearFP S).FP_n + 1 } rfl
  refine ⟨fun i => if i = 0 then junk₀ else junk₁, b'', S', ?_, hn⟩
  unfold Vision_BroderFindFP
  dsimp only
  rw [show (clearFP S).my_segment = S.my_segment from rfl, hlose, hlone, Bool.and_true, if_pos rfl,
    if_pos rfl, hjunk₀, ok_bind, hpf, ok_bind]
  dsimp only
  by_cases hnone : pf.x = -1 ∧ pf.y = -1
  · rw [if_pos hnone, rd_of_allows (o.allows_of_rows (by omega) (by omega)), ok_bind, ← hS']
    rw [show p = _ from if_pos hnone]
    rfl
  · rw [if_neg hnone, ← hS', show p = pf from if_neg hnone]
    rfl

end

/-! ## Segments -/

section

variable (R : Type) [CFloat R] {LorR : Bool} {b : Broder}

/-- The entry `k` of the table before the classification. -/
def reported (LorR : Bool) (b : Broder) (k : ℕ) : segment_t :=
  tableOf ((band LorR).finalLabel b) ((band LorR).finalCuts b) k

/-- **Settled segments**: every reported segment that is neither lost nor straight is a line that is
    settled. -/
def SettledSegments (LorR : Bool) (b : Broder) : Prop :=
  ∀ k ≤ ((band LorR).finalCuts b).length, (reported LorR b k).type = NULL_segment →
    Line_IsStraight R .reads ((band LorR).finalBroder b) (reported LorR b k).begin
      (reported LorR b k).end = .ok false →
    Settled ((band LorR).finalBroder b) (reported LorR b k).begin (reported LorR b k).end

/-- **The classification** gives the types of `classify_segment`, and leaves the entries before `i`
    alone.  Each segment is judged with a stack of its own, so the segments can be settled one by
    one. -/
theorem classify_types {o : Outside} {junk : ℕ → Uninit} : ∀ (n i : ℕ) (t t' : Segments),
    classify R o junk b n i t = .ok t' → (∀ k, k < i → t' k = t k) ∧
      ∀ k, i ≤ k → k < i + n → (t k).type = NULL_segment →
        classify_segment R o (junk k) b (t k) = .ok (t' k).type := by
  intro n
  induction n with
  | zero =>
    intro i t t' ht'
    cases ht'
    exact ⟨fun _ _ => rfl, fun k h1 h2 => absurd h2 (by omega)⟩
  | succ n ih =>
    intro i t t' ht'
    rw [classify] at ht'
    by_cases hi : i ≤ 9
    · rw [entry_of_le hi, ok_bind] at ht'
      by_cases hnull : (t i).type = NULL_segment
      · rw [if_pos hnull] at ht'
        obtain ⟨type, htype, hset⟩ := Outcome.exists_of_bind ht'
        rw [setEntry_of_le hi, ok_bind] at hset
        obtain ⟨hkept, hrest⟩ := ih (i + 1) _ t' hset
        refine ⟨fun k hk => ?_, fun k h1 h2 hk => ?_⟩
        · rw [hkept k (by omega), Function.update_of_ne (by omega)]
        · rcases Nat.eq_or_lt_of_le h1 with rfl | hlt
          · rw [htype, hkept i (Nat.lt_succ_self i), Function.update_self]
          · have hother := hrest k hlt (by omega)
            rw [Function.update_of_ne (by omega)] at hother
            exact hother hk
      · rw [if_neg hnull] at ht'
        obtain ⟨hkept, hrest⟩ := ih (i + 1) t t' ht'
        refine ⟨fun k hk => hkept k (by omega), fun k h1 h2 hk => ?_⟩
        rcases Nat.eq_or_lt_of_le h1 with rfl | hlt
        · exact absurd hk hnull
        · exact hrest k hlt (by omega) hk
    · rw [show entry t i = .error (.entry i) from if_neg hi, error_bind] at ht'
      cases ht'

/-- Equal types are equal tables, as the classification writes nothing but the types. -/
theorem classify_congr {o : Outside} {junk junk' : ℕ → Uninit} : ∀ (n i : ℕ) (t : Segments),
    (∀ k, i ≤ k → k < i + n → (t k).type = NULL_segment →
      classify_segment R o (junk k) b (t k) = classify_segment R o (junk' k) b (t k)) →
    classify R o junk b n i t = classify R o junk' b n i t := by
  intro n
  induction n with
  | zero => exact fun i t _ => rfl
  | succ n ih =>
    intro i t hsame
    rw [classify, classify]
    by_cases hi : i ≤ 9
    · rw [entry_of_le hi, ok_bind, ok_bind]
      by_cases hnull : (t i).type = NULL_segment
      · rw [if_pos hnull, if_pos hnull, hsame i (le_refl i) (by omega) hnull]
        congr 1
        funext type
        rw [setEntry_of_le hi, ok_bind, ok_bind]
        apply ih (i + 1) _
        intro k h1 h2
        rw [Function.update_of_ne (by omega)]
        exact hsame k (by omega) (by omega)
      · rw [if_neg hnull, if_neg hnull]
        exact ih (i + 1) t fun k h1 h2 => hsame k (by omega) (by omega)
    · rw [show entry t i = .error (.entry i) from if_neg hi, error_bind, error_bind]

/-- **One segment**: its type is the same for every stack exactly when it is straight or settled.
    A straight one is never asked whether it is monotonous. -/
theorem classify_segment_settled {seg : segment_t} (h : TwoRows seg.begin seg.end) :
    (∀ junk junk', classify_segment R .reads junk b seg = classify_segment R .reads junk' b seg) ↔
      (Line_IsStraight R .reads b seg.begin seg.end = .ok false → Settled b seg.begin seg.end) := by
  have h1 := inRows_iff.mp h.row1
  have h2 := inRows_iff.mp h.row2
  obtain ⟨straight, hs⟩ : ∃ v, Line_IsStraight R .reads b seg.begin seg.end = .ok v :=
    Line_IsStraight_ok h.ne h1.1 h1.2 h2.1 h2.2
  simp only [classify_segment]
  rw [hs]
  cases straight with
  | true => exact ⟨fun _ hno => absurd hno (by simp), fun _ _ _ => rfl⟩
  | false =>
    rw [← Line_IsMonotonous_settled .reads h b]
    constructor
    · intro hsame _ junk junk'
      obtain ⟨v, hv⟩ : ∃ v, Line_IsMonotonous .reads junk b seg.begin seg.end = .ok v :=
        Line_IsMonotonous_ok junk h1.1 h1.2 h2.1 h2.2
      obtain ⟨v', hv'⟩ : ∃ v, Line_IsMonotonous .reads junk' b seg.begin seg.end = .ok v :=
        Line_IsMonotonous_ok junk' h1.1 h1.2 h2.1 h2.2
      have htype := hsame junk junk'
      rw [ok_bind, if_neg Bool.false_ne_true, hv, hv', ok_bind, ok_bind] at htype
      rw [hv, hv']
      cases v <;> cases v' <;> first | rfl | cases htype
    · intro hsame junk junk'
      rw [ok_bind, ok_bind, if_neg Bool.false_ne_true, if_neg Bool.false_ne_true,
        hsame rfl junk junk']

theorem reported_rows {k : ℕ} (hk : k ≤ ((band LorR).finalCuts b).length) :
    TwoRows (reported LorR b k).begin (reported LorR b k).end := by
  have hspaced := (band LorR).finalCuts_spaced b
  have hlong := hspaced.long hk
  have hlow : 0 ≤ endOf ((band LorR).finalCuts b) k := Spaced.endOf_nonneg k
  have hhigh := hspaced.beginOf_le hk
  simp only [reported]
  rw [tableOf_of_le hk]
  dsimp only
  exact ⟨by omega, inRows_iff.mpr ⟨by omega, hhigh⟩, inRows_iff.mpr ⟨hlow, by omega⟩⟩

/-- **Segments**: the record is the same for every stack exactly when its segments are settled.
    The scan uses nothing of the stack, only the classification does. -/
theorem Vision_GetSegment_settled (hover : ¬ (band LorR).Overflows b) (S : FeatureSide) :
    (∀ junk junk', Vision_GetSegment R .reads junk LorR b S =
      Vision_GetSegment R .reads junk' LorR b S) ↔ SettledSegments R LorR b := by
  have hsplit : ∀ junk, Vision_GetSegment R .reads junk LorR b S =
      (classify R .reads junk ((band LorR).finalBroder b) (((band LorR).finalCuts b).length + 1) 0
        (reported LorR b) >>= fun t => .ok ((band LorR).finalBroder b,
          { S with my_segment := t, segment_n := ((band LorR).finalCuts b).length + 1 })) := by
    intro junk
    rw [Vision_GetSegment_split, scan_merge_ok (Or.inl rfl) hover, ok_bind]
    rfl
  constructor
  · intro hsame k hk hnull hstraight
    refine (classify_segment_settled R (reported_rows hk)).mp (fun junk junk' => ?_) hstraight
    obtain ⟨t, ht, -⟩ := Vision_GetSegment_eq R (o := .reads) (Or.inl rfl) hover (fun _ => junk) S
    have htype : ∀ junk : Uninit, classify_segment R .reads junk ((band LorR).finalBroder b)
        (reported LorR b k) = .ok (t k).type := by
      intro junk'
      have hrun := (hsame (fun _ => junk') (fun _ => junk)).trans ht
      rw [hsplit] at hrun
      obtain ⟨t', hc, ht'⟩ := Outcome.exists_of_bind hrun
      cases ht'
      exact (classify_types R _ 0 _ _ hc).2 k (Nat.zero_le k) (by omega) hnull
    rw [htype junk, htype junk']
  · intro hsettled junk junk'
    rw [hsplit junk, hsplit junk', classify_congr R _ 0 _ fun k _ hk hnull => ?_]
    exact (classify_segment_settled R (reported_rows (by omega))).mpr
      (hsettled k (by omega) hnull) (junk k) (junk' k)

/-! ## One side of a frame -/

/-- A third segment is reported behind a long lost one. -/
def ThirdBehindLost (LorR : Bool) (b : Broder) : Prop :=
  IsLose (reported LorR b 1) = true ∧ Vision_IsLone (reported LorR b 1) = true ∧
    2 ≤ ((band LorR).finalCuts b).length

/-- **A side is settled**: its segments are, and no averages are compared. -/
def SettledSide (LorR : Bool) (b : Broder) : Prop :=
  SettledSegments R LorR b ∧ ¬ ThirdBehindLost LorR b

/-- The segments and the feature points of one side. -/
def side_features (junk junk' : ℕ → Uninit) (LorR : Bool) (b : Broder) (S : FeatureSide) :
    Except Stop (Broder × FeatureSide) := do
  let (b, S) ← Vision_GetSegment R .reads junk LorR b S
  Vision_BroderFindFP R .reads junk' b S

/-- What the classification leaves decides whether averages are compared. -/
theorem comparesAverages_iff {S : FeatureSide}
    (hj : Judged (reported LorR b) S.my_segment 0 (((band LorR).finalCuts b).length + 1)) :
    ComparesAverages S ↔ ThirdBehindLost LorR b := by
  have hp := hj.partitions ((band LorR).finalCuts_spaced b)
  have hlose : IsLose (S.my_segment 1) = IsLose (reported LorR b 1) := by
    simp only [IsLose]
    by_cases hin : 1 < 0 + (((band LorR).finalCuts b).length + 1) ∧
        (reported LorR b 1).type = NULL_segment
    · have hne := (hj.judged 1 (Nat.zero_le 1) hin.1 hin.2).ne_lose
      rw [decide_eq_false hne, hin.2]
      rfl
    · rw [hj.kept 1]
      rw [not_and_or] at hin
      exact Or.inr (hin.imp_left not_lt.mp)
  have hlone : Vision_IsLone (S.my_segment 1) = Vision_IsLone (reported LorR b 1) := by
    simp only [Vision_IsLone]
    rw [hj.begin, hj.end]
  have hnull : IsNull (S.my_segment 2) = false ↔ 2 ≤ ((band LorR).finalCuts b).length := by
    rw [isNull_iff]
    constructor
    · intro hne
      by_contra hlt
      rw [hp.cleared 2 (by omega)] at hne
      exact hne rfl
    · intro hle
      exact hp.typed 2 (by omega)
  simp only [ComparesAverages, ThirdBehindLost]
  rw [hlose, hlone, hnull]

/-- A side of a frame whose table is long enough returns, whatever the stack holds. -/
theorem side_features_ok (hover : ¬ (band LorR).Overflows b) (junk junk' : ℕ → Uninit)
    (S : FeatureSide) : ∃ b' S', side_features R junk junk' LorR b S = .ok (b', S') := by
  obtain ⟨t, ht, hj⟩ := Vision_GetSegment_eq R (o := .reads) (Or.inl rfl) hover junk S
  obtain ⟨b', S', hS', -⟩ := Vision_BroderFindFP_ok (R := R) (o := .reads)
    (b := (band LorR).finalBroder b) junk'
    (hj.segmented ((band LorR).finalCuts_spaced b) (S := { S with
      my_segment := t, segment_n := ((band LorR).finalCuts b).length + 1 }) rfl)
  refine ⟨b', S', ?_⟩
  rw [side_features, ht, ok_bind]
  exact hS'

/-- **One side**: its record is the same for every stack exactly when it is settled: the segments
    first, and then the feature points, which use nothing of the stack but the averages. -/
theorem side_features_settled (hover : ¬ (band LorR).Overflows b) (S : FeatureSide) :
    (∀ jg jf jg' jf' b₁ S₁ b₂ S₂, side_features R jg jf LorR b S = .ok (b₁, S₁) →
      side_features R jg' jf' LorR b S = .ok (b₂, S₂) → S₁ = S₂) ↔ SettledSide R LorR b := by
  constructor
  · intro hsame
    refine ⟨(Vision_GetSegment_settled R hover S).mp fun junk junk' => ?_, fun hthird => ?_⟩
    · -- the feature points leave the segments as they are
      have hseg : ∀ junk, ∃ t b' S', Vision_GetSegment R .reads junk LorR b S =
          .ok ((band LorR).finalBroder b,
            { S with my_segment := t, segment_n := ((band LorR).finalCuts b).length + 1 }) ∧
          side_features R junk (fun _ => .zero) LorR b S = .ok (b', S') ∧ S'.my_segment = t := by
        intro junk
        obtain ⟨t, ht, -⟩ := Vision_GetSegment_eq R (o := .reads) (Or.inl rfl) hover junk S
        obtain ⟨b', S', hS'⟩ := side_features_ok R hover junk (fun _ => .zero) S
        refine ⟨t, b', S', ht, hS', ?_⟩
        rw [side_features, ht, ok_bind] at hS'
        exact (Vision_BroderFindFP_segments (Vision_GetSegment_segmented ht) hS').1
      obtain ⟨t₁, b₁, S₁, ht₁, hS₁, hseg₁⟩ := hseg junk
      obtain ⟨t₂, b₂, S₂, ht₂, hS₂, hseg₂⟩ := hseg junk'
      have hsides := hsame _ _ _ _ _ _ _ _ hS₁ hS₂
      rw [ht₁, ht₂, ← hseg₁, ← hseg₂, hsides]
    · -- one stack withdraws the corner, another one adds a second
      obtain ⟨t, ht, hj⟩ := Vision_GetSegment_eq R (o := .reads) (Or.inl rfl) hover
        (fun _ => .zero) S
      have hcmp := (comparesAverages_iff (S := { S with
        my_segment := t, segment_n := ((band LorR).finalCuts b).length + 1 }) hj).mpr hthird
      obtain ⟨jf, b₁, S₁, hS₁, hn₁⟩ := Vision_BroderFindFP_averages (R := R) (o := .reads)
        (b := (band LorR).finalBroder b) (Vision_GetSegment_segmented ht) hcmp
        (show -32768 ≤ (0 : ℤ) ∧ (0 : ℤ) < 32768 by omega)
      obtain ⟨jf', b₂, S₂, hS₂, hn₂⟩ := Vision_BroderFindFP_averages (R := R) (o := .reads)
        (b := (band LorR).finalBroder b) (Vision_GetSegment_segmented ht) hcmp
        (show -32768 ≤ (100 : ℤ) ∧ (100 : ℤ) < 32768 by omega)
      have hside : ∀ jf, side_features R (fun _ => .zero) jf LorR b S = Vision_BroderFindFP R
          .reads jf ((band LorR).finalBroder b) { S with
            my_segment := t, segment_n := ((band LorR).finalCuts b).length + 1 } := by
        intro jf
        rw [side_features, ht, ok_bind]
      have hsides := hsame _ _ _ _ _ _ _ _ ((hside jf).trans hS₁) ((hside jf').trans hS₂)
      rw [hsides, hn₂] at hn₁
      exact absurd hn₁ (by simp)
  · rintro ⟨hsegments, hthird⟩ jg jf jg' jf' b₁ S₁ b₂ S₂ h₁ h₂
    obtain ⟨t, ht, hj⟩ := Vision_GetSegment_eq R (o := .reads) (Or.inl rfl) hover jg S
    have hno := fun hcmp => hthird ((comparesAverages_iff (S := { S with
      my_segment := t, segment_n := ((band LorR).finalCuts b).length + 1 }) hj).mp hcmp)
    have ht' := ((Vision_GetSegment_settled R hover S).mpr hsegments jg' jg).trans ht
    rw [side_features, ht, ok_bind] at h₁
    rw [side_features, ht', ok_bind] at h₂
    dsimp only at h₁ h₂
    rw [Vision_BroderFindFP_congr (Vision_GetSegment_segmented ht) hno jf' jf] at h₂
    have hrun := h₁.symm.trans h₂
    cases hrun
    rfl

/-! ## Result -/

/-- A frame is its two sides, each with its own part of the stack. -/
theorem SymbolJudge_features_sides {junk : ℕ → ℕ → Uninit} {I I' : Image} {F F' : Feature}
    (hl : ¬ (band true).Overflows I.leftBroder) (hr : ¬ (band false).Overflows I.rightBroder) :
    SymbolJudge_features R .reads junk I F = .ok (I', F') ↔
      side_features R (junk 0) (junk 2) true I.leftBroder F.L = .ok (I'.leftBroder, F'.L) ∧
      side_features R (junk 1) (junk 3) false I.rightBroder F.R = .ok (I'.rightBroder, F'.R) := by
  obtain ⟨t, ht, -⟩ := Vision_GetSegment_eq R (o := .reads) (Or.inl rfl) hl (junk 0) F.L
  obtain ⟨t', ht', -⟩ := Vision_GetSegment_eq R (o := .reads) (Or.inl rfl) hr (junk 1) F.R
  obtain ⟨b, S, hS, -⟩ := Vision_BroderFindFP_ok (R := R) (o := .reads)
    (b := (band true).finalBroder I.leftBroder) (junk 2) (Vision_GetSegment_segmented ht)
  obtain ⟨b', S', hS', -⟩ := Vision_BroderFindFP_ok (R := R) (o := .reads)
    (b := (band false).finalBroder I.rightBroder) (junk 3) (Vision_GetSegment_segmented ht')
  simp only [SymbolJudge_features, side_features]
  rw [ht, ht', ok_bind, ok_bind]
  dsimp only
  rw [ok_bind, hS, ok_bind]
  dsimp only
  rw [ok_bind]
  dsimp only
  rw [hS', ok_bind]
  dsimp only
  constructor
  · intro h
    cases h
    exact ⟨rfl, rfl⟩
  · rintro ⟨h, h'⟩
    obtain ⟨rfl, rfl⟩ := Prod.mk.inj (Except.ok.inj h)
    obtain ⟨rfl, rfl⟩ := Prod.mk.inj (Except.ok.inj h')
    rfl

/-- Where both tables are long enough the frame has a record, whatever the stack holds. -/
theorem SymbolJudge_features_returns {I : Image} (hl : ¬ (band true).Overflows I.leftBroder)
    (hr : ¬ (band false).Overflows I.rightBroder) (junk : ℕ → ℕ → Uninit) (F : Feature) :
    ∃ I' F', SymbolJudge_features R .reads junk I F = .ok (I', F') := by
  obtain ⟨b, S, hS⟩ := side_features_ok R hl (junk 0) (junk 2) F.L
  obtain ⟨b', S', hS'⟩ := side_features_ok R hr (junk 1) (junk 3) F.R
  exact ⟨⟨b, b'⟩, ⟨S, S'⟩, (SymbolJudge_features_sides R hl hr).mpr ⟨hS, hS'⟩⟩

/-- **The record of a frame**, for borders whose segments fit into the table: both runs have one, and it
    is the same for every two stacks, exactly when both sides are settled.  A border with more
    segments is left out, as there the code writes behind the table. -/
theorem SymbolJudge_features_settled (I : Image) (F : Feature)
    (hl : ¬ (band true).Overflows I.leftBroder) (hr : ¬ (band false).Overflows I.rightBroder) :
    (∀ junk junk', ∃ I₁ I₂ F', SymbolJudge_features R .reads junk I F = .ok (I₁, F') ∧
      SymbolJudge_features R .reads junk' I F = .ok (I₂, F')) ↔
      SettledSide R true I.leftBroder ∧ SettledSide R false I.rightBroder := by
  have hleft := side_features_settled R hl F.L
  have hright := side_features_settled R hr F.R
  constructor
  · intro hsame
    -- two runs with the same record agree on either side of it
    have hrecord : ∀ junk junk' I₁ F₁ I₂ F₂, SymbolJudge_features R .reads junk I F = .ok (I₁, F₁) →
        SymbolJudge_features R .reads junk' I F = .ok (I₂, F₂) → F₁ = F₂ := by
      intro junk junk' I₁ F₁ I₂ F₂ h₁ h₂
      obtain ⟨I₃, I₄, F', h₃, h₄⟩ := hsame junk junk'
      cases h₁.symm.trans h₃
      cases h₂.symm.trans h₄
      rfl
    refine ⟨hleft.mp ?_, hright.mp ?_⟩
    · -- two runs of the left side, completed by one of the right side
      intro jg jf jg' jf' b₁ S₁ b₂ S₂ h₁ h₂
      obtain ⟨b, S, hS⟩ := side_features_ok R hr (fun _ => .zero) (fun _ => .zero) F.R
      let stack (jg jf : ℕ → Uninit) (k : ℕ) : ℕ → Uninit :=
        if k = 0 then jg else if k = 2 then jf else fun _ => .zero
      have hrun₁ : SymbolJudge_features R .reads (stack jg jf) I F = .ok (⟨b₁, b⟩, ⟨S₁, S⟩) :=
        (SymbolJudge_features_sides R hl hr).mpr ⟨h₁, hS⟩
      have hrun₂ : SymbolJudge_features R .reads (stack jg' jf') I F = .ok (⟨b₂, b⟩, ⟨S₂, S⟩) :=
        (SymbolJudge_features_sides R hl hr).mpr ⟨h₂, hS⟩
      exact congrArg Feature.L (hrecord _ _ _ _ _ _ hrun₁ hrun₂)
    · intro jg jf jg' jf' b₁ S₁ b₂ S₂ h₁ h₂
      obtain ⟨b, S, hS⟩ := side_features_ok R hl (fun _ => .zero) (fun _ => .zero) F.L
      let stack (jg jf : ℕ → Uninit) (k : ℕ) : ℕ → Uninit :=
        if k = 1 then jg else if k = 3 then jf else fun _ => .zero
      have hrun₁ : SymbolJudge_features R .reads (stack jg jf) I F = .ok (⟨b, b₁⟩, ⟨S, S₁⟩) :=
        (SymbolJudge_features_sides R hl hr).mpr ⟨hS, h₁⟩
      have hrun₂ : SymbolJudge_features R .reads (stack jg' jf') I F = .ok (⟨b, b₂⟩, ⟨S, S₂⟩) :=
        (SymbolJudge_features_sides R hl hr).mpr ⟨hS, h₂⟩
      exact congrArg Feature.R (hrecord _ _ _ _ _ _ hrun₁ hrun₂)
  · rintro ⟨hsl, hsr⟩ junk junk'
    obtain ⟨I₁, F₁, h₁⟩ := SymbolJudge_features_returns R hl hr junk F
    obtain ⟨I₂, F₂, h₂⟩ := SymbolJudge_features_returns R hl hr junk' F
    obtain ⟨hl₁, hr₁⟩ := (SymbolJudge_features_sides R hl hr).mp h₁
    obtain ⟨hl₂, hr₂⟩ := (SymbolJudge_features_sides R hl hr).mp h₂
    have hL := hleft.mpr hsl _ _ _ _ _ _ _ _ hl₁ hl₂
    have hR := hright.mpr hsr _ _ _ _ _ _ _ _ hr₁ hr₂
    obtain rfl : F₁ = F₂ := by
      cases F₁
      cases F₂
      exact congrArg₂ Feature.mk hL hR
    exact ⟨I₁, I₂, F₁, h₁, h₂⟩

end

/-- On the left a line, twenty lost rows and the line again; a line on the right. -/
def gapBorders : Image := ⟨fun i => if 30 ≤ i ∧ i ≤ 49 then 0 else 60, fun _ => 120⟩

theorem SymbolJudge_features_settled_fits :
    (¬ (band true).Overflows gapBorders.leftBroder ∧
      ¬ (band false).Overflows gapBorders.rightBroder) ∧
    ((∀ junk junk', ∃ I₁ I₂ F',
        SymbolJudge_features ℚ .reads junk gapBorders ⟨.cleared, .cleared⟩ = .ok (I₁, F') ∧
        SymbolJudge_features ℚ .reads junk' gapBorders ⟨.cleared, .cleared⟩ = .ok (I₂, F')) ↔
      SettledSide ℚ true gapBorders.leftBroder ∧ SettledSide ℚ false gapBorders.rightBroder) :=
  have hl : ¬ (band true).Overflows gapBorders.leftBroder := by decide +kernel
  have hr : ¬ (band false).Overflows gapBorders.rightBroder := by decide +kernel
  ⟨⟨hl, hr⟩, SymbolJudge_features_settled ℚ gapBorders ⟨.cleared, .cleared⟩ hl hr⟩

/-- A stack that holds 3000 where the first sum of a search starts. -/
def staleStack (_ i : ℕ) : Uninit := if i = 0 then ⟨fun _ => 0, 0, 3000⟩ else .zero

/-- From zeros the left border has two corners; from a sum of 3000 the first average is 150 columns
    too high, and it has none. -/
theorem SymbolJudge_features_settled_gap :
    ∃ I₁ F₁ I₂ F₂, SymbolJudge_features ℚ .reads (fun _ _ => .zero) gapBorders
        ⟨.cleared, .cleared⟩ = .ok (I₁, F₁) ∧
      SymbolJudge_features ℚ .reads staleStack gapBorders ⟨.cleared, .cleared⟩ = .ok (I₂, F₂) ∧
      F₁.L.FP_n = 2 ∧ F₂.L.FP_n = 0 ∧ F₁ ≠ F₂ := by
  have hzeros : (SymbolJudge_features ℚ .reads (fun _ _ => .zero) gapBorders
      ⟨.cleared, .cleared⟩).toOption.map (fun r => r.2.L.FP_n) = some 2 := by decide +kernel
  have hstale : (SymbolJudge_features ℚ .reads staleStack gapBorders
      ⟨.cleared, .cleared⟩).toOption.map (fun r => r.2.L.FP_n) = some 0 := by decide +kernel
  obtain ⟨r₁, h₁, hn₁⟩ := Outcome.exists_of_toOption hzeros
  obtain ⟨r₂, h₂, hn₂⟩ := Outcome.exists_of_toOption hstale
  refine ⟨r₁.1, r₁.2, r₂.1, r₂.2, h₁, h₂, hn₁, hn₂, fun heq => ?_⟩
  rw [← heq, hn₁] at hn₂
  exact absurd hn₂ (by omega)

end Car2025
