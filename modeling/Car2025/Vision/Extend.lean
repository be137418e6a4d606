/-
  The lines of `Vision_ExtendLine` and `Vision_set_AdditionalLine`, row by row, in exact arithmetic.

  1. **Columns** — a row on a line through two columns of the image, up to 69 rows on, is stored
     without overflow.

  2. **Extension (`Vision_ExtendLine_iff`)** — every row from the begin of the extension takes its
     place on the line, except the edge row of the image: the far loop stops before row 0 and the near
     one before row 69.

  3. **Connection (`Vision_set_AdditionalLine_connects`)** — the rows between two rows run from one
     column to the other.
-/
import Mathlib
import Car2025.Lib.Fill
import Car2025.Vision.Range

namespace Car2025

open Outcome

/-! ## Columns -/

/-- Clamping to the columns of the image. -/
def clampCol (v : ℤ) : ℤ := max 0 (min (imgCol - 1) v)

theorem clampCol_of_pixel {v : ℤ} (h0 : 0 ≤ v) (h1 : v ≤ 187) : clampCol v = v := by
  unfold clampCol imgCol
  omega

/-- The two clamping statements, after a row was written. -/
theorem clampRow_update {o : Outside} {i : ℤ} (h : o.Allows i) (b : Broder) (v : ℤ) :
    clampRow o (Function.update b i v) i = .ok (Function.update b i (clampCol v)) := by
  rw [clampRow, rd_of_allows h, ok_bind, wr_of_allows h, ok_bind, rd_of_allows h, ok_bind,
    wr_of_allows h, Function.update_idem, Function.update_idem, Function.update_self,
    Function.update_self]
  congr 2
  unfold clampCol imgCol
  split <;> split <;> omega

/-- Row `r` of the line through column `c` at row `seed`, truncated. -/
def lineCol (c seed : ℤ) (slope : ℚ) (r : ℤ) : ℤ :=
  CFloat.toInt ((c : ℚ) + ((r - seed : ℤ) : ℚ) * slope)

/-- **No overflow**: a line that crosses at most 187 columns a row, on 69 rows.  That is 12903
    columns from the seed at most, which 16 bits can hold. -/
theorem lineRow_eq_lineCol {c seed r : ℤ} {slope : ℚ} (hc : |c| ≤ 187) (hslope : |slope| ≤ 187)
    (hr : |r - seed| ≤ 69) : lineRow c seed slope r = lineCol c seed slope r := by
  have hc' : |(c : ℚ)| ≤ 187 := by exact_mod_cast hc
  have hr' : |((r - seed : ℤ) : ℚ)| ≤ 69 := by exact_mod_cast hr
  have hmul : |((r - seed : ℤ) : ℚ) * slope| ≤ 69 * 187 := by
    rw [abs_mul]
    exact mul_le_mul hr' hslope (abs_nonneg slope) (by norm_num)
  have hline : |(c : ℚ) + ((r - seed : ℤ) : ℚ) * slope| ≤ (13090 : ℕ) := by
    apply (abs_add_le _ _).trans
    have h := add_le_add hc' hmul
    norm_num at h ⊢
    exact h
  have hstored := CFloat.natAbs_toInt_le hline
  apply int16_of_small <;> omega

/-- The quotient of two columns' difference and the number of rows between them. -/
theorem abs_slope_le {y z n : ℤ} (hy : 0 ≤ y ∧ y ≤ 187) (hz : 0 ≤ z ∧ z ≤ 187) (hn : n ≠ 0) :
    |((y - z : ℤ) : ℚ) / (n : ℚ)| ≤ 187 := by
  have hdiff : |((y - z : ℤ) : ℚ)| ≤ 187 := by
    have h : |y - z| ≤ 187 := abs_le.mpr ⟨by omega, by omega⟩
    exact_mod_cast h
  have hrows : (1 : ℚ) ≤ |(n : ℚ)| := by exact_mod_cast Int.one_le_abs hn
  rw [abs_div]
  exact (div_le_self (abs_nonneg _) hrows).trans hdiff

/-! ## Extension -/

section

variable {o : Outside} {x : ℤ} {this_K : ℚ}

/-- **Far loop**: the rows it passes take their places on the line.  It reads the seed row in every
    pass, and never writes it. -/
theorem Vision_ExtendLine_far_eq (hx : o.Allows x) : ∀ (n : ℕ) (i : ℤ) (b : Broder), i < x →
    (∀ j, i - n < j → j ≤ i → o.Allows j) →
      Vision_ExtendLine_far o x this_K n i b =
        .ok (Fill.down (fun r => clampCol (lineRow (b x) x this_K r)) b i n) := by
  intro n
  induction n with
  | zero =>
    intro i b _ _
    rw [Fill.down_zero]
    rfl
  | succ n ih =>
    intro i b hi hrows
    have hcol : (CFloat.ofInt (b x) - this_K * CFloat.ofInt (x - i) : ℚ) =
        (b x : ℚ) + ((i - x : ℤ) : ℚ) * this_K := by
      rw [CFloat.ofInt_rat, CFloat.ofInt_rat]
      push_cast
      ring
    rw [Vision_ExtendLine_far, rd_of_allows hx, ok_bind, hcol,
      wr_of_allows (hrows i (by push_cast; omega) (le_refl i)), ok_bind,
      clampRow_update (hrows i (by push_cast; omega) (le_refl i)), ok_bind]
    show Vision_ExtendLine_far o x this_K n (i - 1)
      (Function.update b i (clampCol (lineRow (b x) x this_K i))) = _
    rw [ih (i - 1) _ (by omega) fun j h1 h2 => hrows j (by push_cast; omega) (by omega),
      Function.update_of_ne (by omega : x ≠ i)]
    exact congrArg Except.ok (Fill.down_succ (fun r => clampCol (lineRow (b x) x this_K r)) b i n)

/-- **Near loop**: its first pass writes row `x` itself, with the column that it has, so the later
    passes still read the same seed. -/
theorem Vision_ExtendLine_near_eq (hx : o.Allows x) : ∀ (n : ℕ) (i : ℤ) (b : Broder), 0 ≤ i →
    (0 ≤ b x ∧ b x ≤ 187) → (∀ j, x + i ≤ j → j < x + i + n → o.Allows j) →
      Vision_ExtendLine_near o x this_K n i b =
        .ok (Fill.up (fun r => clampCol (lineRow (b x) x this_K r)) b (x + i) n) := by
  intro n
  induction n with
  | zero =>
    intro i b _ _ _
    rw [Fill.up_zero]
    rfl
  | succ n ih =>
    intro i b hi hb hrows
    have hcol : (CFloat.ofInt (b x) + this_K * CFloat.ofInt i : ℚ) =
        (b x : ℚ) + ((x + i - x : ℤ) : ℚ) * this_K := by
      rw [CFloat.ofInt_rat, CFloat.ofInt_rat]
      push_cast
      ring
    rw [Vision_ExtendLine_near, rd_of_allows hx, ok_bind, hcol,
      wr_of_allows (hrows (x + i) (le_refl _) (by push_cast; omega)), ok_bind,
      clampRow_update (hrows (x + i) (le_refl _) (by push_cast; omega)), ok_bind]
    show Vision_ExtendLine_near o x this_K n (i + 1)
      (Function.update b (x + i) (clampCol (lineRow (b x) x this_K (x + i)))) = _
    -- The seed row survives its own rewriting, as its column is a pixel already.
    have hkeep : Function.update b (x + i) (clampCol (lineRow (b x) x this_K (x + i))) x = b x := by
      by_cases h0 : x = x + i
      · rw [← h0, Function.update_self, lineRow_seed, int16_of_small (by omega) (by omega),
          clampCol_of_pixel hb.1 hb.2]
      · rw [Function.update_of_ne h0]
    rw [ih (i + 1) _ (by omega) (by rw [hkeep]; exact hb)
      fun j h1 h2 => hrows j (by omega) (by push_cast; omega), hkeep, ← add_assoc]
    exact congrArg Except.ok (Fill.up_succ (fun r => clampCol (lineRow (b x) x this_K r)) b (x + i) n)

end

/-- The slope of the up to five rows behind row `x`, seen in the direction of the extension. -/
def slopeBehind (b : Broder) (x : ℤ) (direction : Bool) : ℚ :=
  if direction then ((b (min (x + 5) 69) - b x : ℤ) : ℚ) / ((min (x + 5) 69 - x : ℤ) : ℚ)
  else ((b x - b (max (x - 5) 0) : ℤ) : ℚ) / ((x - max (x - 5) 0 : ℤ) : ℚ)

/-- The line of the extension, truncated and clamped. -/
def extension (b : Broder) (x : ℤ) (direction : Bool) (r : ℤ) : ℤ :=
  clampCol (lineCol (b x) x (slopeBehind b x direction) r)

/-- The rows from `x` to the edge of the image, in the direction of the extension. -/
def Ahead (x : ℤ) : Bool → ℤ → Prop
  | true, r => 0 ≤ r ∧ r ≤ x
  | false, r => x ≤ r ∧ r ≤ 69

/-- The rows on the other side of `x`. -/
def Behind (x : ℤ) : Bool → ℤ → Prop
  | true, r => x < r
  | false, r => r < x

/-- The row at the edge. -/
def edgeRow (direction : Bool) : ℤ := if direction then 0 else 69

/-- **An extension to the edge**: the rows behind are kept, and those ahead lie on the line, up to
    the last row of the image. -/
structure Extends (b b' : Broder) (x : ℤ) (direction : Bool) : Prop where
  behind : ∀ r, Behind x direction r → b' r = b r
  ahead : ∀ r, Ahead x direction r → b' r = extension b x direction r

section

variable {o : Outside} {b : Broder} {x : ℤ}

theorem abs_slopeBehind_le (hb : Pixels b) (h1 : 1 ≤ x) (h68 : x ≤ 68) (direction : Bool) :
    |slopeBehind b x direction| ≤ 187 := by
  have hx := hb x (by omega) (by omega)
  cases direction with
  | true => exact abs_slope_le (hb _ (by omega) (by omega)) hx (by omega)
  | false => exact abs_slope_le hx (hb _ (by omega) (by omega)) (by omega)

/-- The extension starts at row `x`. -/
theorem extension_self (hb : Pixels b) (h0 : 0 ≤ x) (h69 : x ≤ 69) (direction : Bool) :
    extension b x direction x = b x := by
  obtain ⟨hx0, hx187⟩ := hb x h0 h69
  rw [extension, lineCol, sub_self, Int.cast_zero, zero_mul, add_zero, CFloat.toInt_intCast,
    clampCol_of_pixel hx0 hx187]

theorem lineRow_extension (hb : Pixels b) (h1 : 1 ≤ x) (h68 : x ≤ 68) (direction : Bool) {r : ℤ}
    (hr0 : 0 ≤ r) (hr69 : r ≤ 69) :
    clampCol (lineRow (b x) x (slopeBehind b x direction) r) = extension b x direction r := by
  have hx := hb x (by omega) (by omega)
  rw [extension, lineRow_eq_lineCol (abs_le.mpr ⟨by omega, by omega⟩)
    (abs_slopeBehind_le hb h1 h68 direction) (abs_le.mpr ⟨by omega, by omega⟩)]

theorem Vision_ExtendLine_far_side (o : Outside) (hb : Pixels b) (h1 : 1 ≤ x) (h68 : x ≤ 68) :
    Vision_ExtendLine ℚ o b x true =
      .ok fun r => if 0 < r ∧ r < x then extension b x true r else b r := by
  have hx := o.allows_of_rows (by omega : 0 ≤ x) (by omega)
  have hloop : Vision_ExtendLine_far o x (slopeBehind b x true) (x - 1).toNat (x - 1) b =
      .ok fun r => if 0 < r ∧ r < x then extension b x true r else b r := by
    rw [Vision_ExtendLine_far_eq hx _ _ _ (by omega)
      fun j h1 h2 => o.allows_of_rows (by omega) (by omega)]
    congr 1
    funext r
    rw [Fill.down]
    by_cases hr : 0 < r ∧ r < x
    · rw [if_pos hr, if_pos (by omega), lineRow_extension hb h1 h68 true (by omega) (by omega)]
    · rw [if_neg hr, if_neg (by omega)]
  rw [Vision_ExtendLine, if_pos rfl]
  by_cases h5 : x + 5 ≤ imgRow - 1
  · have h5' : x + 5 ≤ 69 := by simpa [imgRow] using h5
    rw [if_pos h5, rd_of_allows (o.allows_of_rows (by omega) h5'), ok_bind, rd_of_allows hx, ok_bind,
      fdiv_of_ne (by decide), ok_bind]
    rw [slopeBehind, if_pos rfl, min_eq_left h5', add_sub_cancel_left] at hloop
    exact hloop
  · have h5' : 69 ≤ x + 5 := by unfold imgRow at h5; omega
    rw [if_neg h5, rd_of_allows (o.allows_of_rows (by decide) (by decide)), ok_bind, rd_of_allows hx,
      ok_bind, fdiv_of_ne (by unfold imgRow; omega), ok_bind]
    rw [slopeBehind, if_pos rfl, min_eq_right h5'] at hloop
    exact hloop

theorem Vision_ExtendLine_near_side (o : Outside) (hb : Pixels b) (h1 : 1 ≤ x) (h68 : x ≤ 68) :
    Vision_ExtendLine ℚ o b x false =
      .ok fun r => if x ≤ r ∧ r < 69 then extension b x false r else b r := by
  have hx := o.allows_of_rows (by omega : 0 ≤ x) (by omega)
  have hloop : Vision_ExtendLine_near o x (slopeBehind b x false) (imgRow - 1 - x).toNat 0 b =
      .ok fun r => if x ≤ r ∧ r < 69 then extension b x false r else b r := by
    rw [Vision_ExtendLine_near_eq hx _ _ _ (le_refl 0) (hb x (by omega) (by omega))
      fun j h1 h2 => o.allows_of_rows (by omega) (by unfold imgRow at h2; omega)]
    congr 1
    funext r
    rw [Fill.up]
    by_cases hr : x ≤ r ∧ r < 69
    · rw [if_pos hr, if_pos (by unfold imgRow; omega),
        lineRow_extension hb h1 h68 false (by omega) (by omega)]
    · rw [if_neg hr, if_neg (by unfold imgRow; omega)]
  rw [Vision_ExtendLine, if_neg Bool.false_ne_true]
  by_cases h5 : x - 5 ≥ 0
  · rw [if_pos h5, rd_of_allows hx, ok_bind, rd_of_allows (o.allows_of_rows h5 (by omega)), ok_bind,
      fdiv_of_ne (by decide), ok_bind]
    rw [slopeBehind, if_neg Bool.false_ne_true, max_eq_left h5, sub_sub_cancel] at hloop
    exact hloop
  · rw [if_neg h5, rd_of_allows hx, ok_bind, rd_of_allows (o.allows_of_rows (le_refl 0) (by decide)),
      ok_bind, fdiv_of_ne (by omega), ok_bind]
    rw [slopeBehind, if_neg Bool.false_ne_true, max_eq_right (by omega), sub_zero] at hloop
    exact hloop

/-- **Extension, row by row**: the rows ahead are drawn, except the one at the edge, where both
    loops stop one row too soon. -/
theorem Vision_ExtendLine_rows (o : Outside) (hb : Pixels b) (h1 : 1 ≤ x) (h68 : x ≤ 68)
    (direction : Bool) :
    ∃ b', Vision_ExtendLine ℚ o b x direction = .ok b' ∧
      (∀ r, Ahead x direction r → r ≠ edgeRow direction → b' r = extension b x direction r) ∧
      b' (edgeRow direction) = b (edgeRow direction) ∧ ∀ r, Behind x direction r → b' r = b r := by
  cases direction with
  | true =>
    refine ⟨_, Vision_ExtendLine_far_side o hb h1 h68, ?_, if_neg fun h => lt_irrefl _ h.1, ?_⟩
    · rintro r ⟨h0, hrx⟩ hedge
      have hpos : 0 < r := lt_of_le_of_ne h0 (Ne.symm hedge)
      rcases hrx.lt_or_eq with hlt | rfl
      · exact if_pos ⟨hpos, hlt⟩
      · rw [if_neg fun h => lt_irrefl _ h.2, extension_self hb (by omega) (by omega)]
    · intro r hr
      exact if_neg fun h => lt_asymm hr h.2
  | false =>
    refine ⟨_, Vision_ExtendLine_near_side o hb h1 h68, ?_, if_neg fun h => lt_irrefl _ h.2, ?_⟩
    · rintro r ⟨hxr, h69⟩ hedge
      exact if_pos ⟨hxr, lt_of_le_of_ne h69 hedge⟩
    · intro r hr
      exact if_neg fun h => not_le.mpr hr h.1

/-- **Extension** — the line reaches the edge of the image exactly when the edge row, which is not
    drawn, already lies on it. -/
theorem Vision_ExtendLine_iff (o : Outside) {b : Broder} (hb : Pixels b) {x : ℤ} (h1 : 1 ≤ x)
    (h68 : x ≤ 68) (direction : Bool) :
    (∃ b', Vision_ExtendLine ℚ o b x direction = .ok b' ∧ Extends b b' x direction) ↔
      b (edgeRow direction) = extension b x direction (edgeRow direction) := by
  obtain ⟨b', hb', hdrawn, hedge, hbehind⟩ := Vision_ExtendLine_rows o hb h1 h68 direction
  constructor
  · rintro ⟨b'', hb'', hext⟩
    obtain rfl : b' = b'' := Except.ok.inj (hb'.symm.trans hb'')
    rw [← hedge]
    apply hext.ahead
    cases direction with
    | true => exact ⟨le_refl 0, by show 0 ≤ x; omega⟩
    | false => exact ⟨by show x ≤ 69; omega, le_refl 69⟩
  · intro hline
    refine ⟨b', hb', hbehind, fun r hr => ?_⟩
    by_cases hr' : r = edgeRow direction
    · rw [hr', hedge, hline]
    · exact hdrawn r hr hr'

end

/-- A border along the diagonal. -/
def diagonal : Broder := fun r => r

/-- Its far extension from row 10. -/
theorem Vision_ExtendLine_diagonal :
    ∃ b', Vision_ExtendLine ℚ .traps diagonal 10 true = .ok b' ∧ Extends diagonal b' 10 true :=
  (Vision_ExtendLine_iff .traps (fun r h0 h69 => ⟨h0, by show r ≤ 187; omega⟩) (by decide) (by decide)
    true).mpr (by decide +kernel)

/-- A border along column 60 that is lost in the farthest row. -/
def lostAtEdge : Broder := fun r => if r = 0 then 0 else 60

/-- The far extension leaves that row lost. -/
theorem Vision_ExtendLine_lostAtEdge :
    Pixels lostAtEdge ∧
      ¬ ∃ b', Vision_ExtendLine ℚ .traps lostAtEdge 10 true = .ok b' ∧
        Extends lostAtEdge b' 10 true := by
  have hb : Pixels lostAtEdge := by
    intro r _ _
    unfold lostAtEdge
    split <;> decide
  refine ⟨hb, fun ⟨b', hb', hext⟩ => ?_⟩
  rw [Vision_ExtendLine_far_side .traps hb (by decide) (by decide)] at hb'
  obtain rfl := Except.ok.inj hb'
  have hedge : (0 : ℤ) = extension lostAtEdge 10 true 0 := hext.ahead 0 ⟨le_refl 0, by decide⟩
  exact absurd hedge (by decide +kernel)

/-! ## Connection -/

/-- The line between rows `p` and `q` of a border, truncated. -/
def connection (b : Broder) (p q : ℤ) (r : ℤ) : ℤ :=
  lineCol (b p) p (((b q - b p : ℤ) : ℚ) / ((q - p : ℤ) : ℚ)) r

/-- **A connection of two rows**: only rows between them change, and these go from the one column to
    the other without turning. -/
structure Connects (b b' : Broder) (p q : ℤ) : Prop where
  outside : ∀ r, r < p ∨ q < r → b' r = b r
  ends : b' p = b p ∧ b' q = b q
  monotone : (b p ≤ b q ∧ MonotoneOn b' (Set.Icc p q)) ∨ (b q ≤ b p ∧ AntitoneOn b' (Set.Icc p q))
  between : ∀ r, p ≤ r → r ≤ q → min (b p) (b q) ≤ b' r ∧ b' r ≤ max (b p) (b q)

section

variable {o : Outside} {b : Broder} {p q : ℤ}

theorem connection_left (b : Broder) (p q : ℤ) : connection b p q p = b p := by
  rw [connection, lineCol, sub_self, Int.cast_zero, zero_mul, add_zero, CFloat.toInt_intCast]

theorem connection_right (b : Broder) (hpq : p < q) : connection b p q q = b q := by
  have hrows : ((q - p : ℤ) : ℚ) ≠ 0 := by exact_mod_cast (sub_pos.mpr hpq).ne'
  rw [connection, lineCol, mul_div_cancel₀ _ hrows, ← Int.cast_add, CFloat.toInt_intCast]
  omega

theorem lineCol_mono {c seed : ℤ} {slope : ℚ} (h : 0 ≤ slope) : Monotone (lineCol c seed slope) := by
  intro r s hrs
  apply CFloat.toInt_mono
  have hcast : ((r - seed : ℤ) : ℚ) ≤ ((s - seed : ℤ) : ℚ) := by exact_mod_cast (by omega : r - seed ≤ s - seed)
  exact add_le_add_right (mul_le_mul_of_nonneg_right hcast h) _

theorem lineCol_anti {c seed : ℤ} {slope : ℚ} (h : slope ≤ 0) : Antitone (lineCol c seed slope) := by
  intro r s hrs
  apply CFloat.toInt_mono
  have hcast : ((r - seed : ℤ) : ℚ) ≤ ((s - seed : ℤ) : ℚ) := by exact_mod_cast (by omega : r - seed ≤ s - seed)
  exact add_le_add_right (mul_le_mul_of_nonpos_right hcast h) _

theorem connection_mono (hpq : p < q) (h : b p ≤ b q) : Monotone (connection b p q) := by
  apply lineCol_mono
  apply div_nonneg
  · exact_mod_cast sub_nonneg.mpr h
  · exact_mod_cast (sub_pos.mpr hpq).le

theorem connection_anti (hpq : p < q) (h : b q ≤ b p) : Antitone (connection b p q) := by
  apply lineCol_anti
  apply div_nonpos_of_nonpos_of_nonneg
  · exact_mod_cast sub_nonpos.mpr h
  · exact_mod_cast (sub_pos.mpr hpq).le

/-- A border that holds the line between two rows connects them. -/
theorem connects_of_connection {b' : Broder} (hpq : p < q)
    (hin : ∀ r, p ≤ r → r ≤ q → b' r = connection b p q r)
    (hout : ∀ r, r < p ∨ q < r → b' r = b r) : Connects b b' p q := by
  have hp := connection_left b p q
  have hq := connection_right b hpq
  refine ⟨hout, ⟨?_, ?_⟩, ?_, fun r hpr hrq => ?_⟩
  · rw [hin p (le_refl p) hpq.le, hp]
  · rw [hin q hpq.le (le_refl q), hq]
  · rcases le_total (b p) (b q) with h | h
    · refine Or.inl ⟨h, fun r hr s hs hrs => ?_⟩
      rw [hin r hr.1 hr.2, hin s hs.1 hs.2]
      exact connection_mono hpq h hrs
    · refine Or.inr ⟨h, fun r hr s hs hrs => ?_⟩
      rw [hin r hr.1 hr.2, hin s hs.1 hs.2]
      exact connection_anti hpq h hrs
  · rw [hin r hpr hrq]
    rcases le_total (b p) (b q) with h | h
    · have h1 := connection_mono hpq h hpr
      have h2 := connection_mono hpq h hrq
      rw [min_eq_left h, max_eq_right h]
      omega
    · have h1 := connection_anti hpq h hpr
      have h2 := connection_anti hpq h hrq
      rw [min_eq_right h, max_eq_left h]
      omega

/-- **The loop** reads row `pmin` after it has written it, with the column it had: at the seed the
    line passes through its column, so the write changes nothing. -/
theorem Vision_set_AdditionalLine_loop_eq {slope : ℚ} : ∀ (n : ℕ) (i : ℤ) (b : Broder), p ≤ i →
    0 ≤ b p ∧ b p ≤ 187 → o.Allows p → (∀ j, i ≤ j → j < i + n → o.Allows j) →
      Vision_set_AdditionalLine_loop o p slope n i b =
        .ok (Fill.up (lineRow (b p) p slope) b i n) := by
  intro n
  induction n with
  | zero =>
    intro i b _ _ _ _
    rw [Fill.up_zero]
    rfl
  | succ n ih =>
    intro i b hi hb hp hrows
    have hcol : (CFloat.ofInt (i - p) * slope + CFloat.ofInt (b p) : ℚ) =
        (b p : ℚ) + ((i - p : ℤ) : ℚ) * slope := add_comm _ _
    rw [Vision_set_AdditionalLine_loop, rd_of_allows hp, ok_bind, hcol,
      wr_of_allows (hrows i (le_refl i) (by push_cast; omega)), ok_bind]
    show Vision_set_AdditionalLine_loop o p slope n (i + 1)
      (Function.update b i (lineRow (b p) p slope i)) = _
    have hkeep : Function.update b i (lineRow (b p) p slope i) p = b p := by
      by_cases hpi : p = i
      · rw [← hpi, Function.update_self, lineRow_seed, int16_of_small (by omega) (by omega)]
      · rw [Function.update_of_ne hpi]
    rw [ih (i + 1) _ (by omega) (by rw [hkeep]; exact hb) hp
      fun j h1 h2 => hrows j (by omega) (by push_cast; omega), hkeep]
    exact congrArg Except.ok (Fill.up_succ (lineRow (b p) p slope) b i n)

/-- The whole loop, with the slope of its two ends. -/
theorem Vision_set_AdditionalLine_loop_connection (hb : Pixels b) (h0 : 0 ≤ p) (hpq : p < q)
    (h69 : q ≤ 69) :
    Vision_set_AdditionalLine_loop o p (((b q - b p : ℤ) : ℚ) / ((q - p : ℤ) : ℚ)) (q - p + 1).toNat
      p b = .ok fun r => if p ≤ r ∧ r ≤ q then connection b p q r else b r := by
  have hp := hb p h0 (by omega)
  have hq := hb q (by omega) h69
  rw [Vision_set_AdditionalLine_loop_eq _ _ _ (le_refl p) hp (o.allows_of_rows h0 (by omega))
    fun j h1 h2 => o.allows_of_rows (by omega) (by omega)]
  congr 1
  funext r
  rw [Fill.up]
  by_cases hr : p ≤ r ∧ r ≤ q
  · rw [if_pos hr, if_pos (by omega), lineRow_eq_lineCol (abs_le.mpr ⟨by omega, by omega⟩)
      (abs_slope_le hq hp (by omega)) (abs_le.mpr ⟨by omega, by omega⟩)]
    rfl
  · rw [if_neg hr, if_neg (by omega)]

end

/-- **Connection** of any two rows, whichever comes first: the code orders them before it takes the
    slope. -/
theorem Vision_set_AdditionalLine_connects (o : Outside) {b : Broder} (hb : Pixels b) {p1 p2 : ℤ}
    (h1 : InRows p1) (h2 : InRows p2) (hne : p1 ≠ p2) :
    ∃ b', Vision_set_AdditionalLine ℚ o p1 p2 b = .ok b' ∧
      Connects b b' (min p1 p2) (max p1 p2) := by
  rw [inRows_iff] at h1 h2
  rw [Vision_set_AdditionalLine, rd_of_allows (o.allows_of_rows h1.1 h1.2), ok_bind,
    rd_of_allows (o.allows_of_rows h2.1 h2.2), ok_bind, Point_CalSlope, fdiv_of_ne (sub_ne_zero.mpr hne),
    ok_bind]
  rcases lt_or_gt_of_ne hne with hlt | hgt
  · have hslope : (CFloat.ofInt (b p1 - b p2) / CFloat.ofInt (p1 - p2) : ℚ) =
        ((b p2 - b p1 : ℤ) : ℚ) / ((p2 - p1 : ℤ) : ℚ) := by
      rw [CFloat.ofInt_rat, CFloat.ofInt_rat, ← neg_div_neg_eq, ← Int.cast_neg, ← Int.cast_neg,
        neg_sub, neg_sub]
    rw [min_eq_left hlt.le, max_eq_right hlt.le, hslope]
    simp only [if_neg (not_lt.mpr hlt.le)]
    exact ⟨_, Vision_set_AdditionalLine_loop_connection hb h1.1 hlt h2.2,
      connects_of_connection hlt (fun r hp hq => if_pos ⟨hp, hq⟩) fun r hr => if_neg (by omega)⟩
  · rw [min_eq_right hgt.le, max_eq_left hgt.le]
    simp only [if_pos hgt]
    exact ⟨_, Vision_set_AdditionalLine_loop_connection hb h2.1 hgt h1.2,
      connects_of_connection hgt (fun r hp hq => if_pos ⟨hp, hq⟩) fun r hr => if_neg (by omega)⟩

/-- Rows 40 and 12 of the diagonal. -/
theorem Vision_set_AdditionalLine_diagonal :
    ∃ b', Vision_set_AdditionalLine ℚ .traps 40 12 diagonal = .ok b' ∧
      Connects diagonal b' (min 40 12) (max 40 12) :=
  Vision_set_AdditionalLine_connects .traps (fun r h0 h69 => ⟨h0, by show r ≤ 187; omega⟩)
    (by decide) (by decide) (by decide)

end Car2025
