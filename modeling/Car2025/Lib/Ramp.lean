/-
  Ramps: a value that is moved to a target in a given number of equal steps, by a loop that tests for
  the target after each of them.

  1. **Loop (`moveUntil`)** — `while(1) { move; if(stop) return; }`, with the states after its passes.
     It returns with the first pass after which the test holds.

  2. **Step (`approach`)** — a step is made if it is not longer than the distance to the target, else
     the target is taken.  The step has a sign and the distance has none: a step down is always made.

  3. **Ramp** — up to the last of the steps it makes no difference, and the last one ends on the target.
-/
import Mathlib

namespace Ramp

/-! ## Loop -/

section

variable {S : Type}

/-- The states after the passes of the loop, or nothing where `fuel` passes are not enough. -/
def moveUntil (move : S → S) (stop : S → Bool) : ℕ → S → Option (List S)
  | 0, _ => none
  | fuel + 1, s =>
    if stop (move s) then some [move s]
    else (moveUntil move stop fuel (move s)).map (move s :: ·)

/-- The states after the first `n` passes. -/
def passes (move : S → S) (s : S) (n : ℕ) : List S := (List.range n).map fun k => move^[k + 1] s

variable {move : S → S} {stop : S → Bool}

theorem passes_cons (move : S → S) (s : S) (n : ℕ) :
    passes move s (n + 1) = move s :: passes move (move s) n := by
  rw [passes, passes, List.range_succ_eq_map, List.map_cons, List.map_map]
  rfl

/-- **Loop rule**, by induction on the fuel: a result is the passes up to the first one after which
    the test holds, and there is one if it comes before the fuel is used up. -/
theorem moveUntil_eq_some_iff {fuel : ℕ} {s : S} {states : List S} :
    moveUntil move stop fuel s = some states ↔
      ∃ n < fuel, stop (move^[n + 1] s) = true ∧ (∀ k < n, stop (move^[k + 1] s) = false) ∧
        states = passes move s (n + 1) := by
  induction fuel generalizing s states with
  | zero => simp [moveUntil]
  | succ fuel ih =>
    rw [moveUntil]
    by_cases hstop : stop (move s) = true
    · rw [if_pos hstop]
      constructor
      · intro h
        obtain rfl := Option.some.inj h
        exact ⟨0, by omega, hstop, fun k hk => absurd hk (by omega), rfl⟩
      · rintro ⟨n, -, -, hbefore, rfl⟩
        cases n with
        | zero => rfl
        | succ n =>
          have h0 : stop (move s) = false := hbefore 0 (by omega)
          rw [h0] at hstop
          cases hstop
    · rw [if_neg hstop]
      rw [Bool.not_eq_true] at hstop
      constructor
      · intro h
        -- one pass, and the loop from where it has come to
        obtain ⟨rest, hrest, rfl⟩ := Option.map_eq_some_iff.mp h
        obtain ⟨n, hn, hend, hbefore, rfl⟩ := ih.mp hrest
        refine ⟨n + 1, by omega, hend, fun k hk => ?_, (passes_cons move s (n + 1)).symm⟩
        cases k with
        | zero => exact hstop
        | succ k => exact hbefore k (by omega)
      · rintro ⟨n, hn, hend, hbefore, rfl⟩
        cases n with
        | zero =>
          rw [Function.iterate_one] at hend
          rw [hend] at hstop
          cases hstop
        | succ n =>
          have hrest : moveUntil move stop fuel (move s) = some (passes move (move s) (n + 1)) :=
            ih.mpr ⟨n, by omega, hend, fun k hk => hbefore (k + 1) (by omega), rfl⟩
          rw [hrest, passes_cons move s (n + 1)]
          rfl

/-- More fuel does not change what is returned. -/
theorem moveUntil_unique {fuel fuel' : ℕ} {s : S} {states states' : List S}
    (h : moveUntil move stop fuel s = some states)
    (h' : moveUntil move stop fuel' s = some states') : states = states' := by
  obtain ⟨n, -, hend, hbefore, rfl⟩ := moveUntil_eq_some_iff.mp h
  obtain ⟨n', -, hend', hbefore', rfl⟩ := moveUntil_eq_some_iff.mp h'
  rcases Nat.lt_trichotomy n n' with hlt | rfl | hgt
  · rw [hbefore' n hlt] at hend
    cases hend
  · rfl
  · rw [hbefore n' hgt] at hend'
    cases hend'

/-- **Termination**: a pass after which the test holds is enough, as the loop ends there if it has
    not before. -/
theorem moveUntil_returns {s : S} {c fuel : ℕ} (hc : 0 < c) (hstop : stop (move^[c] s) = true)
    (hfuel : c ≤ fuel) :
    ∃ n < c, stop (move^[n + 1] s) = true ∧ (∀ k < n, stop (move^[k + 1] s) = false) ∧
      moveUntil move stop fuel s = some (passes move s (n + 1)) := by
  have hex : ∃ n, stop (move^[n + 1] s) = true := ⟨c - 1, by rwa [Nat.sub_add_cancel hc]⟩
  have hfirst : Nat.find hex ≤ c - 1 := Nat.find_le (by rwa [Nat.sub_add_cancel hc])
  have hbefore : ∀ k < Nat.find hex, stop (move^[k + 1] s) = false := fun k hk =>
    (Bool.not_eq_true _).mp (Nat.find_min hex hk)
  exact ⟨Nat.find hex, by omega, Nat.find_spec hex, hbefore,
    moveUntil_eq_some_iff.mpr ⟨Nat.find hex, by omega, Nat.find_spec hex, hbefore, rfl⟩⟩

end

/-! ## Step -/

section

variable {α : Type} [Field α] [LinearOrder α]

/-- One step, or the target. -/
def approach (target step x : α) : α := if |x - target| < step then target else x + step

/-- The value after `k` of `c` equal steps from `start` to `target`. -/
def ramp (start target : α) (c k : ℕ) : α := start + k * ((target - start) / c)

variable [IsStrictOrderedRing α] {start target : α} {c k : ℕ}

/-! ## Ramp -/

theorem ramp_sub (start target : α) (hc : 0 < c) (k : ℕ) :
    ramp start target c k - target = -(((c : α) - k) * ((target - start) / c)) := by
  have hne : (c : α) ≠ 0 := Nat.cast_ne_zero.mpr hc.ne'
  rw [ramp]
  field_simp
  ring

theorem ramp_last (start target : α) (hc : 0 < c) : ramp start target c c = target := by
  have h := ramp_sub start target hc c
  rw [sub_self, zero_mul, neg_zero] at h
  exact sub_eq_zero.mp h

/-- The distance that is left. -/
theorem abs_ramp_sub (start target : α) (hc : 0 < c) (hk : k ≤ c) :
    |ramp start target c k - target| = ((c : α) - k) * (|target - start| / c) := by
  have hleft : (0 : α) ≤ (c : α) - k := sub_nonneg.mpr (Nat.cast_le.mpr hk)
  rw [ramp_sub start target hc, abs_neg, abs_mul, abs_of_nonneg hleft, abs_div, Nat.abs_cast]

/-- **A step along the ramp**: before the last step there is at least one step to go, so it is not
    cut off. -/
theorem approach_ramp (start target : α) (hk : k < c) :
    approach target ((target - start) / c) (ramp start target c k) = ramp start target c (k + 1) := by
  have hlong : ¬ |ramp start target c k - target| < (target - start) / c := by
    rw [not_lt, abs_ramp_sub start target (by omega) hk.le]
    have hone : (1 : α) ≤ (c : α) - k := by
      rw [le_sub_iff_add_le, add_comm]
      exact_mod_cast hk
    calc (target - start) / c ≤ |target - start| / c := by gcongr; exact le_abs_self _
      _ = 1 * (|target - start| / c) := (one_mul _).symm
      _ ≤ ((c : α) - k) * (|target - start| / c) :=
        mul_le_mul_of_nonneg_right hone (by positivity)
  rw [approach, if_neg hlong, ramp, ramp, Nat.cast_succ, add_mul, one_mul, add_assoc]

/-- **The ramp**, up to its last step, by induction on the steps taken. -/
theorem iterate_approach (start target : α) (hk : k ≤ c) :
    (approach target ((target - start) / c))^[k] start = ramp start target c k := by
  induction k with
  | zero => simp [ramp]
  | succ k ih => rw [Function.iterate_succ_apply', ih (by omega), approach_ramp start target hk]

/-- **No overshoot**: every position of the ramp lies between its ends. -/
theorem ramp_mem_uIcc (start target : α) (hc : 0 < c) (hk : k ≤ c) :
    ramp start target c k ∈ Set.uIcc start target := by
  have hpos : (0 : α) < c := Nat.cast_pos.mpr hc
  have hpart : (k : α) / c ≤ 1 := (div_le_one hpos).mpr (Nat.cast_le.mpr hk)
  have hpart0 : (0 : α) ≤ (k : α) / c := by positivity
  have hramp : ramp start target c k = start + (k : α) / c * (target - start) := by
    rw [ramp, mul_div_assoc', div_mul_eq_mul_div]
  rw [hramp, Set.mem_uIcc]
  rcases le_total start target with h | h
  · have hstep := mul_le_mul_of_nonneg_right hpart (sub_nonneg.mpr h)
    have hstep0 := mul_nonneg hpart0 (sub_nonneg.mpr h)
    exact Or.inl ⟨by linarith, by linarith⟩
  · have hstep := mul_le_mul_of_nonpos_right hpart (sub_nonpos.mpr h)
    have hstep0 := mul_nonpos_of_nonneg_of_nonpos hpart0 (sub_nonpos.mpr h)
    exact Or.inr ⟨by linarith, by linarith⟩

end

end Ramp
