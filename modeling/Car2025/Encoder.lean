/-
  The speeds that the motor controllers see: the counts of the encoders, filtered.

  1. **Readings (`encoder`)** — what a turn counts of a wheel; the second encoder is mounted the other
     way round.

  2. **Runs (`Filtered`)** — the speed of a wheel is the low-pass filter of its readings, in other units.

  3. **Result (`encoder_speed`)** — the speed never leaves the range of the readings, and readings that
     stay close to a value draw it there geometrically.
-/
import Mathlib
import Car2025.Lib.LowPass
import Car2025.CarMotion

namespace Car2025

open Wheel

/-! ## Readings -/

/-- The count of a wheel in the direction of its motor. -/
def encoder (count : Wheel → ℤ) : Wheel → ℤ
  | A => count A
  | B => -count B
  | C => count C

/-- The readings of a wheel in a run. -/
def readings (ts : List (Turn ℚ)) (w : Wheel) : List ℚ := ts.map fun t => (encoder t.count w : ℚ)

/-- `Motor_Act_Speed` of a count of 1 in every reading. -/
def speedPerCount : ℚ := 1000 / 1024 * (314 / 100) * (61 / 10)

theorem Motor_Act_Speed_eq (x : ℚ) : Motor_Act_Speed x = speedPerCount * x := by
  show x * ((1000 : ℤ) : ℚ) / ((1024 : ℤ) : ℚ) * (314 / 100) * (61 / 10) = _
  rw [speedPerCount]
  push_cast
  ring

theorem speedPerCount_nonneg : 0 ≤ speedPerCount := by
  rw [speedPerCount]
  norm_num

theorem readings_concat (ts : List (Turn ℚ)) (t : Turn ℚ) (w : Wheel) :
    readings (ts ++ [t]) w = readings ts w ++ [(encoder t.count w : ℚ)] := by
  rw [readings, List.map_append, List.map_singleton, readings]

theorem readings_append (ts us : List (Turn ℚ)) (w : Wheel) :
    readings (ts ++ us) w = readings ts w ++ readings us w := List.map_append

/-! ## Runs -/

/-- What a turn leaves of a wheel's encoder and of the speed that its controller sees, with the
    readings so far. -/
structure Motors.Filtered (m : Motors ℚ) (w : Wheel) (xs : List ℚ) : Prop where
  RC : (m.Encoder_Para w).RC = 7 / 100
  value : (m.Encoder_Para w).value = LowPass.filter (7 / 100) 0 xs
  speed : (m.motor w).Act_Speed = speedPerCount * LowPass.filter (7 / 100) 0 xs

theorem Motors.init_filtered (w : Wheel) :
    (Motor_init (CarMotion.zero : CarMotion ℚ).motors).Filtered w [] := by
  refine ⟨rfl, rfl, ?_⟩
  rw [show LowPass.filter (7 / 100 : ℚ) 0 [] = 0 from rfl, mul_zero]
  cases w with
  | A => rfl
  | B => rfl
  | C => rfl

/-- Setting the targets leaves the encoders. -/
theorem Motors.turn_Encoder_Para (m : Motors ℚ) (t : Turn ℚ) (w : Wheel) :
    (m.turn t).Encoder_Para w = RCFilter (encoder t.count w : ℚ) (m.Encoder_Para w) := by
  cases w with
  | A => rfl
  | B => rfl
  | C => rfl

theorem Motors.turn_Act_Speed (m : Motors ℚ) (t : Turn ℚ) (w : Wheel) :
    ((m.turn t).motor w).Act_Speed = Motor_Act_Speed ((m.turn t).Encoder_Para w).value := by
  rw [Motors.turn, motor_run, Motors.Pwm_cb_motor]
  rfl

theorem Motors.Filtered.turn {m : Motors ℚ} {w : Wheel} {xs : List ℚ} (h : m.Filtered w xs)
    (t : Turn ℚ) : (m.turn t).Filtered w (xs ++ [(encoder t.count w : ℚ)]) := by
  have hvalue : ((m.turn t).Encoder_Para w).value =
      LowPass.filter (7 / 100) 0 (xs ++ [(encoder t.count w : ℚ)]) := by
    rw [turn_Encoder_Para, LowPass.filter_concat, ← h.value, LowPass.step, ← h.RC]
    show (((1 : ℤ) : ℚ) - _) * _ + _ = _
    rw [Int.cast_one]
  refine ⟨?_, hvalue, ?_⟩
  · rw [turn_Encoder_Para]
    exact h.RC
  · rw [turn_Act_Speed, Motor_Act_Speed_eq, hvalue]

theorem Motors.run_filtered (w : Wheel) (ts : List (Turn ℚ)) :
    ((Motor_init (CarMotion.zero : CarMotion ℚ).motors).run ts).Filtered w (readings ts w) := by
  induction ts using List.reverseRecOn with
  | nil => exact Motors.init_filtered w
  | append_singleton ts t ih =>
    -- the filter takes one more reading, as `encoder_getvalue` does once in a turn
    rw [Motors.run_concat, readings_concat]
    exact ih.turn t

/-! ## Result -/

/-- **The speeds that the controllers see** — in every run from the start and for every wheel: if all
    readings lie between two values that have 0 between them, so does the speed, in its units; and
    readings that differ from `c` by at most `d` bring the speed to within `d` of `c`, but for what is
    left of its old distance, which each of them cuts by 7 percent. -/
theorem encoder_speed (w : Wheel) (ts : List (Turn ℚ)) :
    (∀ lo hi : ℚ, lo ≤ 0 → 0 ≤ hi → (∀ t ∈ ts, (encoder t.count w : ℚ) ∈ Set.Icc lo hi) →
      (((Motor_init (CarMotion.zero : CarMotion ℚ).motors).run ts).motor w).Act_Speed ∈
        Set.Icc (speedPerCount * lo) (speedPerCount * hi)) ∧
    ∀ (c d : ℚ) (held : List (Turn ℚ)), 0 ≤ d → (∀ t ∈ held, |(encoder t.count w : ℚ) - c| ≤ d) →
      |(((Motor_init (CarMotion.zero : CarMotion ℚ).motors).run (ts ++ held)).motor w).Act_Speed -
          speedPerCount * c| ≤
        (93 / 100) ^ held.length *
          |(((Motor_init (CarMotion.zero : CarMotion ℚ).motors).run ts).motor w).Act_Speed -
            speedPerCount * c| + speedPerCount * d := by
  have hmem : ∀ (us : List (Turn ℚ)) (x : ℚ), x ∈ readings us w →
      ∃ t ∈ us, (encoder t.count w : ℚ) = x := fun us x hx => List.mem_map.mp hx
  have hdist : ∀ x c : ℚ, |speedPerCount * x - speedPerCount * c| = speedPerCount * |x - c| := by
    intro x c
    rw [← mul_sub, abs_mul, abs_of_nonneg speedPerCount_nonneg]
  -- both halves are facts about the filter, carried over by the units
  refine ⟨fun lo hi hlo hhi hread => ?_, fun c d held hd hheld => ?_⟩
  · have hread : ∀ x ∈ readings ts w, x ∈ Set.Icc lo hi := by
      intro x hx
      obtain ⟨t, ht, rfl⟩ := hmem ts x hx
      exact hread t ht
    have hrange := LowPass.filter_mem (a := (7 / 100 : ℚ)) (by norm_num) (by norm_num) ⟨hlo, hhi⟩ hread
    rw [(Motors.run_filtered w ts).speed]
    exact ⟨mul_le_mul_of_nonneg_left hrange.1 speedPerCount_nonneg,
      mul_le_mul_of_nonneg_left hrange.2 speedPerCount_nonneg⟩
  · have hheld : ∀ x ∈ readings held w, |x - c| ≤ d := by
      intro x hx
      obtain ⟨t, ht, rfl⟩ := hmem held x hx
      exact hheld t ht
    have hclose := LowPass.abs_filter_sub_le (a := (7 / 100 : ℚ))
      (y := LowPass.filter (7 / 100) 0 (readings ts w)) (by norm_num) (by norm_num) hd hheld
    have hlen : (readings held w).length = held.length := List.length_map _
    rw [(Motors.run_filtered w _).speed, (Motors.run_filtered w _).speed, hdist, hdist,
      readings_append, LowPass.filter_append, ← hlen]
    calc speedPerCount * |_|
        ≤ speedPerCount * ((1 - 7 / 100) ^ (readings held w).length *
            |LowPass.filter (7 / 100) 0 (readings ts w) - c| + d) :=
          mul_le_mul_of_nonneg_left hclose speedPerCount_nonneg
      _ = _ := by
          norm_num
          ring

end Car2025
