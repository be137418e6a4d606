/-
  The drift of the yaw: what a car that is not turned makes of the noise of its gyroscope.

  1. **Calibration** — the offset is the mean of the samples, so it lies where they do.

  2. **Rates** — samples that lie close together show rates close to 0, and so does their filter.

  3. **Result (`yaw_drift`)** — the yaw of a car at rest does not drift faster than the noise, and not at
     all where the noise is small.
-/
import Mathlib
import Car2025.Lib.LowPass
import Car2025.Attitude

namespace Car2025

/-! ## Calibration -/

/-- The loop adds up samples and leaves the last one in the global. -/
theorem Att_Algo_Init_loop_range {samples : ℕ → Axes ℤ} {lo hi : ℤ} :
    ∀ (n i : ℕ) (s : Attitude ℚ), (∀ j < n, (samples (i + j)).z ∈ Set.Icc lo hi) →
      (Att_Algo_Init_loop samples n i s).GyroOffset.z ∈
        Set.Icc (s.GyroOffset.z + n * lo) (s.GyroOffset.z + n * hi) ∧
      (s.icm20602_gyro.z ∈ Set.Icc lo hi ∨ 0 < n →
        (Att_Algo_Init_loop samples n i s).icm20602_gyro.z ∈ Set.Icc lo hi) := by
  intro n
  induction n with
  | zero =>
    intro i s _
    refine ⟨⟨?_, ?_⟩, fun h => h.resolve_right (lt_irrefl 0)⟩
    · rw [Nat.cast_zero, zero_mul, add_zero]
      exact le_rfl
    · rw [Nat.cast_zero, zero_mul, add_zero]
      exact le_rfl
  | succ n ih =>
    intro i s h
    have hnow := h 0 n.succ_pos
    rw [add_zero] at hnow
    have hrest : ∀ j < n, (samples (i + 1 + j)).z ∈ Set.Icc lo hi := by
      intro j hj
      rw [add_assoc, add_comm 1 j]
      exact h (j + 1) (Nat.succ_lt_succ hj)
    -- the samples left start from the sum that this one leaves
    obtain ⟨hsum, hlast⟩ := ih (i + 1)
      { icm20602_get_gyro (samples i) s with
        GyroOffset :=
          ⟨s.GyroOffset.x + CFloat.ofInt (samples i).x, s.GyroOffset.y + CFloat.ofInt (samples i).y,
            s.GyroOffset.z + CFloat.ofInt (samples i).z⟩ } hrest
    have hlo : (lo : ℚ) ≤ (samples i).z := by exact_mod_cast hnow.1
    have hhi : ((samples i).z : ℚ) ≤ hi := by exact_mod_cast hnow.2
    refine ⟨⟨le_trans ?_ hsum.1, hsum.2.trans ?_⟩, fun _ => hlast (Or.inl hnow)⟩
    · show _ ≤ s.GyroOffset.z + ((samples i).z : ℚ) + n * lo
      push_cast
      linarith
    · show s.GyroOffset.z + ((samples i).z : ℚ) + _ ≤ _
      push_cast
      linarith

theorem Att_Algo_Init_loop_yaw (samples : ℕ → Axes ℤ) : ∀ (n i : ℕ) (s : Attitude ℚ),
    (Att_Algo_Init_loop samples n i s).yaw = s.yaw := by
  intro n
  induction n with
  | zero => exact fun i s => rfl
  | succ n ih => exact fun i s => ih (i + 1) _

/-- The calibration leaves the yaw. -/
theorem Att_Algo_Init_yaw (samples : ℕ → Axes ℤ) (s : Attitude ℚ) :
    (Att_Algo_Init samples s).yaw = s.yaw := by
  simp only [Att_Algo_Init, Att_Algo_Init_loop_yaw]

/-- **The offset** lies among the samples, and so does the sample that is handed to the first call. -/
theorem Att_Algo_Init_range {samples : ℕ → Axes ℤ} {lo hi : ℤ} (s : Attitude ℚ)
    (h : ∀ i < 100, (samples i).z ∈ Set.Icc lo hi) :
    (Att_Algo_Init samples s).GyroOffset.z ∈ Set.Icc (lo : ℚ) hi ∧
      (Att_Algo_Init samples s).icm20602_gyro.z ∈ Set.Icc lo hi := by
  obtain ⟨hsum, hlast⟩ := Att_Algo_Init_loop_range 100 0
    { s with GyroOffset := ⟨CFloat.ofInt 0, CFloat.ofInt 0, CFloat.ofInt 0⟩ } fun j hj => by
      rw [zero_add]
      exact h j hj
  refine ⟨?_, hlast (Or.inr (by decide))⟩
  have h100 : (0 : ℚ) < ((100 : ℤ) : ℚ) := by norm_num
  have hzero : (CFloat.ofInt 0 : ℚ) = 0 := Int.cast_zero
  simp only [hzero, zero_add] at hsum
  simp only [Att_Algo_Init, hzero]
  constructor
  · refine (le_div_iff₀ h100).mpr ?_
    rw [mul_comm]
    exact hsum.1
  · refine (div_le_iff₀ h100).mpr ?_
    rw [mul_comm]
    exact hsum.2

/-! ## Rates -/

/-- Radians in a second for a sample that is 1 above the offset. -/
def radPerCount : ℚ := 4000 / 65536 * angle_to_rad

theorem radPerCount_pos : 0 < radPerCount := by decide +kernel

theorem abs_rate_le {offset d : ℚ} {z : ℤ} (h : |z - offset| ≤ d) :
    |rate offset z| ≤ radPerCount * d := by
  have hrate : rate offset z = radPerCount * (z - offset) := by
    rw [rate, radPerCount]
    ring
  rw [hrate, abs_mul, abs_of_pos radPerCount_pos]
  exact mul_le_mul_of_nonneg_left h radPerCount_pos.le

theorem low_pass_eq (xs : List ℚ) : low_pass xs = LowPass.filter (1 / 5) 0 xs := by
  rw [low_pass, LowPass.filter]
  congr 1
  funext g r
  rw [LowPass.step]
  norm_num

theorem abs_low_pass_le {b : ℚ} (hb : 0 ≤ b) {xs : List ℚ} (h : ∀ x ∈ xs, |x| ≤ b) :
    |low_pass xs| ≤ b := by
  rw [low_pass_eq]
  exact abs_le.mpr (LowPass.filter_mem (by norm_num) (by norm_num)
    ⟨neg_nonpos.mpr hb, hb⟩ fun x hx => abs_le.mp (h x hx))

theorem abs_integrated_le (g : ℚ) : |integrated g| ≤ |g| := by
  rw [integrated]
  split
  · exact le_rfl
  · rw [abs_zero]
    exact abs_nonneg g

theorem integrated_eq_zero {g : ℚ} (h : |g| ≤ 1 / 100) : integrated g = 0 := if_neg (not_lt.mpr h)

/-! ## Drift -/

/-- The rate that a call filters, in a run whose samples and offset lie within `d` of each other. -/
theorem Follows.abs_filter_le {s₀ s : Attitude ℚ} {rs : List Reading} (h : Follows s₀ s rs) {d : ℚ}
    (hfirst : |s₀.icm20602_gyro.z - s₀.GyroOffset.z| ≤ d)
    (hrs : ∀ r ∈ rs, |(r.gyro.z : ℚ) - s₀.GyroOffset.z| ≤ d) :
    |4 / 5 * s.fliter_value0 + 1 / 5 * rate s.GyroOffset.z s.icm20602_gyro.z| ≤ radPerCount * d := by
  rw [h.filter]
  refine abs_low_pass_le (mul_nonneg radPerCount_pos.le ((abs_nonneg _).trans hfirst)) fun x hx => ?_
  rcases List.mem_cons.mp hx with rfl | hx
  · exact abs_rate_le hfirst
  · obtain ⟨r, hr, rfl⟩ := List.mem_map.mp hx
    exact abs_rate_le (hrs r hr)

/-- The tick of the last reading is among those from 0 on. -/
theorem last_tick_mem (rs : List Reading) : last_tick 0 rs ∈ 0 :: rs.map Reading.tick := by
  rcases List.eq_nil_or_concat rs with rfl | ⟨init, r, rfl⟩
  · exact List.mem_cons_self
  · rw [List.concat_eq_append, last_tick_concat, List.map_append]
    exact List.mem_cons_of_mem 0 (List.mem_append_right _ List.mem_cons_self)

/-- What a call adds to the yaw, if the filtered rate is at most that of `d`. -/
theorem abs_yaw_turn_le {g d : ℚ} (hg : |g| ≤ radPerCount * d) {ticks : ℤ} (hticks : 0 ≤ ticks) :
    |yaw_turn g ticks| ≤ d * 4000 / 65536 * (ticks / 1000) := by
  have hangle : (0 : ℚ) < angle_to_rad := by decide +kernel
  have hticks : (0 : ℚ) ≤ ticks := by exact_mod_cast hticks
  calc |yaw_turn g ticks|
      = |integrated g| * (ticks / 1000) / angle_to_rad := by
        rw [yaw_turn, mul_assoc, ← div_eq_mul_one_div, abs_div, abs_mul, abs_of_pos hangle,
          abs_of_nonneg (div_nonneg hticks (by norm_num))]
    _ ≤ radPerCount * d * (ticks / 1000) / angle_to_rad := by
        have hrate := (abs_integrated_le g).trans hg
        gcongr
    _ = d * 4000 / 65536 * (ticks / 1000) := by
        rw [radPerCount]
        field_simp

/-- **The drift of the yaw** — if all samples, while the gyroscope is calibrated and afterwards, lie
    within `n` of each other, the yaw drifts by at most `n * 4000 / 65536` degrees in a second of the
    clock; if `n` is at most 9 it stays 0 for ever, whatever the clock shows. -/
theorem yaw_drift (samples : ℕ → Axes ℤ) (rs : List Reading) (m : ℤ) (n : ℕ)
    (hcal : ∀ i < 100, (samples i).z ∈ Set.Icc m (m + n))
    (hrs : ∀ r ∈ rs, r.gyro.z ∈ Set.Icc m (m + n)) :
    ((0 :: rs.map Reading.tick).Pairwise (· ≤ ·) →
      |((Att_Algo_Init samples Attitude.zero : Attitude ℚ).run rs).yaw| ≤
        n * 4000 / 65536 * (last_tick 0 rs / 1000)) ∧
    (n ≤ 9 → ((Att_Algo_Init samples Attitude.zero : Attitude ℚ).run rs).yaw = 0) := by
  obtain ⟨hfilter, htick⟩ := Att_Algo_Init_keeps samples (Attitude.zero : Attitude ℚ)
  obtain ⟨hoffset, hfirst⟩ := Att_Algo_Init_range (Attitude.zero : Attitude ℚ) hcal
  have hyaw := Att_Algo_Init_yaw samples (Attitude.zero : Attitude ℚ)
  generalize (Att_Algo_Init samples Attitude.zero : Attitude ℚ) = s₀ at *
  have hnear : ∀ z : ℤ, z ∈ Set.Icc m (m + n) → |(z : ℚ) - s₀.GyroOffset.z| ≤ n := by
    intro z hz
    have hlo : (m : ℚ) ≤ z := by exact_mod_cast hz.1
    have hhi : (z : ℚ) ≤ ((m + n : ℤ) : ℚ) := by exact_mod_cast hz.2
    obtain ⟨holo, hohi⟩ := hoffset
    push_cast at hhi hohi
    exact abs_le.mpr ⟨by linarith, by linarith⟩
  -- by induction on the run: one call more adds what the filtered rate turns
  induction rs using List.reverseRecOn with
  | nil =>
    have h0 : (s₀.run []).yaw = 0 := hyaw
    rw [h0, abs_zero]
    refine ⟨fun _ => ?_, fun _ => rfl⟩
    rw [show last_tick 0 [] = 0 from rfl, Int.cast_zero, zero_div, mul_zero]
  | append_singleton rs r ih =>
    have hold : ∀ r ∈ rs, r.gyro.z ∈ Set.Icc m (m + n) := fun r hr =>
      hrs r (List.mem_append_left _ hr)
    obtain ⟨ihdrift, ihstill⟩ := ih hold
    have hrun := run_follows hfilter htick rs
    have hg := hrun.abs_filter_le (hnear _ hfirst) fun r hr => hnear _ (hold r hr)
    obtain ⟨-, -, -, -, hcall⟩ := Att_GetYaw_eq r (s₀.run rs) rfl
    rw [Attitude.run_concat, hcall, last_tick_concat, hrun.tick]
    generalize 4 / 5 * _ + 1 / 5 * rate _ _ = g at hg ⊢
    -- a clock that goes on adds at most the noise for the ticks that passed; at most 9 lies in the
    -- dead zone of `Att_GetYaw`, which integrates 0
    refine ⟨fun hclock => ?_, fun hn => ?_⟩
    · rw [List.map_append, ← List.cons_append] at hclock
      obtain ⟨hclock, -, hlast⟩ := List.pairwise_append.mp hclock
      have hle : last_tick 0 rs ≤ r.tick := hlast _ (last_tick_mem rs) _ List.mem_cons_self
      calc |(s₀.run rs).yaw + yaw_turn g (r.tick - last_tick 0 rs)|
          ≤ n * 4000 / 65536 * (last_tick 0 rs / 1000) +
              n * 4000 / 65536 * ((r.tick - last_tick 0 rs : ℤ) / 1000) :=
            (abs_add_le _ _).trans
              (add_le_add (ihdrift hclock) (abs_yaw_turn_le hg (sub_nonneg.mpr hle)))
        _ = n * 4000 / 65536 * (r.tick / 1000) := by
            push_cast
            ring
    · have hn : (n : ℚ) ≤ 9 := by exact_mod_cast hn
      have hzone : radPerCount * 9 ≤ 1 / 100 := by decide +kernel
      have hsmall : |g| ≤ 1 / 100 :=
        hg.trans ((mul_le_mul_of_nonneg_left hn radPerCount_pos.le).trans hzone)
      rw [ihstill (by exact_mod_cast hn), yaw_turn, integrated_eq_zero hsmall, zero_mul, zero_mul,
        zero_div, add_zero]

/-- A car at rest, with a gyroscope that shows up to 9. -/
theorem yaw_drift_nine :
    ((0 :: [(⟨⟨0, 0, 0⟩, ⟨0, 0, 9⟩, 1000⟩ : Reading)].map Reading.tick).Pairwise (· ≤ ·) →
      |((Att_Algo_Init (fun _ => ⟨0, 0, 0⟩) Attitude.zero : Attitude ℚ).run
          [⟨⟨0, 0, 0⟩, ⟨0, 0, 9⟩, 1000⟩]).yaw| ≤
        (9 : ℕ) * 4000 / 65536 * (last_tick 0 [⟨⟨0, 0, 0⟩, ⟨0, 0, 9⟩, 1000⟩] / 1000)) ∧
    (9 ≤ 9 → ((Att_Algo_Init (fun _ => ⟨0, 0, 0⟩) Attitude.zero : Attitude ℚ).run
      [⟨⟨0, 0, 0⟩, ⟨0, 0, 9⟩, 1000⟩]).yaw = 0) :=
  yaw_drift (fun _ => ⟨0, 0, 0⟩) [⟨⟨0, 0, 0⟩, ⟨0, 0, 9⟩, 1000⟩] 0 9
    (fun _ _ => ⟨by decide, by decide⟩) (fun r hr => by
      rw [List.mem_singleton.mp hr]
      exact ⟨by decide, by decide⟩)

end Car2025
