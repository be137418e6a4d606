/-
  `Attitude_algorithm.c`: the yaw, integrated from the gyroscope.

  1. **Program** — `Att_GetYaw` hands the six values that are in the globals to `imu_data_convertion`,
     which reads the sensor anew, but converts and filters what it was handed.  The tick before the
     first call is the zero that `previous_t` holds at the start.  What the sensor returns and the
     tick are inputs.

  2. **Runs (`Follows`)** — the filter is one sample behind.

  3. **Result (`Att_GetYaw_integral_iff`)** — the yaw is the integral of the filtered rate exactly
     where the delay does not show.

  The Kalman filter and `Cancer_GetState_Accel` are called by nothing.
-/
import Mathlib
import Car2025.Lib.CFloat
import Car2025.Lib.Runs

namespace Car2025

open Runs

/-! ## Program -/

/-- One value for each axis. -/
structure Axes (α : Type) where
  x : α
  y : α
  z : α

/-- The globals of `Attitude_algorithm.c` that `Att_GetYaw` works on, its two statics, and the
    globals that the driver of the sensor writes. -/
structure Attitude (R : Type) where
  icm20602_acc : Axes ℤ
  icm20602_gyro : Axes ℤ
  GyroOffset : Axes R
  acc_data : Axes R
  gyr_data : Axes R
  fliter_value0 : R
  fliter_value1 : R
  previous_t : ℤ
  current_t : ℤ
  dt : R
  yaw : R

/-- What the sensor and the clock show during one call. -/
structure Reading where
  acc : Axes ℤ
  gyro : Axes ℤ
  tick : ℤ

section

variable {R : Type}

/-- `icm20602_get_acc` -/
def icm20602_get_acc (sample : Axes ℤ) (s : Attitude R) : Attitude R :=
  { s with icm20602_acc := sample }

/-- `icm20602_get_gyro` -/
def icm20602_get_gyro (sample : Axes ℤ) (s : Attitude R) : Attitude R :=
  { s with icm20602_gyro := sample }

variable [CFloat R]

/-- `angle_to_rad` -/
def angle_to_rad : R := CFloat.ofRat (174532925 / 10000000000)

/-- `acc_range`, `gyro_range` and `IMU_RESOLUTION` -/
def acc_range : R := CFloat.ofInt 16
def gyro_range : R := CFloat.ofInt 4000
def IMU_RESOLUTION : R := CFloat.ofInt 65536

/-- `IMU_UNIT_TIME` -/
def IMU_UNIT_TIME : R := CFloat.ofRat (1 / 1000)

/-- `imu_data_convertion`, with the values it is handed. -/
def imu_data_convertion (acc gyro : Axes ℤ) (r : Reading) (s : Attitude R) : Attitude R :=
  let a : R := CFloat.ofRat (1 / 5)
  let s := icm20602_get_gyro r.gyro (icm20602_get_acc r.acc s)
  let acc_of : ℤ → R := fun v => CFloat.ofInt v * acc_range / IMU_RESOLUTION
  let gyr_of : ℤ → R → R := fun v offset =>
    (CFloat.ofInt v - offset) * gyro_range / IMU_RESOLUTION * angle_to_rad
  let s := { s with
    acc_data := ⟨acc_of acc.x, acc_of acc.y, acc_of acc.z⟩
    gyr_data := ⟨gyr_of gyro.x s.GyroOffset.x, gyr_of gyro.y s.GyroOffset.y,
      gyr_of gyro.z s.GyroOffset.z⟩ }
  let fliter_value := (CFloat.ofInt 1 - a) * s.fliter_value0 + a * s.gyr_data.z
  { s with
    fliter_value1 := fliter_value
    fliter_value0 := fliter_value
    gyr_data := { s.gyr_data with z := fliter_value } }

/-- `Att_GetYaw` -/
def Att_GetYaw (r : Reading) (s : Attitude R) : R × Attitude R :=
  let s := imu_data_convertion s.icm20602_acc s.icm20602_gyro r s
  let s := { s with current_t := r.tick }
  let s := { s with dt := CFloat.ofInt (s.current_t - s.previous_t) * IMU_UNIT_TIME }
  let s := { s with previous_t := s.current_t }
  let s :=
    if CFloat.lt (CFloat.ofRat (1 / 100)) (CFloat.abs s.gyr_data.z) then
      { s with yaw := s.yaw + s.gyr_data.z * s.dt / angle_to_rad }
    else s
  (s.yaw, s)

/-- The loop of `Att_Algo_Init`, from pass `i` on. -/
def Att_Algo_Init_loop (samples : ℕ → Axes ℤ) : ℕ → ℕ → Attitude R → Attitude R
  | 0, _, s => s
  | n + 1, i, s =>
    let s := icm20602_get_gyro (samples i) s
    Att_Algo_Init_loop samples n (i + 1)
      { s with GyroOffset :=
          ⟨s.GyroOffset.x + CFloat.ofInt s.icm20602_gyro.x,
            s.GyroOffset.y + CFloat.ofInt s.icm20602_gyro.y,
            s.GyroOffset.z + CFloat.ofInt s.icm20602_gyro.z⟩ }

/-- `Att_Algo_Init`, with the samples that the sensor returns. -/
def Att_Algo_Init (samples : ℕ → Axes ℤ) (s : Attitude R) : Attitude R :=
  let s := { s with GyroOffset := ⟨CFloat.ofInt 0, CFloat.ofInt 0, CFloat.ofInt 0⟩ }
  let s := Att_Algo_Init_loop samples 100 0 s
  { s with GyroOffset :=
      ⟨s.GyroOffset.x / CFloat.ofInt 100, s.GyroOffset.y / CFloat.ofInt 100,
        s.GyroOffset.z / CFloat.ofInt 100⟩ }

/-- The globals before `main` runs. -/
def Attitude.zero : Attitude R :=
  let z : R := CFloat.ofInt 0
  ⟨⟨0, 0, 0⟩, ⟨0, 0, 0⟩, ⟨z, z, z⟩, ⟨z, z, z⟩, ⟨z, z, z⟩, z, z, 0, 0, z, z⟩

/-- The globals after a sequence of calls. -/
def Attitude.run (s : Attitude R) (rs : List Reading) : Attitude R :=
  rs.foldl (fun s r => (Att_GetYaw r s).2) s

theorem Attitude.run_concat (s : Attitude R) (rs : List Reading) (r : Reading) :
    s.run (rs ++ [r]) = (Att_GetYaw r (s.run rs)).2 := by
  rw [Attitude.run, List.foldl_append, List.foldl_cons, List.foldl_nil, Attitude.run]

theorem Att_Algo_Init_loop_keeps (samples : ℕ → Axes ℤ) : ∀ (n i : ℕ) (s : Attitude R),
    (Att_Algo_Init_loop samples n i s).fliter_value0 = s.fliter_value0 ∧
      (Att_Algo_Init_loop samples n i s).previous_t = s.previous_t := by
  intro n
  induction n with
  | zero => exact fun i s => ⟨rfl, rfl⟩
  | succ n ih => exact fun i s => ih (i + 1) _

/-- The sensor is calibrated without touching what the integration starts from. -/
theorem Att_Algo_Init_keeps (samples : ℕ → Axes ℤ) (s : Attitude R) :
    (Att_Algo_Init samples s).fliter_value0 = s.fliter_value0 ∧
      (Att_Algo_Init samples s).previous_t = s.previous_t := by
  simp only [Att_Algo_Init, Att_Algo_Init_loop_keeps, and_self]

end

/-! ## Rates and filter -/

/-- The rate about the vertical axis that a sample shows. -/
def rate (offset : ℚ) (gyro_z : ℤ) : ℚ := (gyro_z - offset) * 4000 / 65536 * angle_to_rad

/-- The low-pass filter, from 0. -/
def low_pass (rates : List ℚ) : ℚ := rates.foldl (fun g r => 4 / 5 * g + 1 / 5 * r) 0

theorem low_pass_concat (rates : List ℚ) (r : ℚ) :
    low_pass (rates ++ [r]) = 4 / 5 * low_pass rates + 1 / 5 * r := by
  rw [low_pass, List.foldl_append, List.foldl_cons, List.foldl_nil, low_pass]

/-- What is integrated of a filtered rate: nothing within the dead zone. -/
def integrated (g : ℚ) : ℚ := if 1 / 100 < |g| then g else 0

/-- The turn in degrees that `ticks` milliseconds at the rate `g` make. -/
def yaw_turn (g : ℚ) (ticks : ℤ) : ℚ := integrated g * ticks * (1 / 1000) / angle_to_rad

/-- The rates of a sequence of readings. -/
def rates (offset : ℚ) (rs : List Reading) : List ℚ := rs.map fun r => rate offset r.gyro.z

/-- The tick of the last reading; `t₀` at the start. -/
def last_tick (t₀ : ℤ) (rs : List Reading) : ℤ := (rs.map Reading.tick).getLastD t₀

/-- **The turn that the readings show**: each call adds its interval, at the filtered rate that
    includes the sample read in it. -/
def heading (offset : ℚ) (t₀ : ℤ) (rs : List Reading) : ℚ :=
  go 0 t₀ rs
where
  go (g : ℚ) (t : ℤ) : List Reading → ℚ
    | [] => 0
    | r :: rs =>
      let g := 4 / 5 * g + 1 / 5 * rate offset r.gyro.z
      yaw_turn g (r.tick - t) + go g r.tick rs

theorem last_tick_concat (t₀ : ℤ) (rs : List Reading) (r : Reading) :
    last_tick t₀ (rs ++ [r]) = r.tick := by
  rw [last_tick, List.map_append, List.map_singleton, List.getLastD_concat]

theorem rates_concat (offset : ℚ) (rs : List Reading) (r : Reading) :
    rates offset (rs ++ [r]) = rates offset rs ++ [rate offset r.gyro.z] := by
  rw [rates, List.map_append, List.map_singleton, rates]

/-- The last interval is added at the end. -/
theorem heading_concat (offset : ℚ) (t₀ : ℤ) (rs : List Reading) (r : Reading) :
    heading offset t₀ (rs ++ [r]) = heading offset t₀ rs +
      yaw_turn (low_pass (rates offset (rs ++ [r]))) (r.tick - last_tick t₀ rs) := by
  have hgo : ∀ (rs : List Reading) (g : ℚ) (t : ℤ),
      heading.go offset g t (rs ++ [r]) = heading.go offset g t rs +
        yaw_turn ((rates offset (rs ++ [r])).foldl (fun g r => 4 / 5 * g + 1 / 5 * r) g)
          (r.tick - last_tick t rs) := by
    intro rs
    induction rs with
    | nil =>
      intro g t
      show yaw_turn _ _ + 0 = 0 + yaw_turn _ _
      rw [add_zero, zero_add]
      rfl
    | cons r' rs ih =>
      intro g t
      have hlast : last_tick t (r' :: rs) = last_tick r'.tick rs := by
        rw [last_tick, List.map_cons, List.getLastD_cons, last_tick]
      rw [List.cons_append, heading.go, ih, hlast, heading.go, add_assoc]
      rfl
  exact hgo rs 0 t₀

/-! ## Runs -/

section

variable {s₀ s : Attitude ℚ} {rs : List Reading}

/-- What is converted is what was handed over. -/
theorem imu_data_convertion_rate (acc gyro : Axes ℤ) (r : Reading) (s : Attitude ℚ) :
    (imu_data_convertion acc gyro r s).gyr_data.z =
      4 / 5 * s.fliter_value0 + 1 / 5 * rate s.GyroOffset.z gyro.z := by
  show (((1 : ℤ) : ℚ) - 1 / 5) * s.fliter_value0 + 1 / 5 *
    (((gyro.z : ℚ) - s.GyroOffset.z) * ((4000 : ℤ) : ℚ) / ((65536 : ℤ) : ℚ) * angle_to_rad) = _
  rw [rate]
  push_cast
  ring

/-- **One call**, as far as the yaw depends on it: it filters the sample of the call before. -/
theorem Att_GetYaw_eq (r : Reading) (s : Attitude ℚ) {g : ℚ}
    (hg : g = 4 / 5 * s.fliter_value0 + 1 / 5 * rate s.GyroOffset.z s.icm20602_gyro.z) :
    (Att_GetYaw r s).2.fliter_value0 = g ∧
      (Att_GetYaw r s).2.icm20602_gyro = r.gyro ∧
      (Att_GetYaw r s).2.GyroOffset = s.GyroOffset ∧
      (Att_GetYaw r s).2.previous_t = r.tick ∧
      (Att_GetYaw r s).2.yaw = s.yaw + yaw_turn g (r.tick - s.previous_t) := by
  have hrate := imu_data_convertion_rate s.icm20602_acc s.icm20602_gyro r s
  rw [← hg] at hrate
  have hfilter : (imu_data_convertion s.icm20602_acc s.icm20602_gyro r s).fliter_value0 = g := hrate
  simp only [Att_GetYaw, CFloat.lt_rat, CFloat.abs_rat, CFloat.ofRat_rat, hrate]
  by_cases hzone : 1 / 100 < |g|
  · rw [if_pos hzone]
    refine ⟨hfilter, rfl, rfl, rfl, ?_⟩
    show s.yaw + g * (((r.tick - s.previous_t : ℤ) : ℚ) * (1 / 1000)) / angle_to_rad = _
    rw [yaw_turn, integrated, if_pos hzone, ← mul_assoc]
  · rw [if_neg hzone]
    refine ⟨hfilter, rfl, rfl, rfl, ?_⟩
    rw [yaw_turn, integrated, if_neg hzone, zero_mul, zero_mul, zero_div, add_zero]
    rfl

/-- What is carried from call to call: the filtered rate that the next call will use has all samples
    up to now, the one before the first call included. -/
structure Follows (s₀ s : Attitude ℚ) (rs : List Reading) : Prop where
  offset : s.GyroOffset = s₀.GyroOffset
  filter : 4 / 5 * s.fliter_value0 + 1 / 5 * rate s.GyroOffset.z s.icm20602_gyro.z =
    low_pass (rate s₀.GyroOffset.z s₀.icm20602_gyro.z :: rates s₀.GyroOffset.z rs)
  tick : s.previous_t = last_tick 0 rs

theorem Follows.start (hfilter : s₀.fliter_value0 = 0) (htick : s₀.previous_t = 0) :
    Follows s₀ s₀ [] := by
  refine ⟨rfl, ?_, htick⟩
  rw [hfilter]
  rfl

theorem Follows.call (h : Follows s₀ s rs) (r : Reading) :
    Follows s₀ (Att_GetYaw r s).2 (rs ++ [r]) := by
  obtain ⟨hfilter, hgyro, hoffset, htick, -⟩ := Att_GetYaw_eq r s h.filter.symm
  refine ⟨hoffset.trans h.offset, ?_, ?_⟩
  · rw [hfilter, hgyro, hoffset, h.offset, rates_concat, ← List.cons_append, low_pass_concat]
  · rw [htick, last_tick_concat]

/-- **A run**: every call is one sample behind, by induction on the calls; the first one has
    nothing to filter yet. -/
theorem run_follows (hfilter : s₀.fliter_value0 = 0) (htick : s₀.previous_t = 0) :
    ∀ rs, Follows s₀ (s₀.run rs) rs := by
  intro rs
  induction rs using List.reverseRecOn with
  | nil => exact Follows.start hfilter htick
  | append_singleton rs r ih =>
    rw [Attitude.run_concat]
    exact ih.call r

end

/-! ## The integral -/

/-- **The delay does not show** in a call: nothing that is integrated depends on whether the sample of
    this call or the one before is the last, or no time has passed.  The first interval is measured
    from the tick 0. -/
def Undelayed (s₀ : Attitude ℚ) (t₀ : ℤ) (rs : List Reading) (r : Reading) : Prop :=
  let z := s₀.GyroOffset.z
  let first := rate z s₀.icm20602_gyro.z
  if rs = [] then
    integrated (1 / 5 * first) * r.tick = integrated (1 / 5 * rate z r.gyro.z) * (r.tick - t₀)
  else r.tick = last_tick t₀ rs ∨
    integrated (low_pass (first :: rates z rs)) = integrated (low_pass (rates z (rs ++ [r])))

theorem yaw_turn_eq_iff {g g' : ℚ} {t t' : ℤ} :
    yaw_turn g t = yaw_turn g' t' ↔ integrated g * t = integrated g' * t' := by
  have hangle : (angle_to_rad : ℚ) ≠ 0 := by
    show (174532925 / 10000000000 : ℚ) ≠ 0
    norm_num
  rw [yaw_turn, yaw_turn, div_left_inj' hangle, mul_left_inj' (by norm_num)]

/-- **The yaw** — after `Att_Algo_Init`, which ends at the tick `t₀`, every call has changed the yaw by
    the turn that the readings show exactly when the delay by one sample shows in no call. -/
theorem Att_GetYaw_integral_iff (samples : ℕ → Axes ℤ) (t₀ : ℤ) (rs : List Reading) :
    Always (fun pre => ((Att_Algo_Init samples Attitude.zero).run pre).yaw -
        (Att_Algo_Init samples Attitude.zero).yaw =
      heading (Att_Algo_Init samples Attitude.zero : Attitude ℚ).GyroOffset.z t₀ pre) rs ↔
    EachStep (Undelayed (Att_Algo_Init samples Attitude.zero) t₀) rs := by
  obtain ⟨hfilter, htick⟩ := Att_Algo_Init_keeps samples (Attitude.zero : Attitude ℚ)
  generalize (Att_Algo_Init samples Attitude.zero : Attitude ℚ) = s₀ at hfilter htick ⊢
  refine always_iff_eachStep ?_ fun pre r hpre => ?_
  · exact sub_self s₀.yaw
  · have hrun := run_follows hfilter htick pre
    obtain ⟨-, -, -, -, hyaw⟩ := Att_GetYaw_eq r (s₀.run pre) hrun.filter.symm
    rw [Attitude.run_concat, hyaw, heading_concat, add_sub_right_comm, hpre, add_right_inj,
      hrun.tick, yaw_turn_eq_iff, Undelayed]
    by_cases hnil : pre = []
    · subst hnil
      simp only [if_true]
      have h0 : ∀ x : ℚ, low_pass [x] = 1 / 5 * x := by
        intro x
        show 4 / 5 * (0 : ℚ) + 1 / 5 * x = _
        rw [mul_zero, zero_add]
      have hlast : ∀ t : ℤ, last_tick t [] = t := fun _ => rfl
      rw [List.nil_append, hlast, hlast, sub_zero, Int.cast_sub]
      show integrated (low_pass [_]) * _ = integrated (low_pass [_]) * _ ↔ _
      rw [h0, h0]
    · rw [if_neg hnil]
      have hlast : last_tick 0 pre = last_tick t₀ pre := by
        obtain ⟨pre', r', rfl⟩ := List.exists_cons_of_ne_nil hnil
        rw [last_tick, last_tick, List.map_cons, List.getLastD_cons, List.getLastD_cons]
      rw [hlast, mul_eq_mul_right_iff, Int.cast_eq_zero, sub_eq_zero, or_comm]

/-- A car at rest while it is calibrated, and turning when it is first read. -/
theorem Att_GetYaw_integral_delayed :
    ¬ Always (fun pre => ((Att_Algo_Init (fun _ => ⟨0, 0, 0⟩) Attitude.zero).run pre).yaw -
        (Att_Algo_Init (fun _ => ⟨0, 0, 0⟩) Attitude.zero).yaw =
      heading (Att_Algo_Init (fun _ => ⟨0, 0, 0⟩) Attitude.zero : Attitude ℚ).GyroOffset.z 1000 pre)
      [⟨⟨0, 0, 0⟩, ⟨0, 0, 1000⟩, 1001⟩] := by
  intro h
  exact absurd h.last (by decide +kernel)

end Car2025
