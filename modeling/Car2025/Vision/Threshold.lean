/-
  `Camera_My_Adapt_Threshold`: the gray level that separates the track from the ground.

  1. **Program** — the histogram of every second row and column, and the loop over the gray levels that
     looks for the greatest variance between the two classes.  Arithmetic of `float` is exact; a
     quotient by zero is no number, and no comparison with it holds.

  2. **Histogram** — what the first loops leave is the share of each level among the samples.

  3. **The loop is a climb (`variance_loop_climb`)** — over the variance about the mean, which the
     program rounds down, and up to the first descent.

  4. **Maximum (`Camera_My_Adapt_Threshold_maximal_iff`)** — so the level returned is a maximum of the
     variance exactly when the peak of that first rise is one, and lies above 0 or at level 0.

  5. **Divisors (`variance_divisors_iff`)** — and a divisor is zero exactly when there is no descent.
-/
import Mathlib
import Car2025.Lib.Climb
import Car2025.Lib.TwoClass

namespace Car2025

open Climb TwoClass

/-! ## The program -/

/-- The arguments: `image`, of `height` rows of `width` bytes.  An array has less than 2^31 bytes, so that
    `width * height` and the indices are in the range of `int`. -/
structure GrayImage where
  data : ℕ → UInt8
  width : ℕ
  height : ℕ
  size_lt : width * height < 2 ^ 31

/-- The conversions to `int` and `uint32`. -/
def int32 (x : ℤ) : ℤ := Int.bmod x (2 ^ 32)

def uint32 (x : ℤ) : ℤ := x % 2 ^ 32

theorem int32_of_lt {n : ℕ} (h : n < 2 ^ 31) : int32 n = n := by
  rw [int32]
  apply Int.bmod_eq_of_le
  · omega
  · omega

theorem uint32_of_lt {n : ℕ} (h : n < 2 ^ 32) : uint32 n = n := by
  rw [uint32]
  apply Int.emod_eq_of_lt
  · omega
  · omega

/-- `pixelCount` and `gray_sum`. -/
structure Histogram where
  pixelCount : ℕ → ℤ
  gray_sum : ℤ

/-- One pixel. -/
def Histogram.add (h : Histogram) (gray : ℕ) : Histogram :=
  ⟨Function.update h.pixelCount gray (h.pixelCount gray + 1), uint32 (h.gray_sum + gray)⟩

/-- `for (j = 0; j <width; j+=2)` on row `i`; pass `k` is the one with `j = 2 * k`. -/
def count_row (image : GrayImage) (h : Histogram) (i : ℕ) : Histogram :=
  (List.range ((image.width + 1) / 2)).foldl
    (fun h k => h.add (image.data (i * image.width + 2 * k)).toNat) h

/-- `for (i = 0; i < height; i+=2)` -/
def count_rows (image : GrayImage) : Histogram :=
  (List.range ((image.height + 1) / 2)).foldl (fun h k => count_row image h (2 * k))
    ⟨fun _ => 0, 0⟩

/-- `width * height/4` -/
def pixelSum (image : GrayImage) : ℤ := (int32 (image.width * image.height)).tdiv 4

def pixelPro (image : GrayImage) (i : ℕ) : ℚ := (count_rows image).pixelCount i / pixelSum image

/-- `gray_sum/pixelSum`, an integer. -/
def gray_mean (image : GrayImage) : ℤ := (count_rows image).gray_sum / uint32 (pixelSum image)

/-- A quotient, or no number. -/
def divide (x y : ℚ) : Option ℚ := if y = 0 then none else some (x / y)

/-- `deltaTmp`; `mean` is `gray_sum/pixelSum`. -/
def variance_delta (mean w0 u0tmp : ℚ) : Option ℚ := do
  let w1 := 1 - w0
  let u1tmp := mean - u0tmp
  let u0 ← divide u0tmp w0
  let u1 ← divide u1tmp w1
  let u := u0tmp + u1tmp
  return w0 * (u0 - u) ^ 2 + w1 * (u1 - u) ^ 2

/-- What the loop over the gray levels keeps. -/
structure Otsu where
  w0 : ℚ
  u0tmp : ℚ
  deltaMax : ℚ
  threshold : ℤ

/-- One level: the variables after it, and whether the loop is left. -/
def variance_level (pixelPro : ℕ → ℚ) (mean : ℚ) (j : ℕ) (s : Otsu) : Otsu × Bool :=
  let s := { s with w0 := s.w0 + pixelPro j }
  if pixelPro j = 0 then (s, false)
  else
    let s := { s with u0tmp := s.u0tmp + j * pixelPro j }
    match variance_delta mean s.w0 s.u0tmp with
    | none => (s, false)
    | some deltaTmp =>
      let s := if deltaTmp > s.deltaMax then { s with deltaMax := deltaTmp, threshold := j } else s
      (s, decide (deltaTmp < s.deltaMax))

/-- `n` levels from `j` on. -/
def variance_loop (pixelPro : ℕ → ℚ) (mean : ℚ) : ℕ → ℕ → Otsu → Otsu
  | 0, _, s => s
  | n + 1, j, s =>
    let r := variance_level pixelPro mean j s
    if r.2 then r.1 else variance_loop pixelPro mean n (j + 1) r.1

/-- `w0` and `w1`, where a level divides by them. -/
def level_divisors (pixelPro : ℕ → ℚ) (j : ℕ) (s : Otsu) : List ℚ :=
  if pixelPro j = 0 then [] else [s.w0 + pixelPro j, 1 - (s.w0 + pixelPro j)]

/-- All divisors that the loop uses. -/
def loop_divisors (pixelPro : ℕ → ℚ) (mean : ℚ) : ℕ → ℕ → Otsu → List ℚ
  | 0, _, _ => []
  | n + 1, j, s =>
    let r := variance_level pixelPro mean j s
    level_divisors pixelPro j s ++ if r.2 then [] else loop_divisors pixelPro mean n (j + 1) r.1

/-- `Camera_My_Adapt_Threshold` -/
def Camera_My_Adapt_Threshold (image : GrayImage) : ℤ :=
  let s := variance_loop (pixelPro image) (gray_mean image) 256 0 ⟨0, 0, 0, 0⟩
  let threshold := s.threshold
  let threshold := if threshold > 255 then 255 else threshold
  if threshold < 0 then 0 else threshold

/-- The divisors of its variance loop. -/
def variance_divisors (image : GrayImage) : List ℚ :=
  loop_divisors (pixelPro image) (gray_mean image) 256 0 ⟨0, 0, 0, 0⟩

/-! ## The histogram -/

/-- The gray levels of every second row and column. -/
def GrayImage.samples (image : GrayImage) : List ℕ :=
  (List.range ((image.height + 1) / 2)).flatMap fun i =>
    (List.range ((image.width + 1) / 2)).map fun k =>
      (image.data (2 * i * image.width + 2 * k)).toNat

/-- The share of a gray level among the samples. -/
def GrayImage.share (image : GrayImage) (i : ℕ) : ℚ :=
  image.samples.count i / image.samples.length

/-- The mean that the program uses: the sum, in 32 bits, divided in integers. -/
def GrayImage.roundedMean (image : GrayImage) : ℕ :=
  image.samples.sum % 2 ^ 32 / image.samples.length

section

variable {image : GrayImage}

theorem samples_lt {g : ℕ} (h : g ∈ image.samples) : g < 256 := by
  rw [GrayImage.samples, List.mem_flatMap] at h
  obtain ⟨i, -, h⟩ := h
  obtain ⟨k, -, rfl⟩ := List.mem_map.mp h
  exact UInt8.toNat_lt _

theorem count_rows_eq (image : GrayImage) :
    count_rows image = image.samples.foldl Histogram.add ⟨fun _ => 0, 0⟩ := by
  rw [GrayImage.samples, List.foldl_flatMap]
  simp only [List.foldl_map]
  rfl

theorem uint32_uint32 (x : ℤ) : uint32 (uint32 x) = uint32 x := Int.emod_emod x _

/-- **A run over samples** counts them and adds them up, the sum to 32 bits; by induction on the
    samples. -/
theorem foldl_add (gs : List ℕ) : ∀ h : Histogram, uint32 h.gray_sum = h.gray_sum →
    (∀ k, (gs.foldl Histogram.add h).pixelCount k = h.pixelCount k + gs.count k) ∧
    (gs.foldl Histogram.add h).gray_sum = uint32 (h.gray_sum + gs.sum) := by
  induction gs with
  | nil =>
    intro h hsum
    refine ⟨fun k => (add_zero _).symm, ?_⟩
    rw [List.foldl_nil, List.sum_nil, Nat.cast_zero, add_zero, hsum]
  | cons g gs ih =>
    intro h _
    obtain ⟨hcount, hsum⟩ := ih (h.add g) (uint32_uint32 _)
    rw [List.foldl_cons]
    constructor
    · intro k
      rw [hcount, Histogram.add]
      dsimp only
      by_cases hk : k = g
      · rw [hk, Function.update_self, List.count_cons_self]
        push_cast
        ring
      · rw [Function.update_of_ne hk, List.count_cons_of_ne (Ne.symm hk)]
    · rw [hsum, Histogram.add, uint32, uint32, uint32, Int.emod_add_emod, List.sum_cons,
        Nat.cast_add, add_assoc]

theorem pixelCount_eq (image : GrayImage) (k : ℕ) :
    (count_rows image).pixelCount k = image.samples.count k := by
  rw [count_rows_eq, (foldl_add image.samples _ rfl).1, zero_add]

theorem gray_sum_eq (image : GrayImage) :
    (count_rows image).gray_sum = (image.samples.sum % 2 ^ 32 : ℕ) := by
  rw [count_rows_eq, (foldl_add image.samples _ rfl).2, zero_add, uint32]
  push_cast
  rfl

theorem samples_length (image : GrayImage) :
    image.samples.length = (image.height + 1) / 2 * ((image.width + 1) / 2) := by
  rw [GrayImage.samples, List.length_flatMap]
  simp only [List.length_map, List.length_range, List.map_const', List.sum_replicate, smul_eq_mul]

/-- For even sizes `width * height/4` is the number of samples. -/
theorem pixelSum_eq (hw : image.width % 2 = 0) (hh : image.height % 2 = 0) :
    pixelSum image = image.samples.length := by
  have hsize := image.size_lt
  obtain ⟨w, hw⟩ : ∃ w, image.width = 2 * w := ⟨image.width / 2, by omega⟩
  obtain ⟨h, hh⟩ : ∃ h, image.height = 2 * h := ⟨image.height / 2, by omega⟩
  rw [hw, hh] at hsize
  have hrows : (2 * h + 1) / 2 = h := by omega
  have hcols : (2 * w + 1) / 2 = w := by omega
  have hprod : 2 * w * (2 * h) = 4 * (h * w) := by ring
  rw [hprod] at hsize
  have hint : int32 ((image.width : ℤ) * image.height) = 4 * ((h * w : ℕ) : ℤ) := by
    rw [hw, hh, ← Nat.cast_mul, hprod, int32_of_lt hsize, Nat.cast_mul 4, Nat.cast_ofNat]
  rw [pixelSum, hint, samples_length, hw, hh, hrows, hcols,
    Int.mul_tdiv_cancel_left _ (by omega)]

theorem share_nonneg (image : GrayImage) (i : ℕ) : 0 ≤ image.share i :=
  div_nonneg (Nat.cast_nonneg _) (Nat.cast_nonneg _)

/-- The levels that have a share are those of the samples. -/
theorem share_ne_zero_iff {i : ℕ} : image.share i ≠ 0 ↔ i ∈ image.samples := by
  rw [GrayImage.share, div_ne_zero_iff, Nat.cast_ne_zero, Nat.cast_ne_zero, ← Nat.pos_iff_ne_zero,
    List.count_pos_iff, ← Nat.pos_iff_ne_zero, and_iff_left_iff_imp]
  exact fun hi => List.length_pos_of_mem hi

theorem sum_count_of_lt {gs : List ℕ} {N : ℕ} (h : ∀ g ∈ gs, g < N) :
    ∑ i ∈ Finset.Ico 0 N, gs.count i = gs.length := by
  rw [← Multiset.coe_card]
  simp only [← Multiset.coe_count]
  exact Multiset.sum_count_eq_card fun g hg => Finset.mem_Ico.mpr ⟨Nat.zero_le g, h g hg⟩

theorem sum_mul_count_of_lt {gs : List ℕ} {N : ℕ} (h : ∀ g ∈ gs, g < N) :
    ∑ i ∈ Finset.Ico 0 N, i * gs.count i = gs.sum := by
  induction gs with
  | nil => simp
  | cons g gs ih =>
    have hg : g ∈ Finset.Ico 0 N := Finset.mem_Ico.mpr ⟨Nat.zero_le g, h g List.mem_cons_self⟩
    simp only [List.count_cons, mul_add, Finset.sum_add_distrib, List.sum_cons, beq_iff_eq,
      mul_ite, mul_one, mul_zero]
    rw [ih fun k hk => h k (List.mem_cons_of_mem g hk), Finset.sum_ite_eq, if_pos hg, add_comm]

theorem share_total (h : image.samples ≠ []) : mass image.share 0 256 = 1 := by
  have hlength : (image.samples.length : ℚ) ≠ 0 :=
    Nat.cast_ne_zero.mpr (List.length_pos_iff.mpr h).ne'
  simp only [mass, GrayImage.share]
  rw [← Finset.sum_div, ← Nat.cast_sum, sum_count_of_lt fun g hg => samples_lt hg,
    div_self hlength]

/-- **The tables** hold the shares of the samples, and the quotient is their rounded mean.  The
    size must be even: only then does the number of samples that the code divides by agree with the
    number that it takes. -/
theorem pixelPro_eq (hw : image.width % 2 = 0) (hh : image.height % 2 = 0) :
    pixelPro image = image.share := by
  funext i
  rw [pixelPro, pixelCount_eq, pixelSum_eq hw hh, GrayImage.share, Int.cast_natCast,
    Int.cast_natCast]

theorem gray_mean_eq (hw : image.width % 2 = 0) (hh : image.height % 2 = 0) :
    gray_mean image = image.roundedMean := by
  have hsize := image.size_lt
  have hlt : image.samples.length < 2 ^ 32 := by
    have hle : image.samples.length ≤ image.width * image.height := by
      rw [samples_length, mul_comm]
      exact Nat.mul_le_mul (by omega) (by omega)
    omega
  rw [gray_mean, gray_sum_eq, pixelSum_eq hw hh, uint32_of_lt hlt, GrayImage.roundedMean, Int.natCast_div]

end

/-! ## The loop is a climb -/

/-- A level of the samples that is not the highest. -/
def GrayImage.Inner (image : GrayImage) (j : ℕ) : Prop :=
  j ∈ image.samples ∧ ∃ k ∈ image.samples, j < k

instance (image : GrayImage) (j : ℕ) : Decidable (image.Inner j) :=
  inferInstanceAs (Decidable (j ∈ image.samples ∧ ∃ k ∈ image.samples, j < k))

/-- The variance about the rounded mean, with the classes up to level `j` and above it. -/
def GrayImage.roundedVariance (image : GrayImage) (j : ℕ) : ℚ :=
  about image.share image.roundedMean j

/-- What the loop compares at a level. -/
def GrayImage.heights (image : GrayImage) (j : ℕ) : Option ℚ :=
  if image.Inner j then some (image.roundedVariance j) else none

section

variable {image : GrayImage} {j : ℕ} {s : Otsu} {best : ℚ × ℕ} {v : ℚ}

theorem heights_eq_some_iff :
    image.heights j = some v ↔ image.Inner j ∧ image.roundedVariance j = v := by
  rw [GrayImage.heights]
  by_cases hj : image.Inner j
  · rw [if_pos hj, Option.some.injEq, and_iff_right hj]
  · rw [if_neg hj]
    exact iff_of_false (fun h => by cases h) (fun h => hj h.1)

theorem heights_inner (h : image.Inner j) : image.heights j = some (image.roundedVariance j) :=
  heights_eq_some_iff.mpr ⟨h, rfl⟩

theorem heights_eq_none_iff : image.heights j = none ↔ ¬ image.Inner j := by
  rw [GrayImage.heights, ite_eq_right_iff]
  exact ⟨fun h hj => Option.some_ne_none _ (h hj), fun h hj => absurd hj h⟩

/-- Below an inner level and above it there are samples. -/
theorem inner_iff (hj : j < 256) (h : image.samples ≠ []) :
    image.Inner j ↔ image.share j ≠ 0 ∧ 1 - mass image.share 0 (j + 1) ≠ 0 := by
  have hupper : 1 - mass image.share 0 (j + 1) = mass image.share (j + 1) 256 := by
    rw [← share_total h, mass_split (Nat.zero_le _) hj, add_sub_cancel_left]
  have hpos : mass image.share (j + 1) 256 ≠ 0 ↔ 0 < mass image.share (j + 1) 256 :=
    ⟨fun hne => lt_of_le_of_ne (mass_nonneg (share_nonneg image) _ _) hne.symm, fun hlt => hlt.ne'⟩
  rw [hupper, hpos, mass_pos_iff (share_nonneg image), share_ne_zero_iff, GrayImage.Inner]
  apply and_congr_right
  intro _
  constructor
  · rintro ⟨k, hk, hjk⟩
    exact ⟨k, hjk, samples_lt hk, share_ne_zero_iff.mpr hk⟩
  · rintro ⟨k, hjk, -, hk⟩
    exact ⟨k, share_ne_zero_iff.mp hk, hjk⟩

theorem mass_pos_of_share (h : image.share j ≠ 0) : 0 < mass image.share 0 (j + 1) :=
  (mass_pos_iff (share_nonneg image)).mpr ⟨j, Nat.zero_le j, Nat.lt_succ_self j, h⟩

/-- Nothing lies above the highest level of the samples. -/
theorem upper_zero (hj : j < 256) (hne : image.samples ≠ []) (hshare : image.share j ≠ 0)
    (hinner : ¬ image.Inner j) : 1 - mass image.share 0 (j + 1) = 0 := by
  by_contra hhigh
  exact hinner ((inner_iff hj hne).mpr ⟨hshare, hhigh⟩)

theorem mass_le_one (h : image.samples ≠ []) (hj : j ≤ 256) : mass image.share 0 j ≤ 1 := by
  rw [← share_total h, mass_split (Nat.zero_le j) hj]
  exact le_add_of_nonneg_right (mass_nonneg (share_nonneg image) _ _)

theorem roundedVariance_nonneg (h : image.samples ≠ []) (hj : j < 256) :
    0 ≤ image.roundedVariance j :=
  about_nonneg (mass_nonneg (share_nonneg image) _ _) (mass_le_one h hj)

theorem inner_lt (h : image.Inner j) : j < 256 := samples_lt h.1

/-- The climb starts at the floor: no variance is below the 0 that it starts from. -/
theorem heights_floor (a : ℕ) (v : ℚ) (h : image.heights a = some v) : 0 ≤ v := by
  obtain ⟨ha, rfl⟩ := heights_eq_some_iff.mp h
  exact roundedVariance_nonneg (List.ne_nil_of_mem ha.1) (inner_lt ha)

/-- `deltaTmp` is the variance about the mean that is passed, where no divisor is zero. -/
theorem variance_delta_eq (p : ℕ → ℚ) (m : ℚ) (j : ℕ) (hlow : mass p 0 (j + 1) ≠ 0) :
    variance_delta m (mass p 0 (j + 1)) (moment p 0 (j + 1)) =
      if 1 - mass p 0 (j + 1) = 0 then none else some (about p m j) := by
  simp only [variance_delta, divide, if_neg hlow]
  by_cases hhigh : 1 - mass p 0 (j + 1) = 0
  · rw [if_pos hhigh, if_pos hhigh]
    rfl
  · rw [if_neg hhigh, if_neg hhigh]
    simp only [Option.bind_eq_bind, Option.bind_some, Option.pure_def, about, mean,
      add_sub_cancel]

/-- The variables at level `j`: the sums of the levels before it, and the best of the climb.  This
    is what ties the loop to the climb of the library, which knows only the heights. -/
structure Carries (image : GrayImage) (j : ℕ) (s : Otsu) (best : ℚ × ℕ) : Prop where
  w0 : s.w0 = mass image.share 0 j
  u0tmp : s.u0tmp = moment image.share 0 j
  deltaMax : s.deltaMax = best.1
  threshold : s.threshold = best.2

theorem Carries.init (image : GrayImage) : Carries image 0 ⟨0, 0, 0, 0⟩ (0, 0) :=
  ⟨(mass_self _ 0).symm, (moment_self _ 0).symm, rfl, rfl⟩

theorem Carries.add_w0 (h : Carries image j s best) :
    s.w0 + image.share j = mass image.share 0 (j + 1) := by
  rw [h.w0, mass_succ (Nat.zero_le j)]

theorem Carries.add_u0tmp (h : Carries image j s best) :
    s.u0tmp + j * image.share j = moment image.share 0 (j + 1) := by
  rw [h.u0tmp, moment_succ (Nat.zero_le j)]

/-- **One level** that the climb passes over: no sample has it and the code skips it, or it is the
    highest one and the code divides by zero, which no comparison is true of. -/
theorem Carries.skip (h : Carries image j s best) (hj : j < 256) (hne : image.samples ≠ [])
    (hnone : image.heights j = none) :
    (variance_level image.share image.roundedMean j s).2 = false ∧
      Carries image (j + 1) (variance_level image.share image.roundedMean j s).1 best := by
  simp only [variance_level]
  by_cases hshare : image.share j = 0
  · have hu0 := h.add_u0tmp
    rw [hshare, mul_zero, add_zero] at hu0
    rw [if_pos hshare]
    exact ⟨rfl, h.add_w0, hu0, h.deltaMax, h.threshold⟩
  · -- the highest level: nothing is left for the upper class
    have hhigh := upper_zero hj hne hshare (heights_eq_none_iff.mp hnone)
    rw [if_neg hshare, h.add_w0, h.add_u0tmp,
      variance_delta_eq _ _ _ (mass_pos_of_share hshare).ne', if_pos hhigh]
    exact ⟨rfl, rfl, rfl, h.deltaMax, h.threshold⟩

/-- **One level** that it compares: the code's two tests are those of the climb, and after a new
    maximum the fall cannot be true. -/
theorem Carries.compare (h : Carries image j s best) (hv : image.heights j = some v) :
    (variance_level image.share image.roundedMean j s).2 = decide (v < best.1) ∧
      Carries image (j + 1) (variance_level image.share image.roundedMean j s).1
        (if best.1 < v then (v, j) else best) := by
  obtain ⟨hinner, hv⟩ := heights_eq_some_iff.mp hv
  obtain ⟨hshare, hhigh⟩ := (inner_iff (inner_lt hinner) (List.ne_nil_of_mem hinner.1)).mp hinner
  simp only [variance_level]
  rw [if_neg hshare, h.add_w0, h.add_u0tmp,
    variance_delta_eq _ _ _ (mass_pos_of_share hshare).ne', if_neg hhigh,
    ← GrayImage.roundedVariance, hv]
  simp only [h.deltaMax, gt_iff_lt]
  by_cases hgt : best.1 < v
  · rw [if_pos hgt, if_pos hgt]
    refine ⟨?_, rfl, rfl, rfl, rfl⟩
    rw [decide_eq_false (lt_irrefl v), decide_eq_false hgt.not_gt]
  · rw [if_neg hgt, if_neg hgt]
    exact ⟨rfl, rfl, rfl, rfl, h.threshold⟩

/-- **The loop** ends with the place that the climb ends with, by induction on the levels that are
    left. -/
theorem variance_loop_climb (hne : image.samples ≠ []) : ∀ (n j : ℕ) (s : Otsu) (best : ℚ × ℕ),
    j + n = 256 → Carries image j s best →
    (variance_loop image.share image.roundedMean n j s).threshold =
      (climb image.heights n j best).2 := by
  intro n
  induction n with
  | zero => exact fun j s best _ h => h.threshold
  | succ n ih =>
    intro j s best hn h
    rw [variance_loop]
    cases hv : image.heights j with
    | none =>
      obtain ⟨hgo, hnext⟩ := h.skip (by omega) hne hv
      rw [climb_none hv, hgo, if_neg Bool.false_ne_true]
      exact ih (j + 1) _ best (by omega) hnext
    | some v =>
      obtain ⟨hgo, hnext⟩ := h.compare hv
      rw [hgo]
      by_cases hfall : v < best.1
      · rw [climb_fall hv hfall, decide_eq_true hfall, if_pos rfl]
        rw [if_neg hfall.not_gt] at hnext
        exact hnext.threshold
      · rw [climb_go hv hfall, decide_eq_false hfall, if_neg Bool.false_ne_true]
        exact ih (j + 1) _ _ (by omega) hnext

/-! ## The maximum -/

/-- **What is returned**: the peak of the first rise, or 0 where all inner levels have variance 0.
    The loop starts from a maximum of 0, so only a positive variance ever replaces it. -/
theorem Camera_My_Adapt_Threshold_climb (hw : image.width % 2 = 0) (hh : image.height % 2 = 0)
    (hne : image.samples ≠ []) :
    (Camera_My_Adapt_Threshold image = 0 ∧
      ∀ a, image.Inner a → image.roundedVariance a = 0) ∨
    ∃ t : ℕ, Camera_My_Adapt_Threshold image = t ∧ t ≤ 255 ∧ 0 < image.roundedVariance t ∧
      Peak image.heights 256 t (image.roundedVariance t) := by
  have hclimb := variance_loop_climb hne 256 0 _ _ rfl (Carries.init image)
  have hresult := climb_result (0, 0) heights_floor 256 0 (0, 0) rfl
    (Climbed.init image.heights (0, 0))
  simp only [Camera_My_Adapt_Threshold, pixelPro_eq hw hh, gray_mean_eq hw hh, Int.cast_natCast]
  rw [hclimb]
  generalize climb image.heights 256 0 (0, 0) = r at hresult
  rcases hresult with ⟨rfl, hall⟩ | ⟨hpos, hpeak⟩
  · refine Or.inl ⟨rfl, fun a ha => ?_⟩
    exact hall a (inner_lt ha) _ (heights_inner ha)
  · have hlt := hpeak.lt
    have heq := (heights_eq_some_iff.mp hpeak.place).2
    rw [← heq] at hpos hpeak
    refine Or.inr ⟨r.2, ?_, by omega, hpos, hpeak⟩
    rw [if_neg (by omega), if_neg (by omega)]

theorem inner_of_two (h : ∃ a ∈ image.samples, ∃ b ∈ image.samples, a ≠ b) :
    ∃ j, image.Inner j := by
  obtain ⟨a, ha, b, hb, hab⟩ := h
  rcases lt_or_gt_of_ne hab with hlt | hgt
  · exact ⟨a, ha, b, hb, hlt⟩
  · exact ⟨b, hb, a, ha, hgt⟩

/-- The variance between the classes is positive at an inner level, and level 0 is one if it is
    positive there. -/
theorem between_pos_of_inner (h : image.Inner j) : 0 < between image.share 256 j := by
  obtain ⟨hj, k, hk, hjk⟩ := h
  refine (between_pos_iff (share_nonneg image)).mpr
    ⟨mass_pos_of_share (share_ne_zero_iff.mpr hj), (mass_pos_iff (share_nonneg image)).mpr ?_⟩
  exact ⟨k, hjk, samples_lt hk, share_ne_zero_iff.mpr hk⟩

theorem inner_zero (h : 0 < between image.share 256 0) : image.Inner 0 := by
  obtain ⟨hlow, hhigh⟩ := (between_pos_iff (share_nonneg image)).mp h
  obtain ⟨i, -, hi, hshare⟩ := (mass_pos_iff (share_nonneg image)).mp hlow
  obtain ⟨k, hk, -, hshare'⟩ := (mass_pos_iff (share_nonneg image)).mp hhigh
  obtain rfl : i = 0 := by omega
  exact ⟨share_ne_zero_iff.mp hshare, k, share_ne_zero_iff.mp hshare', hk⟩

/-- **Maximum** — the level returned has the greatest variance between the classes exactly when the peak
    of the first rise of the variance about the rounded mean has, and lies above 0 or at level 0. -/
theorem Camera_My_Adapt_Threshold_maximal_iff (hw : image.width % 2 = 0)
    (hh : image.height % 2 = 0) (htwo : ∃ a ∈ image.samples, ∃ b ∈ image.samples, a ≠ b) :
    (0 ≤ Camera_My_Adapt_Threshold image ∧ Camera_My_Adapt_Threshold image ≤ 255 ∧
      ∀ c ≤ 255, between image.share 256 c ≤
        between image.share 256 (Camera_My_Adapt_Threshold image).toNat) ↔
    ∃ t, Peak image.heights 256 t (image.roundedVariance t) ∧
      (image.roundedVariance t = 0 → t = 0) ∧
      ∀ c ≤ 255, between image.share 256 c ≤ between image.share 256 t := by
  obtain ⟨j, hj⟩ := inner_of_two htwo
  have hresult := Camera_My_Adapt_Threshold_climb hw hh (List.ne_nil_of_mem hj.1)
  constructor
  · rintro ⟨-, -, hmax⟩
    rcases hresult with ⟨hzero, hall⟩ | ⟨t, heq, -, hpos, hpeak⟩
    · rw [hzero] at hmax
      -- level 0 is returned and is a maximum, so it is inner and its own peak
      have hinner : image.Inner 0 := by
        have hj255 := inner_lt hj
        exact inner_zero ((between_pos_of_inner hj).trans_le (hmax j (by omega)))
      refine ⟨0, ⟨heights_inner hinner, by omega, ?_, ?_, ?_⟩, fun _ => rfl, hmax⟩
      · exact fun a b hab hb => absurd (hab.trans_le (Nat.le_of_lt_succ hb)) (Nat.not_lt_zero a)
      · exact fun a ha => absurd ha (Nat.not_lt_zero a)
      · intro c _ w hw hlt
        obtain ⟨hc, rfl⟩ := heights_eq_some_iff.mp hw
        rw [hall c hc, hall 0 hinner] at hlt
        exact absurd hlt (lt_irrefl 0)
    · rw [heq, Int.toNat_natCast] at hmax
      exact ⟨t, hpeak, fun hzero => absurd hzero hpos.ne', hmax⟩
  · rintro ⟨t, hpeak, hzero, hmax⟩
    have ht := hpeak.lt
    -- there is one peak of the first rise only
    have heq : Camera_My_Adapt_Threshold image = t := by
      rcases hresult with ⟨heq, hall⟩ | ⟨t', heq, -, -, hpeak'⟩
      · rw [heq, hzero (hall t (heights_eq_some_iff.mp hpeak.place).1), Nat.cast_zero]
      · rw [heq, (hpeak.unique hpeak').1]
    rw [heq, Int.toNat_natCast]
    exact ⟨by omega, by omega, hmax⟩

/-- Two samples, of the gray levels 10 and 11. -/
def twoGrays : GrayImage := ⟨fun k => if k = 0 then 10 else 11, 4, 2, by decide⟩

/-- Their mean is rounded to 10, the variance about it is 0, and level 0 is returned. -/
theorem Camera_My_Adapt_Threshold_zero :
    twoGrays.width % 2 = 0 ∧ twoGrays.height % 2 = 0 ∧
    (∃ a ∈ twoGrays.samples, ∃ b ∈ twoGrays.samples, a ≠ b) ∧
    ¬ (0 ≤ Camera_My_Adapt_Threshold twoGrays ∧ Camera_My_Adapt_Threshold twoGrays ≤ 255 ∧
      ∀ c ≤ 255, between twoGrays.share 256 c ≤
        between twoGrays.share 256 (Camera_My_Adapt_Threshold twoGrays).toNat) := by
  refine ⟨by decide, by decide, by decide, ?_⟩
  rintro ⟨-, -, hmax⟩
  have hzero : Camera_My_Adapt_Threshold twoGrays = 0 := by decide +kernel
  have hinner : twoGrays.Inner 10 := by decide
  rw [hzero] at hmax
  have hlevel : 0 ∈ twoGrays.samples :=
    (inner_zero ((between_pos_of_inner hinner).trans_le (hmax 10 (by omega)))).1
  exact absurd hlevel (by decide)

/-- Two dark samples and two bright ones. -/
def fourGrays : GrayImage :=
  ⟨fun k => if k = 0 then 10 else if k = 2 then 20 else if k = 8 then 200 else 210, 4, 4, by decide⟩

theorem Camera_My_Adapt_Threshold_maximal_fourGrays :
    (0 ≤ Camera_My_Adapt_Threshold fourGrays ∧ Camera_My_Adapt_Threshold fourGrays ≤ 255 ∧
      ∀ c ≤ 255, between fourGrays.share 256 c ≤
        between fourGrays.share 256 (Camera_My_Adapt_Threshold fourGrays).toNat) ↔
    ∃ t, Peak fourGrays.heights 256 t (fourGrays.roundedVariance t) ∧
      (fourGrays.roundedVariance t = 0 → t = 0) ∧
      ∀ c ≤ 255, between fourGrays.share 256 c ≤ between fourGrays.share 256 t :=
  Camera_My_Adapt_Threshold_maximal_iff (by decide) (by decide) (by decide)

/-- A level that has both classes has those of an inner level. -/
theorem between_eq_inner : ∀ c : ℕ, 0 < between image.share 256 c →
    ∃ j, image.Inner j ∧ between image.share 256 j = between image.share 256 c := by
  intro c
  induction c with
  | zero => exact fun h => ⟨0, inner_zero h, rfl⟩
  | succ c ih =>
    intro h
    obtain ⟨-, hhigh⟩ := (between_pos_iff (share_nonneg image)).mp h
    obtain ⟨k, hk, hk256, hshare⟩ := (mass_pos_iff (share_nonneg image)).mp hhigh
    by_cases hc : c + 1 ∈ image.samples
    · exact ⟨c + 1, ⟨hc, k, share_ne_zero_iff.mp hshare, hk⟩, rfl⟩
    · have hzero : image.share (c + 1) = 0 := by
        by_contra hne
        exact hc (share_ne_zero_iff.mp hne)
      have hlow : mass image.share 0 (c + 1 + 1) = mass image.share 0 (c + 1) := by
        rw [mass_succ (Nat.zero_le _), hzero, add_zero]
      have hlow' : moment image.share 0 (c + 1 + 1) = moment image.share 0 (c + 1) := by
        rw [moment_succ (Nat.zero_le _), hzero, mul_zero, add_zero]
      have hupper : mass image.share (c + 1) 256 = mass image.share (c + 1 + 1) 256 := by
        rw [mass_split (Nat.le_succ (c + 1)) (by omega), mass_succ (le_refl _), mass_self, hzero,
          zero_add, zero_add]
      have hupper' : moment image.share (c + 1) 256 = moment image.share (c + 1 + 1) 256 := by
        rw [moment_split (Nat.le_succ (c + 1)) (by omega), moment_succ (le_refl _), moment_self,
          hzero, mul_zero, zero_add, zero_add]
      have hsame : between image.share 256 (c + 1) = between image.share 256 c := by
        rw [between, between, mean, mean, mean, mean, hlow, hlow', hupper, hupper']
      rw [hsame] at h ⊢
      exact ih h

/-- Without rounding the loop compares the variance between the classes. -/
theorem roundedVariance_exact (hdvd : image.samples.length ∣ image.samples.sum)
    (hsum : image.samples.sum < 2 ^ 32) (hj : image.Inner j) :
    image.roundedVariance j = between image.share 256 j := by
  have hne : image.samples ≠ [] := List.ne_nil_of_mem hj.1
  have hlength : (image.samples.length : ℚ) ≠ 0 :=
    Nat.cast_ne_zero.mpr (List.length_pos_iff.mpr hne).ne'
  have hmean : (image.roundedMean : ℚ) = moment image.share 0 256 := by
    rw [GrayImage.roundedMean, Nat.mod_eq_of_lt hsum, Nat.cast_div hdvd hlength, moment,
      ← sum_mul_count_of_lt fun g hg => samples_lt hg, Nat.cast_sum, Finset.sum_div]
    apply Finset.sum_congr rfl
    intro i _
    rw [GrayImage.share, Nat.cast_mul, mul_div_assoc]
  obtain ⟨hshare, hhigh⟩ := (inner_iff (inner_lt hj) hne).mp hj
  rw [GrayImage.roundedVariance, hmean]
  exact about_eq_between (inner_lt hj) (share_total hne) (mass_pos_of_share hshare).ne' hhigh

/-- **Where the mean is an integer and the variance has one hump**, the level returned is a
    maximum: rounding changes nothing, and after the first peak nothing rises again. -/
theorem Camera_My_Adapt_Threshold_one_hump (hw : image.width % 2 = 0) (hh : image.height % 2 = 0)
    (htwo : ∃ a ∈ image.samples, ∃ b ∈ image.samples, a ≠ b)
    (hdvd : image.samples.length ∣ image.samples.sum) (hsum : image.samples.sum < 2 ^ 32)
    (hhump : ∀ a b c, a < b → b < c → image.Inner a → image.Inner b → image.Inner c →
      between image.share 256 b < between image.share 256 a →
        between image.share 256 c ≤ between image.share 256 b) :
    ∀ c, between image.share 256 c ≤
      between image.share 256 (Camera_My_Adapt_Threshold image).toNat := by
  obtain ⟨j, hj⟩ := inner_of_two htwo
  -- with a whole mean the heights of the climb are the variances
  have hexact : ∀ {i v}, image.heights i = some v →
      image.Inner i ∧ between image.share 256 i = v := by
    intro i v hi
    obtain ⟨hinner, hv⟩ := heights_eq_some_iff.mp hi
    exact ⟨hinner, (roundedVariance_exact hdvd hsum hinner).symm.trans hv⟩
  rcases Camera_My_Adapt_Threshold_climb hw hh (List.ne_nil_of_mem hj.1) with
    ⟨-, hall⟩ | ⟨t, heq, -, -, hpeak⟩
  · have hpos := between_pos_of_inner hj
    rw [← roundedVariance_exact hdvd hsum hj, hall j hj] at hpos
    exact absurd hpos (lt_irrefl 0)
  · have hhighest := hpeak.highest fun a b c hab hbc u w x hu hw hx hlt => by
      obtain ⟨ha, rfl⟩ := hexact hu
      obtain ⟨hb, rfl⟩ := hexact hw
      obtain ⟨hc, rfl⟩ := hexact hx
      exact hhump a b c hab hbc ha hb hc hlt
    rw [heq, Int.toNat_natCast, (hexact hpeak.place).2]
    intro c
    rcases (between_nonneg (share_nonneg image) 256 c).eq_or_lt with hzero | hpos
    · rw [← hzero]
      exact heights_floor t _ hpeak.place
    · obtain ⟨i, hi, hsame⟩ := between_eq_inner c hpos
      rw [← hsame, ← roundedVariance_exact hdvd hsum hi]
      exact hhighest i (inner_lt hi) _ (heights_inner hi)

/-! ## The divisors -/

/-- From level `j` on, while there has been no descent and there are samples left. -/
theorem loop_divisors_iff : ∀ (n j : ℕ) (s : Otsu) (best : ℚ × ℕ), j + n = 256 →
    Carries image j s best → Climbed image.heights (0, 0) j best →
    (∃ k ∈ image.samples, j ≤ k) →
    ((∀ d ∈ loop_divisors image.share image.roundedMean n j s, d ≠ 0) ↔
      ¬ Rising image.heights 256) := by
  intro n
  induction n with
  | zero =>
    rintro j s best hn - - ⟨k, hk, hjk⟩
    have hk256 := samples_lt hk
    omega
  | succ n ih =>
    rintro j s best hn h hclimb ⟨k, hk, hjk⟩
    have hne : image.samples ≠ [] := List.ne_nil_of_mem hk
    rw [loop_divisors, List.forall_mem_append, level_divisors, h.add_w0]
    by_cases hshare : image.share j = 0
    · -- no sample has this level
      have hj : j ∉ image.samples := fun hj => share_ne_zero_iff.mpr hj hshare
      have hnone : image.heights j = none := heights_eq_none_iff.mpr fun hinner => hj hinner.1
      obtain ⟨hgo, hnext⟩ := h.skip (by omega) hne hnone
      rw [if_pos hshare, hgo, if_neg Bool.false_ne_true]
      have hrest := ih (j + 1) _ best (by omega) hnext (hclimb.skip hnone)
        ⟨k, hk, lt_of_le_of_ne hjk fun heq => hj (heq ▸ hk)⟩
      exact (and_iff_right fun d hd => absurd hd List.not_mem_nil).trans hrest
    · rw [if_neg hshare]
      by_cases hinner : image.Inner j
      · obtain ⟨-, hhigh⟩ := (inner_iff (by omega) hne).mp hinner
        have hdivisors : ∀ d ∈ [mass image.share 0 (j + 1), 1 - mass image.share 0 (j + 1)],
            d ≠ 0 := by
          refine List.forall_mem_cons.mpr ⟨(mass_pos_of_share hshare).ne', fun d hd => ?_⟩
          rw [List.mem_singleton.mp hd]
          exact hhigh
        have hv := heights_inner hinner
        obtain ⟨hgo, hnext⟩ := h.compare hv
        rw [and_iff_right hdivisors, hgo]
        by_cases hfall : image.roundedVariance j < best.1
        · rw [decide_eq_true hfall, if_pos rfl]
          have hdown := (hclimb.fall (heights_floor j _ hv) hv hfall).2 256 (by omega)
          exact iff_of_true (fun d hd => absurd hd List.not_mem_nil) hdown
        · rw [decide_eq_false hfall, if_neg Bool.false_ne_true]
          obtain ⟨k', hk', hjk'⟩ := hinner.2
          exact ih (j + 1) _ _ (by omega) hnext (hclimb.go hv (not_lt.mp hfall)) ⟨k', hk', hjk'⟩
      · -- the highest level is reached without a descent
        refine iff_of_false (fun hall => ?_) (not_not.mpr ?_)
        · apply hall.1 _ (List.mem_cons_of_mem _ List.mem_cons_self)
          exact upper_zero (by omega) hne hshare hinner
        · have hj : j ∈ image.samples := share_ne_zero_iff.mp hshare
          intro a b hab _ u w hu hw
          obtain ⟨hb, k', hk', hbk'⟩ := (heights_eq_some_iff.mp hw).1
          -- a sample above an inner level beyond `j` would be above `j`
          have hbj : b < j := by
            by_contra hbj
            exact hinner ⟨hj, k', hk', by omega⟩
          exact hclimb.rising a b hab hbj u w hu hw

/-- **Divisors** — all divisors of the loop are nonzero exactly when the variance about the rounded mean
    falls between two levels of the samples below the highest one. -/
theorem variance_divisors_iff (hw : image.width % 2 = 0) (hh : image.height % 2 = 0)
    (hwidth : 2 ≤ image.width) (hheight : 2 ≤ image.height) :
    (∀ d ∈ variance_divisors image, d ≠ 0) ↔
      ∃ a b, a < b ∧ image.Inner a ∧ image.Inner b ∧
        image.roundedVariance b < image.roundedVariance a := by
  have hlength : 0 < image.samples.length := by
    rw [samples_length]
    exact Nat.mul_pos (by omega) (by omega)
  obtain ⟨k, hk⟩ := List.exists_mem_of_length_pos hlength
  rw [variance_divisors, pixelPro_eq hw hh, gray_mean_eq hw hh, Int.cast_natCast,
    loop_divisors_iff 256 0 _ (0, 0) rfl (Carries.init image) (Climbed.init _ _)
      ⟨k, hk, Nat.zero_le k⟩]
  constructor
  · intro hfall
    by_contra hnone
    apply hfall
    intro a b hab _ u w hu hw
    obtain ⟨ha, rfl⟩ := heights_eq_some_iff.mp hu
    obtain ⟨hb, rfl⟩ := heights_eq_some_iff.mp hw
    by_contra hlt
    exact hnone ⟨a, b, hab, ha, hb, not_le.mp hlt⟩
  · rintro ⟨a, b, hab, ha, hb, hlt⟩ hrising
    have hle := hrising a b hab (inner_lt hb) _ _ (heights_inner ha) (heights_inner hb)
    exact absurd hlt (not_lt.mpr hle)

end

/-- With two levels there is no descent, and the loop divides by `w1` at the highest one. -/
theorem variance_divisors_zero :
    twoGrays.width % 2 = 0 ∧ twoGrays.height % 2 = 0 ∧ 2 ≤ twoGrays.width ∧ 2 ≤ twoGrays.height ∧
      ¬ ∀ d ∈ variance_divisors twoGrays, d ≠ 0 := by
  refine ⟨by decide, by decide, by decide, by decide, fun h => ?_⟩
  have hzero : (0 : ℚ) ∈ variance_divisors twoGrays := by decide +kernel
  exact h 0 hzero rfl

/-- The variance falls from level 20 to level 200, and the loop is left there. -/
theorem variance_divisors_fourGrays : (0 : ℚ) ∉ variance_divisors fourGrays := by
  intro h
  have hnonzero : ∀ d ∈ variance_divisors fourGrays, d ≠ 0 :=
    (variance_divisors_iff (by decide) (by decide) (by decide) (by decide)).mpr
      ⟨20, 200, by decide, by decide, by decide, by decide +kernel⟩
  exact hnonzero 0 h rfl

end Car2025
