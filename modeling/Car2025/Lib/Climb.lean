/-
  Scans that keep the highest place so far and stop at the first descent.

  1. **Program (`climb`)** — the places are numbered, and some have no height; a place that is higher
     than the best so far becomes the best, and one that is lower ends the scan.

  2. **Specification (`Peak`)** — the first place at the height that the first rise ends with.

  3. **Invariant (`Climbed`)** — nothing has gone down so far, and the best is the first highest place.

  4. **Result (`climb_result`)** — the scan returns the peak, or what it started with where no place is
     higher than that.
-/
import Mathlib

namespace Climb

variable {α : Type} [LinearOrder α] {f : ℕ → Option α} {start best : α × ℕ} {i N t : ℕ} {v : α}

/-! ## The program -/

/-- The scan of `n` places from place `i` on, with the best height so far and its place. -/
def climb (f : ℕ → Option α) : ℕ → ℕ → α × ℕ → α × ℕ
  | 0, _, best => best
  | n + 1, i, best =>
    match f i with
    | none => climb f n (i + 1) best
    | some v =>
      if v < best.1 then best else climb f n (i + 1) (if best.1 < v then (v, i) else best)

theorem climb_none (h : f i = none) (n : ℕ) : climb f (n + 1) i best = climb f n (i + 1) best := by
  rw [climb, h]

theorem climb_fall (h : f i = some v) (hv : v < best.1) (n : ℕ) :
    climb f (n + 1) i best = best := by
  rw [climb, h]
  exact if_pos hv

theorem climb_go (h : f i = some v) (hv : ¬ v < best.1) (n : ℕ) :
    climb f (n + 1) i best = climb f n (i + 1) (if best.1 < v then (v, i) else best) := by
  rw [climb, h]
  exact if_neg hv

/-! ## The specification -/

/-- No place before place `i` is lower than an earlier one. -/
def Rising (f : ℕ → Option α) (i : ℕ) : Prop :=
  ∀ a b, a < b → b < i → ∀ u w, f a = some u → f b = some w → u ≤ w

theorem Rising.mono {j : ℕ} (h : Rising f j) (hij : i ≤ j) : Rising f i :=
  fun a b hab hb => h a b hab (hb.trans_le hij)

theorem Rising.skip (h : Rising f i) (hi : f i = none) : Rising f (i + 1) := by
  intro a b hab hb u w hu hw
  rcases Nat.lt_succ_iff_lt_or_eq.mp hb with hb | rfl
  · exact h a b hab hb u w hu hw
  · rw [hi] at hw
    cases hw

/-- Place `t`, of height `v`, is **the peak of the first rise** among the first `N` places: nothing goes
    down before it, it is the first at its height, and a higher place lies beyond a descent. -/
structure Peak (f : ℕ → Option α) (N t : ℕ) (v : α) : Prop where
  place : f t = some v
  lt : t < N
  rising : Rising f (t + 1)
  first : ∀ a, a < t → ∀ u, f a = some u → u < v
  beyond : ∀ c, c < N → ∀ w, f c = some w → v < w → ¬ Rising f c

theorem Peak.not_before {t' : ℕ} {v' : α} (h : Peak f N t v) (h' : Peak f N t' v') : ¬ t < t' := by
  intro hlt
  have hv : v < v' := h'.first t hlt v h.place
  exact h.beyond t' h'.lt v' h'.place hv (h'.rising.mono (Nat.le_succ t'))

theorem Peak.unique {t' : ℕ} {v' : α} (h : Peak f N t v) (h' : Peak f N t' v') :
    t = t' ∧ v = v' := by
  obtain rfl : t = t' := le_antisymm (not_lt.mp (h'.not_before h)) (not_lt.mp (h.not_before h'))
  exact ⟨rfl, Option.some.inj (h.place.symm.trans h'.place)⟩

/-- **With one hump**, where nothing rises behind a descent, the peak is the highest place. -/
theorem Peak.highest (h : Peak f N t v) (hhump : ∀ a b c, a < b → b < c → ∀ u w x,
    f a = some u → f b = some w → f c = some x → w < u → x ≤ w) :
    ∀ c, c < N → ∀ w, f c = some w → w ≤ v := by
  intro c
  induction c using Nat.strong_induction_on with
  | h c ih =>
    intro hc x hx
    by_contra hlt
    apply h.beyond c hc x hx (not_le.mp hlt)
    intro a b hab hbc u w hu hw
    by_contra hfall
    -- a descent before `c` from a place that is not higher than the peak
    have hxw : x ≤ w := hhump a b c hab hbc u w x hu hw hx (not_le.mp hfall)
    have huv : u ≤ v := ih a (hab.trans hbc) (hab.trans (hbc.trans hc)) u hu
    exact hlt (hxw.trans ((not_le.mp hfall).le.trans huv))

/-! ## The invariant -/

/-- The best before place `i`: what the scan started with, or the first highest place. -/
def Best (f : ℕ → Option α) (start : α × ℕ) (i : ℕ) (best : α × ℕ) : Prop :=
  (best = start ∧ ∀ a, a < i → ∀ u, f a = some u → u = start.1) ∨
  (start.1 < best.1 ∧ f best.2 = some best.1 ∧ best.2 < i ∧
    (∀ a, a < best.2 → ∀ u, f a = some u → u < best.1) ∧
    ∀ a, a < i → ∀ u, f a = some u → u ≤ best.1)

/-- The scan has come to place `i` without a descent, and has the highest place so far, the first
    of those that are as high. -/
structure Climbed (f : ℕ → Option α) (start : α × ℕ) (i : ℕ) (best : α × ℕ) : Prop where
  rising : Rising f i
  best : Best f start i best

theorem Climbed.init (f : ℕ → Option α) (start : α × ℕ) : Climbed f start 0 start :=
  ⟨fun _ _ _ hb => absurd hb (Nat.not_lt_zero _),
    Or.inl ⟨rfl, fun _ ha => absurd ha (Nat.not_lt_zero _)⟩⟩

/-- Every place before is at most as high as the best. -/
theorem Climbed.le (h : Climbed f start i best) {a : ℕ} {u : α} (ha : a < i) (hu : f a = some u) :
    u ≤ best.1 := by
  rcases h.best with ⟨rfl, hall⟩ | ⟨-, -, -, -, hall⟩
  · exact (hall a ha u hu).le
  · exact hall a ha u hu

/-- A place without a height changes nothing. -/
theorem Climbed.skip (h : Climbed f start i best) (hi : f i = none) :
    Climbed f start (i + 1) best := by
  -- the place has no height, so that what held before it still holds
  have hbefore : ∀ {a u}, a < i + 1 → f a = some u → a < i := by
    intro a u ha hu
    rcases Nat.lt_succ_iff_lt_or_eq.mp ha with ha | rfl
    · exact ha
    · rw [hi] at hu
      cases hu
  refine ⟨h.rising.skip hi, ?_⟩
  rcases h.best with ⟨hbest, hall⟩ | ⟨hlt, hplace, hbi, hfirst, hall⟩
  · exact Or.inl ⟨hbest, fun a ha u hu => hall a (hbefore ha hu) u hu⟩
  · exact Or.inr ⟨hlt, hplace, hbi.trans (Nat.lt_succ_self i), hfirst,
      fun a ha u hu => hall a (hbefore ha hu) u hu⟩

/-- A place that is no lower than the best becomes the best if it is higher, and leaves it if it is
    as high: of equal heights the first one counts. -/
theorem Climbed.go (h : Climbed f start i best) (hi : f i = some v) (hv : best.1 ≤ v) :
    Climbed f start (i + 1) (if best.1 < v then (v, i) else best) := by
  have hle : ∀ {a u}, a < i + 1 → f a = some u → u ≤ v := by
    intro a u ha hu
    rcases Nat.lt_succ_iff_lt_or_eq.mp ha with ha | rfl
    · exact (h.le ha hu).trans hv
    · exact (Option.some.inj (hu.symm.trans hi)).le
  constructor
  · intro a b hab hb u w hu hw
    rcases Nat.lt_succ_iff_lt_or_eq.mp hb with hb | rfl
    · exact h.rising a b hab hb u w hu hw
    · obtain rfl := Option.some.inj (hw.symm.trans hi)
      exact hle (hab.trans (Nat.lt_succ_self b)) hu
  · by_cases hgt : best.1 < v
    · rw [if_pos hgt]
      refine Or.inr ⟨?_, hi, Nat.lt_succ_self i, fun a ha u hu => (h.le ha hu).trans_lt hgt,
        fun a ha u hu => hle ha hu⟩
      rcases h.best with ⟨rfl, -⟩ | ⟨hlt, -⟩
      · exact hgt
      · exact hlt.trans hgt
    · -- as high as the best, which stays
      obtain rfl : best.1 = v := le_antisymm hv (not_lt.mp hgt)
      rw [if_neg hgt]
      rcases h.best with ⟨rfl, hall⟩ | ⟨hlt, hplace, hbi, hfirst, -⟩
      · refine Or.inl ⟨rfl, fun a ha u hu => ?_⟩
        rcases Nat.lt_succ_iff_lt_or_eq.mp ha with ha | rfl
        · exact hall a ha u hu
        · exact Option.some.inj (hu.symm.trans hi)
      · exact Or.inr ⟨hlt, hplace, hbi.trans (Nat.lt_succ_self i), hfirst,
          fun a ha u hu => hle ha hu⟩

/-- **A lower place** is a descent, since no place is lower than the start. -/
theorem Climbed.fall (h : Climbed f start i best) (hfloor : start.1 ≤ v) (hi : f i = some v)
    (hv : v < best.1) : start.1 < best.1 ∧ ∀ c, i < c → ¬ Rising f c := by
  rcases h.best with ⟨rfl, -⟩ | ⟨hlt, hplace, hbi, -, -⟩
  · exact absurd hv (not_lt.mpr hfloor)
  · exact ⟨hlt, fun c hc hrising => absurd hv (not_lt.mpr (hrising best.2 i hbi hc _ v hplace hi))⟩

/-- What is known of the best is that it is the peak, once the places behind it do not count. -/
theorem Climbed.peak (h : Climbed f start i best) (hlt : start.1 < best.1) (hi : i ≤ N)
    (hbeyond : ∀ c, i ≤ c → c < N → ∀ w, f c = some w → best.1 < w → ¬ Rising f c) :
    Peak f N best.2 best.1 := by
  rcases h.best with ⟨rfl, -⟩ | ⟨-, hplace, hbi, hfirst, hall⟩
  · exact absurd hlt (lt_irrefl _)
  · refine ⟨hplace, hbi.trans_le hi, h.rising.mono hbi, hfirst, fun c hc w hw hvw => ?_⟩
    rcases lt_or_ge c i with hci | hci
    · exact absurd hvw (not_lt.mpr (hall c hci w hw))
    · exact hbeyond c hci hc w hw hvw

/-! ## The result -/

/-- **The scan** returns the peak of the first rise, or its start where no place is higher. -/
theorem climb_result (start : α × ℕ) (hfloor : ∀ a v, f a = some v → start.1 ≤ v) :
    ∀ (n i : ℕ) (best : α × ℕ), i + n = N → Climbed f start i best →
    (climb f n i best = start ∧ ∀ a, a < N → ∀ u, f a = some u → u = start.1) ∨
    (start.1 < (climb f n i best).1 ∧ Peak f N (climb f n i best).2 (climb f n i best).1) := by
  intro n
  induction n with
  | zero =>
    intro i best hN h
    obtain rfl : i = N := hN
    rw [climb]
    rcases h.best with hstart | ⟨hlt, -⟩
    · exact Or.inl hstart
    · exact Or.inr ⟨hlt, h.peak hlt (le_refl i) fun c hc hci => absurd hci (not_lt.mpr hc)⟩
  | succ n ih =>
    intro i best hN h
    have hN' : i + 1 + n = N := by omega
    cases hi : f i with
    | none =>
      rw [climb_none hi]
      exact ih (i + 1) best hN' (h.skip hi)
    | some v =>
      by_cases hv : v < best.1
      · obtain ⟨hlt, hfall⟩ := h.fall (hfloor i v hi) hi hv
        rw [climb_fall hi hv]
        refine Or.inr ⟨hlt, h.peak hlt (by omega) fun c hc _ w hw hbw => ?_⟩
        rcases eq_or_lt_of_le hc with rfl | hlt
        · rw [Option.some.inj (hi.symm.trans hw)] at hv
          exact absurd hbw hv.le.not_gt
        · exact hfall c hlt
      · rw [climb_go hi hv]
        exact ih (i + 1) _ hN' (h.go hi (not_lt.mp hv))

end Climb
