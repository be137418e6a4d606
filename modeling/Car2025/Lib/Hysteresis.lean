/-
  Cutting a sequence in two alternating kinds of stretches, with hysteresis.

  Positions are read from a start `n` down to `1`.  A label `l : Bool` is carried along; at a
  position `i` where `hit l i` holds the label flips, and `i` is a CUT.  After a cut that ended a
  stretch labelled `l`, the next `hold l` positions are skipped: no cut is looked for there.  This
  is the shape of a two-threshold detector (Schmitt trigger) over windows: `hit true` and
  `hit false` are the two different tests that end the two kinds of stretches.

  1. **Program** — `cuts hit hold l w n`, the list of cuts read from position `n` with label `l`
     and `w` positions still to skip; `track`, the label and the skip count at every position.

  2. **Specification** — `Alternates hit hold l k i`: SOME `k` positions at or below `i`, going
     down, are hits of alternating kinds at the required distance.  No first hit is asked for.

  3. **The crux (`le_length_cuts_iff`)** — taking every first hit is optimal: there are at least
     `k` cuts exactly when some alternating sequence of length `k` exists.  The exchange step is
     `Alternates.mono`: a sequence that may start lower may also start higher.
-/
import Mathlib

namespace Hysteresis

variable (hit : Bool → ℕ → Bool) (hold : Bool → ℕ)

/-! ## The cuts -/

/-- The cuts at the positions `n, n - 1, …, 1`, the current label being `l` and the first `w`
    positions being skipped. -/
def cuts : Bool → ℕ → ℕ → List ℕ
  | _, _, 0 => []
  | l, w + 1, i + 1 => cuts l w i
  | l, 0, i + 1 => if hit l (i + 1) then (i + 1) :: cuts (!l) (hold l) i else cuts l 0 i

/-- The label and the skip count after position `i` was read. -/
def advance (i : ℕ) : Bool × ℕ → Bool × ℕ
  | (l, w + 1) => (l, w)
  | (l, 0) => if hit l i then (!l, hold l) else (l, 0)

/-- The label and the skip count after the positions `n, …, n - k + 1` were read. -/
def track (start : Bool × ℕ) (n : ℕ) : ℕ → Bool × ℕ
  | 0 => start
  | k + 1 => advance hit hold (n - k) (track start n k)

variable {hit hold}

@[simp] theorem cuts_zero (l : Bool) (w : ℕ) : cuts hit hold l w 0 = [] := by
  cases w <;> rfl

@[simp] theorem cuts_skip (l : Bool) (w i : ℕ) :
    cuts hit hold l (w + 1) (i + 1) = cuts hit hold l w i := rfl

theorem cuts_of_hit {l : Bool} {i : ℕ} (h : hit l (i + 1) = true) :
    cuts hit hold l 0 (i + 1) = (i + 1) :: cuts hit hold (!l) (hold l) i := by
  rw [cuts, if_pos h]

theorem cuts_of_not_hit {l : Bool} {i : ℕ} (h : hit l (i + 1) = false) :
    cuts hit hold l 0 (i + 1) = cuts hit hold l 0 i := by
  rw [cuts, if_neg (by rw [h]; exact Bool.false_ne_true)]

/-- Skipping `w` positions is starting `w` positions lower. -/
theorem cuts_eq_sub (l : Bool) : ∀ w i : ℕ, cuts hit hold l w i = cuts hit hold l 0 (i - w)
  | 0, _ => rfl
  | w + 1, 0 => by rw [Nat.zero_sub, cuts_zero, cuts_zero]
  | w + 1, i + 1 => by rw [cuts_skip, cuts_eq_sub l w i, Nat.add_sub_add_right]

/-! ## First cuts -/

/-- **The first cut** is the first hit: nothing above it hits, and the rest are the cuts below it
    under the other label. -/
theorem cuts_eq_cons_iff {l : Bool} {c : ℕ} {cs : List ℕ} : ∀ {i : ℕ},
    cuts hit hold l 0 i = c :: cs ↔
      1 ≤ c ∧ c ≤ i ∧ hit l c = true ∧ (∀ j, c < j → j ≤ i → hit l j = false) ∧
        cs = cuts hit hold (!l) (hold l) (c - 1)
  | 0 => by
    rw [cuts_zero]
    constructor
    · intro h
      cases h
    · rintro ⟨h1, h2, -⟩
      omega
  | i + 1 => by
    cases hh : hit l (i + 1) with
    | true =>
      -- a hit at the top is the first cut
      rw [cuts_of_hit hh, List.cons.injEq]
      constructor
      · rintro ⟨rfl, rfl⟩
        exact ⟨by omega, le_refl _, hh, fun j h1 h2 => absurd h1 (by omega), rfl⟩
      · rintro ⟨-, hle, -, hno, hcs⟩
        have hc : c = i + 1 := by
          by_contra hne
          have := hno (i + 1) (by omega) (le_refl _)
          rw [hh] at this
          exact absurd this (by decide)
        subst hc
        exact ⟨rfl, hcs.symm⟩
    | false =>
      -- without one the first cut is further down
      rw [cuts_of_not_hit hh, cuts_eq_cons_iff (i := i)]
      constructor
      · rintro ⟨h1, h2, h3, h4, h5⟩
        refine ⟨h1, by omega, h3, fun j hj hj' => ?_, h5⟩
        rcases Nat.lt_or_ge j (i + 1) with hlt | hge
        · exact h4 j hj (by omega)
        · have hji : j = i + 1 := by omega
          rw [hji]
          exact hh
      · rintro ⟨h1, h2, h3, h4, h5⟩
        have hne : c ≠ i + 1 := by
          rintro rfl
          rw [hh] at h3
          exact absurd h3 (by decide)
        exact ⟨h1, by omega, h3, fun j hj hj' => h4 j hj (by omega), h5⟩

/-- There is no cut exactly when nothing hits. -/
theorem cuts_eq_nil_iff {l : Bool} : ∀ {i : ℕ},
    cuts hit hold l 0 i = [] ↔ ∀ j, 1 ≤ j → j ≤ i → hit l j = false
  | 0 => by
    rw [cuts_zero]
    exact ⟨fun _ j h1 h2 => absurd h1 (by omega), fun _ => rfl⟩
  | i + 1 => by
    cases hh : hit l (i + 1) with
    | true =>
      rw [cuts_of_hit hh]
      refine ⟨fun h => absurd h (List.cons_ne_nil _ _), fun h => ?_⟩
      have := h (i + 1) (by omega) (le_refl _)
      rw [hh] at this
      exact absurd this (by decide)
    | false =>
      rw [cuts_of_not_hit hh, cuts_eq_nil_iff (i := i)]
      refine ⟨fun h j h1 h2 => ?_, fun h j h1 h2 => h j h1 (by omega)⟩
      rcases Nat.lt_or_ge j (i + 1) with hlt | hge
      · exact h j h1 (by omega)
      · have hji : j = i + 1 := by omega
        rw [hji]
        exact hh

/-- The label of the `k`-th stretch, counted from the start. -/
def labelOf (l : Bool) : ℕ → Bool
  | 0 => l
  | k + 1 => !(labelOf l k)

theorem labelOf_not (l : Bool) : ∀ k : ℕ, labelOf (!l) k = labelOf l (k + 1)
  | 0 => rfl
  | k + 1 => by rw [labelOf, labelOf_not l k, ← labelOf]

/-- The `k`-th cut ends the `k`-th stretch: it is a hit of that stretch's label. -/
theorem hit_getElem_cuts : ∀ (cs : List ℕ) {l : Bool} {w i : ℕ}, cuts hit hold l w i = cs →
    ∀ (k : ℕ) (hk : k < cs.length), 1 ≤ cs[k] ∧ cs[k] + w ≤ i ∧ hit (labelOf l k) cs[k] = true
  | [], _, _, _, _ => fun k hk => absurd hk (Nat.not_lt_zero k)
  | c :: cs, l, w, i, h => by
    rw [cuts_eq_sub, cuts_eq_cons_iff] at h
    obtain ⟨h1, h2, h3, -, h5⟩ := h
    intro k hk
    cases k with
    | zero => exact ⟨h1, by show c + w ≤ i; omega, h3⟩
    | succ k =>
      obtain ⟨g1, g2, g3⟩ := hit_getElem_cuts cs h5.symm k (by simpa using hk)
      rw [labelOf_not] at g3
      exact ⟨g1, by rw [List.getElem_cons_succ]; omega, g3⟩

/-- Reading one position first and then `k` is reading `k + 1`. -/
theorem track_advance (s : Bool × ℕ) (n : ℕ) : ∀ k : ℕ,
    track hit hold (advance hit hold (n + 1) s) n k = track hit hold s (n + 1) (k + 1)
  | 0 => rfl
  | k + 1 => by
    rw [track, track_advance s n k]
    show advance hit hold (n - k) _ = advance hit hold (n + 1 - (k + 1)) _
    rw [Nat.add_sub_add_right]

/-- **Cuts by position**: a position is a cut when it hits the label it is read with, no position
    being left to skip. -/
theorem mem_cuts_iff {c : ℕ} : ∀ {n : ℕ} {l : Bool} {w : ℕ},
    c ∈ cuts hit hold l w n ↔ 1 ≤ c ∧ c ≤ n ∧ (track hit hold (l, w) n (n - c)).2 = 0 ∧
      hit (track hit hold (l, w) n (n - c)).1 c = true
  | 0, l, w => by
    rw [cuts_zero]
    exact ⟨fun h => absurd h List.not_mem_nil, fun h => absurd h.1 (by omega)⟩
  | n + 1, l, w => by
    -- below `n + 1` the positions are read with what `advance` leaves there
    have hbelow : c ∈ cuts hit hold (advance hit hold (n + 1) (l, w)).1
        (advance hit hold (n + 1) (l, w)).2 n ↔ 1 ≤ c ∧ c ≤ n ∧
          (track hit hold (l, w) (n + 1) (n + 1 - c)).2 = 0 ∧
          hit (track hit hold (l, w) (n + 1) (n + 1 - c)).1 c = true := by
      rw [mem_cuts_iff (n := n)]
      refine and_congr_right (fun _ => and_congr_right (fun hle => ?_))
      rw [track_advance, show n - c + 1 = n + 1 - c by omega]
    have htop : c = n + 1 → track hit hold (l, w) (n + 1) (n + 1 - c) = (l, w) := by
      rintro rfl
      rw [Nat.sub_self]
      rfl
    cases w with
    | succ w =>
      rw [cuts_skip]
      refine hbelow.trans ⟨fun h => ⟨h.1, by omega, h.2.2⟩, fun h => ⟨h.1, ?_, h.2.2⟩⟩
      by_contra hlt
      have h2 := h.2.2.1
      rw [htop (by omega)] at h2
      exact absurd h2 (Nat.succ_ne_zero w)
    | zero =>
      cases hh : hit l (n + 1) with
      | true =>
        rw [advance, if_pos hh] at hbelow
        rw [cuts_of_hit hh, List.mem_cons, hbelow]
        constructor
        · rintro (rfl | h)
          · rw [htop rfl]
            exact ⟨by omega, le_refl _, rfl, hh⟩
          · exact ⟨h.1, by omega, h.2.2⟩
        · intro h
          rcases Nat.eq_or_lt_of_le h.2.1 with heq | hlt
          · exact Or.inl heq
          · exact Or.inr ⟨h.1, by omega, h.2.2⟩
      | false =>
        have hno : ¬ hit l (n + 1) = true := by rw [hh]; exact Bool.false_ne_true
        rw [advance, if_neg hno] at hbelow
        rw [cuts_of_not_hit hh]
        refine hbelow.trans ⟨fun h => ⟨h.1, by omega, h.2.2⟩, fun h => ⟨h.1, ?_, h.2.2⟩⟩
        by_contra hlt
        have hc : c = n + 1 := by omega
        have h2 := h.2.2.2
        rw [htop hc, hc] at h2
        exact hno h2

/-- **Gaps**: if two hits of different kinds, far enough apart to follow each other, are always
    `g` positions apart, then so are any two cuts. -/
theorem pairwise_cuts {g : ℕ}
    (hsep : ∀ l c j, hit l c = true → hit (!l) j = true → j + hold l < c → j + g ≤ c) :
    ∀ (cs : List ℕ) {l : Bool} {w i : ℕ}, cuts hit hold l w i = cs →
      cs.Pairwise (fun a b => b + g ≤ a)
  | [], _, _, _, _ => List.Pairwise.nil
  | c :: cs, l, w, i, h => by
    rw [cuts_eq_sub, cuts_eq_cons_iff] at h
    obtain ⟨h1, h2, h3, -, h5⟩ := h
    have htail := pairwise_cuts hsep cs h5.symm
    refine List.pairwise_cons.mpr ⟨fun d hd => ?_, htail⟩
    cases cs with
    | nil => cases hd
    | cons e cs =>
      -- the next cut is `g` below `c`, and every later one is below that
      have he := hit_getElem_cuts (e :: cs) h5.symm 0 (by simp)
      have hec : e + g ≤ c := hsep l c e h3 he.2.2 (by
        have : e + hold l ≤ c - 1 := he.2.1
        omega)
      rcases List.mem_cons.mp hd with rfl | hd
      · exact hec
      · have := (List.pairwise_cons.mp htail).1 d hd
        omega

/-! ## The specification: alternating hits, not necessarily the first ones -/

variable (hit hold) in
/-- `k` hits at or below position `i`, of alternating kinds starting with label `l`, each at least
    `hold` positions below the one before it. -/
inductive Alternates : Bool → ℕ → ℕ → Prop
  | nil {l : Bool} {i : ℕ} : Alternates l 0 i
  | cons {l : Bool} {k i j : ℕ} : 1 ≤ j → j ≤ i → hit l j = true →
      Alternates (!l) k (j - 1 - hold l) → Alternates l (k + 1) i

/-- Starting higher never hurts. -/
theorem Alternates.mono {l : Bool} {k i i' : ℕ} (h : Alternates hit hold l k i) (hi : i ≤ i') :
    Alternates hit hold l k i' := by
  cases h with
  | nil => exact .nil
  | cons h1 h2 h3 h4 => exact .cons h1 (by omega) h3 h4

/-- **Taking the first hit is optimal**: `k` cuts are made exactly when `k` alternating hits exist.
    A choice that takes a later hit leaves fewer rows for the others, so it can be moved up to the
    first. -/
theorem le_length_cuts_iff : ∀ (k : ℕ) {l : Bool} {w i : ℕ},
    k ≤ (cuts hit hold l w i).length ↔ Alternates hit hold l k (i - w)
  | 0, _, _, _ => ⟨fun _ => .nil, fun _ => Nat.zero_le _⟩
  | k + 1, l, w, i => by
    rw [cuts_eq_sub]
    cases hcs : cuts hit hold l 0 (i - w) with
    | nil =>
      refine ⟨fun h => absurd h (by simp), fun h => ?_⟩
      rw [cuts_eq_nil_iff] at hcs
      cases h with
      | cons h1 h2 h3 _ =>
        rw [hcs _ h1 h2] at h3
        exact absurd h3 (by decide)
    | cons c cs =>
      rw [cuts_eq_cons_iff] at hcs
      obtain ⟨h1, h2, h3, h4, rfl⟩ := hcs
      rw [List.length_cons, Nat.add_le_add_iff_right, le_length_cuts_iff k]
      constructor
      · intro h
        exact .cons h1 h2 h3 h
      · intro h
        cases h with
        | @cons _ _ _ j g1 g2 g3 g4 =>
          -- any hit `j` lies at or below the first one, so its continuation may start from `c`
          have hjc : j ≤ c := by
            by_contra hlt
            rw [h4 j (by omega) g2] at g3
            exact absurd g3 (by decide)
          exact g4.mono (by omega)

end Hysteresis
