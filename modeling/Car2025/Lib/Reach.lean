/-
  What a system can still come to.

  1. **Reach (`CanReach`)** — some actions take a state to one with a property: what comes before such a
     state can reach it too, and what it can reach.

  2. **Regions (`Region.cons`)** — from all states at some places of a program, and one place after
     the other those before them.

  3. **Other systems (`CanReach.lift`)** — what one system can reach another can, step by step.
-/
import Mathlib

namespace Reach

variable {S A T B : Type} {act : S → A → S} {act' : T → B → T} {P Q I : S → Prop} {s : S}

/-! ## Reach -/

/-- Some actions take `s` to a state with `P`. -/
def CanReach (act : S → A → S) (P : S → Prop) (s : S) : Prop := ∃ as : List A, P (as.foldl act s)

theorem CanReach.here (h : P s) : CanReach act P s := ⟨[], h⟩

/-- **Backwards** over an action: what can be reached after one step can be reached before it. -/
theorem CanReach.before (a : A) (h : CanReach act P (act s a)) : CanReach act P s := by
  obtain ⟨as, has⟩ := h
  exact ⟨a :: as, has⟩

theorem CanReach.next (a : A) (h : P (act s a)) : CanReach act P s := .before a (.here h)

/-- **On** from there: two ways, one behind the other. -/
theorem CanReach.trans (h : CanReach act P s) (hnext : ∀ t, P t → CanReach act Q t) :
    CanReach act Q s := by
  obtain ⟨as, has⟩ := h
  obtain ⟨bs, hbs⟩ := hnext _ has
  refine ⟨as ++ bs, ?_⟩
  rw [List.foldl_append]
  exact hbs

/-- What every action keeps is still there. -/
theorem CanReach.keep (hkeep : ∀ t a, I t → I (act t a)) (h : CanReach act P s) (hI : I s) :
    CanReach act (fun t => P t ∧ I t) s := by
  obtain ⟨as, has⟩ := h
  refine ⟨as, has, ?_⟩
  clear has
  induction as generalizing s with
  | nil => exact hI
  | cons a as ih => exact ih (hkeep s a hI)

/-- **A countdown**: where `f` can be lowered until there is nothing left of it, by induction on
    its value; the other actions need not lower it. -/
theorem CanReach.countdown (f : S → ℕ) (hstep : ∀ s, I s → f s ≠ 0 →
    CanReach act (fun t => I t ∧ f t < f s) s) : ∀ s, I s →
    CanReach act (fun t => I t ∧ f t = 0) s := by
  intro s
  -- on what is left: a step may take it down by more than one
  induction hn : f s using Nat.strong_induction_on generalizing s with
  | h n ih =>
    intro hI
    by_cases h0 : f s = 0
    · exact .here ⟨hI, h0⟩
    · refine (hstep s hI h0).trans fun t ht => ?_
      exact ih (f t) (hn ▸ ht.2) t rfl ht.1

/-! ## Regions -/

section

variable {L : Type} {place : S → L} {ls : List L} {l : L}

/-- From every state with `I` at one of these places. -/
def Region (act : S → A → S) (P I : S → Prop) (place : S → L) (ls : List L) : Prop :=
  ∀ s, I s → place s ∈ ls → CanReach act P s

theorem Region.nil : Region act P I place [] := fun _ _ h => absurd h List.not_mem_nil

/-- **One more place**, from which the others can be reached; so a region is built from its last
    place to its first. -/
theorem Region.cons (h : Region act P I place ls)
    (hl : ∀ s, I s → place s = l → CanReach act (fun t => I t ∧ place t ∈ ls) s ∨ CanReach act P s) :
    Region act P I place (l :: ls) := by
  intro s hI hin
  rcases List.mem_cons.mp hin with heq | hin
  · rcases hl s hI heq with hls | hP
    · exact hls.trans fun t ht => h t ht.1 ht.2
    · exact hP
  · exact h s hI hin

theorem Region.mono {ls' : List L} (h : Region act P I place ls) (hsub : ls' ⊆ ls) :
    Region act P I place ls' := fun s hI hin => h s hI (hsub hin)

end

/-! ## Other systems -/

/-- **What one system can reach** another can, where it can follow every step, in as many steps as
    it takes. -/
theorem CanReach.lift {sim : S → T → Prop}
    (hstep : ∀ s t a, sim s t → CanReach act' (sim (act s a)) t) {t : T} (hsim : sim s t)
    (h : CanReach act P s) : CanReach act' (fun t' => ∃ s', P s' ∧ sim s' t') t := by
  obtain ⟨as, has⟩ := h
  -- on the actions of the first system; each is followed by some of the other's
  induction as generalizing s t with
  | nil => exact .here ⟨s, has, hsim⟩
  | cons a as ih => exact (hstep s t a hsim).trans fun t' hsim' => ih hsim' has

end Reach
