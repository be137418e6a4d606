/-
  Properties of runs, as properties of the list of actions taken.

  1. **States (`Always`)** — a property that holds after every beginning of the run.

  2. **Steps (`EachStep`)** — a property of every action taken, with what was done before it.

  3. **From steps to states** — what every step keeps holds always; and where keeping it is a
     question about the step alone, the two say the same (`always_iff_eachStep`).
-/
import Mathlib

namespace Runs

variable {A : Type} {P : List A → Prop} {Q Q' : List A → A → Prop} {as pre : List A} {a : A}

/-- `P` after every beginning of the run. -/
def Always (P : List A → Prop) (as : List A) : Prop := ∀ pre, pre <+: as → P pre

/-- `Q` at every step: what was done before it, and what it does. -/
def EachStep (Q : List A → A → Prop) (as : List A) : Prop := ∀ pre a, pre ++ [a] <+: as → Q pre a

/-! ## States -/

theorem Always.last (h : Always P as) : P as := h as (List.prefix_refl as)

theorem Always.of_prefix (h : Always P as) (hpre : pre <+: as) : Always P pre :=
  fun _ hp => h _ (hp.trans hpre)

theorem always_nil : Always P [] ↔ P [] := by
  constructor
  · intro h
    exact h.last
  · intro h pre hpre
    obtain rfl : pre = [] := List.prefix_nil.mp hpre
    exact h

theorem always_concat : Always P (as ++ [a]) ↔ Always P as ∧ P (as ++ [a]) := by
  constructor
  · intro h
    exact ⟨h.of_prefix (List.prefix_append as [a]), h.last⟩
  · rintro ⟨hall, hlast⟩ pre hpre
    rcases List.prefix_concat_iff.mp hpre with rfl | hpre
    · exact hlast
    · exact hall pre hpre

/-! ## Steps -/

theorem eachStep_concat : EachStep Q (as ++ [a]) ↔ EachStep Q as ∧ Q as a := by
  constructor
  · intro h
    exact ⟨fun pre b hpre => h pre b (hpre.trans (List.prefix_append as [a])),
      h as a (List.prefix_refl _)⟩
  · rintro ⟨hall, hlast⟩ pre b hpre
    rcases List.prefix_concat_iff.mp hpre with heq | hpre
    · obtain ⟨rfl, hb⟩ := List.append_inj' heq rfl
      obtain rfl : b = a := List.singleton_injective hb
      exact hlast
    · exact hall pre b hpre

theorem EachStep.imp (h : EachStep Q as) (hq : ∀ pre a, Q pre a → Q' pre a) : EachStep Q' as :=
  fun pre a hpre => hq pre a (h pre a hpre)

theorem eachStep_congr (hq : ∀ pre a, pre ++ [a] <+: as → (Q pre a ↔ Q' pre a)) :
    EachStep Q as ↔ EachStep Q' as := by
  constructor
  · intro h pre a hpre
    exact (hq pre a hpre).mp (h pre a hpre)
  · intro h pre a hpre
    exact (hq pre a hpre).mpr (h pre a hpre)

/-! ## From steps to states -/

/-- **Run rule**, by induction on the run from its end: what holds at the start, and what each step
    of the run keeps, holds after every part of it. -/
theorem Always.of_eachStep (h0 : P [])
    (hstep : EachStep (fun pre a => P pre → P (pre ++ [a])) as) : Always P as := by
  induction as using List.reverseRecOn with
  | nil => exact always_nil.mpr h0
  | append_singleton as a ih =>
    obtain ⟨hall, hlast⟩ := eachStep_concat.mp hstep
    have hP := ih hall
    exact always_concat.mpr ⟨hP, hlast hP.last⟩

/-- Where a step keeps `P` exactly when it satisfies `Q`, runs keep `P` exactly when all their
    steps satisfy `Q`. -/
theorem always_iff_eachStep (h0 : P []) (hstep : ∀ pre a, P pre → (P (pre ++ [a]) ↔ Q pre a)) :
    Always P as ↔ EachStep Q as := by
  constructor
  · intro h pre a hpre
    have hP : P pre := h pre ((List.prefix_append pre [a]).trans hpre)
    exact (hstep pre a hP).mp (h _ hpre)
  · intro h
    exact Always.of_eachStep h0 (h.imp fun pre a hq hP => (hstep pre a hP).mpr hq)

end Runs
