/-
  Programs that may stop: what they return, and what their runs keep.

  1. **Outcomes (`Ends`)** — a program returns a value that satisfies a postcondition, or it stops
     for one of the reasons that are allowed.  One rule for each way to build a program.

  2. **Runs over a list of inputs (`Ends.foldlM`)** — what every step keeps holds after any run.

  3. **Runs as sequences of states (`Trace`)** — the same run with all its states named, for
     statements about earlier steps.
-/
import Mathlib

namespace Outcome

variable {ε α β : Type} {stop : ε → Prop}

/-! ## Outcomes -/

/-- `x` returns a value with `post`, or stops for a reason in `stop`. -/
def Ends (stop : ε → Prop) (x : Except ε α) (post : α → Prop) : Prop :=
  match x with
  | .ok a => post a
  | .error e => stop e

theorem Ends.ok {a : α} {post : α → Prop} (h : post a) : Ends stop (.ok a) post := h

theorem Ends.of_pure {a : α} {post : α → Prop} (h : post a) : Ends stop (pure a) post := h

theorem Ends.error {e : ε} {post : α → Prop} (h : stop e) : Ends stop (.error e) post := h

/-- **Sequence**: the second program starts from what the first one established. -/
theorem Ends.bind {x : Except ε α} {f : α → Except ε β} {m : α → Prop} {post : β → Prop}
    (hx : Ends stop x m) (hf : ∀ a, m a → Ends stop (f a) post) :
    Ends stop (x >>= f) post := by
  cases x with
  | error e => exact hx
  | ok a => exact hf a hx

/-- **Consequence**: fewer reasons to stop and a stronger outcome are as good. -/
theorem Ends.mono {x : Except ε α} {stop' : ε → Prop} {post post' : α → Prop}
    (h : Ends stop x post) (hs : ∀ e, stop e → stop' e) (hp : ∀ a, post a → post' a) :
    Ends stop' x post' := by
  cases x with
  | error e => exact hs e h
  | ok a => exact hp a h

theorem Ends.imp {x : Except ε α} {post post' : α → Prop} (h : Ends stop x post)
    (hp : ∀ a, post a → post' a) : Ends stop x post' :=
  h.mono (fun _ he => he) hp

/-- **Choice**: each branch may use the condition that led to it. -/
theorem Ends.ite {c : Prop} [Decidable c] {x y : Except ε α} {post : α → Prop}
    (hx : c → Ends stop x post) (hy : ¬ c → Ends stop y post) :
    Ends stop (if c then x else y) post := by
  by_cases hc : c
  · rw [if_pos hc]
    exact hx hc
  · rw [if_neg hc]
    exact hy hc

theorem Ends.of_ok {x : Except ε α} {post : α → Prop} {a : α} (h : Ends stop x post)
    (hx : x = .ok a) : post a := by
  rw [hx] at h
  exact h

theorem Ends.of_error {x : Except ε α} {post : α → Prop} {e : ε} (h : Ends stop x post)
    (hx : x = .error e) : stop e := by
  rw [hx] at h
  exact h

/-- A sequence that returns has returned from its first program. -/
theorem exists_of_bind {x : Except ε α} {f : α → Except ε β} {b : β} (h : x >>= f = .ok b) :
    ∃ a, x = .ok a ∧ f a = .ok b := by
  cases x with
  | error e => cases h
  | ok a => exact ⟨a, rfl, h⟩

/-- What is known of a result that may be missing says that there is one. -/
theorem exists_of_toOption {x : Except ε α} {f : α → β} {b : β} (h : x.toOption.map f = some b) :
    ∃ a, x = .ok a ∧ f a = b := by
  cases x with
  | error e => cases h
  | ok a => exact ⟨a, rfl, Option.some.inj h⟩

/-! ## Runs over a list of inputs -/

section

variable {S A : Type} {step : S → A → Except ε S}

/-- **Run rule**: an invariant of the steps holds after every run, or the run has stopped for one
    of the reasons. -/
theorem Ends.foldlM {Inv : S → Prop} (hstep : ∀ s a, Inv s → Ends stop (step s a) Inv)
    (as : List A) : ∀ s, Inv s → Ends stop (as.foldlM step s) Inv := by
  induction as with
  | nil =>
    intro s hs
    exact Ends.of_pure hs
  | cons a as ih =>
    intro s hs
    rw [List.foldlM_cons]
    exact (hstep s a hs).bind ih

theorem foldlM_concat (as : List A) (a : A) (s : S) :
    (as ++ [a]).foldlM step s = as.foldlM step s >>= fun s' => step s' a := by
  rw [List.foldlM_append]
  simp only [List.foldlM_cons, List.foldlM_nil, bind_pure]

/-- A run that stops does so at one of its inputs. -/
theorem exists_of_foldlM_error {as : List A} {s : S} {e : ε} (h : as.foldlM step s = .error e) :
    ∃ pre a s', pre ++ [a] <+: as ∧ pre.foldlM step s = .ok s' ∧ step s' a = .error e := by
  induction as using List.reverseRecOn with
  | nil => cases h
  | append_singleton as a ih =>
    cases hrun : as.foldlM step s with
    | ok s' =>
      rw [foldlM_concat, hrun] at h
      exact ⟨as, a, s', List.prefix_refl _, hrun, h⟩
    | error e' =>
      rw [foldlM_concat, hrun] at h
      obtain rfl : e' = e := Except.error.inj h
      obtain ⟨pre, b, s', hpre, hok, herr⟩ := ih hrun
      exact ⟨pre, b, s', hpre.trans (List.prefix_append as [a]), hok, herr⟩

/-! ## Runs as sequences of states -/

/-- The states `s 0, …, s N` of a run from `init` on the inputs `f 0, …, f (N - 1)`. -/
structure Trace (step : S → A → Except ε S) (init : S) (f : ℕ → A) (s : ℕ → S) (N : ℕ) :
    Prop where
  start : s 0 = init
  next : ∀ n, n < N → step (s n) (f n) = .ok (s (n + 1))

/-- **Induction along a run**; the invariant may speak of earlier steps, since it is one of the
    index and not of the state. -/
theorem Trace.induct {init : S} {f : ℕ → A} {s : ℕ → S} {N : ℕ} {Inv : ℕ → Prop}
    (h : Trace step init f s N) (h0 : s 0 = init → Inv 0)
    (hnext : ∀ n, n < N → step (s n) (f n) = .ok (s (n + 1)) → Inv n → Inv (n + 1)) :
    ∀ n, n ≤ N → Inv n := by
  intro n
  induction n with
  | zero =>
    intro _
    exact h0 h.start
  | succ n ih =>
    intro hn
    exact hnext n (by omega) (h.next n (by omega)) (ih (by omega))

/-- Where no step stops, there is a run of any length. -/
theorem Trace.exists_of_ends {init : S} {f : ℕ → A} {I : S → Prop} (h0 : I init)
    (hstep : ∀ s n, I s → Ends (fun _ => False) (step s (f n)) I) (N : ℕ) :
    ∃ s, Trace step init f s N := by
  have hnext : ∀ (s : {s // I s}) (n : ℕ), ∃ s' : {s // I s}, step s (f n) = .ok s' := by
    intro s n
    cases hs : step s (f n) with
    | error e => exact ((hstep s n s.2).of_error hs).elim
    | ok s' => exact ⟨⟨s', (hstep s n s.2).of_ok hs⟩, rfl⟩
  choose g hg using hnext
  refine ⟨fun n => (Nat.rec ⟨init, h0⟩ (fun n s => g s n) n : {s // I s}).1, rfl, fun n _ => ?_⟩
  exact hg _ n

end

end Outcome
