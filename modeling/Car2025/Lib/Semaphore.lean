/-
  Counting semaphores that two threads pass a baton with.

  1. **Semaphore (`Sem`)** — a value and the queue of the threads that are suspended on it.  A thread
     that takes is past it at once, or is suspended until a `release` takes it off the queue.

  2. **One taker (`Has`, `Lacks`)** — a semaphore that one thread takes has been released to it once
     more than the thread has gone past it, or as often.

  3. **Turns (`Turn`)** — of two threads that each take a semaphore of their own and release the
     other's, one is past its semaphore at most, and it stays so when it passes the turn on.
-/
import Mathlib

namespace Semaphore

/-- The value and the suspended threads, the next one to be resumed first. -/
structure Sem (T : Type) where
  value : ℕ
  suspended : List T
  deriving DecidableEq, Repr

/-- How far a thread is in a take: about to look at the value, or suspended and resumed again. -/
inductive Stage where
  | take
  | waiting
  deriving DecidableEq, Repr

variable {T : Type}

/-- With nobody on it, and value 0. -/
def Sem.empty : Sem T := ⟨0, []⟩

/-- A step of the thread `t` in its take; `none` is past it. -/
def Sem.take [DecidableEq T] (t : T) (s : Sem T) : Stage → Option Stage × Sem T
  | .take =>
    if 0 < s.value then (none, { s with value := s.value - 1 })
    else (some .waiting, { s with suspended := s.suspended ++ [t] })
  | .waiting => if t ∈ s.suspended then (some .waiting, s) else (none, s)

/-- The first suspended thread is resumed; the value counts when there is none, up to `max`. -/
def Sem.release (max : ℕ) (s : Sem T) : Sem T :=
  match s.suspended with
  | [] => if s.value < max then { s with value := s.value + 1 } else s
  | _ :: rest => { s with suspended := rest }

/-! ## One taker -/

/-- The thread has still to wait. -/
inductive Lacks (t : T) : Option Stage → Sem T → Prop where
  | take : Lacks t (some .take) ⟨0, []⟩
  | waiting : Lacks t (some .waiting) ⟨0, [t]⟩

/-- It has been released, or is past its take. -/
inductive Has (t : T) : Option Stage → Sem T → Prop where
  | take : Has t (some .take) ⟨1, []⟩
  | waiting : Has t (some .waiting) ⟨0, []⟩
  | past : Has t none ⟨0, []⟩

variable {t : T} {m : Option Stage} {s : Sem T}

theorem Lacks.value_eq (h : Lacks t m s) : s.value = 0 := by
  cases h <;> rfl

theorem Lacks.ne_none (h : Lacks t m s) : m ≠ none := by
  cases h <;> exact Option.some_ne_none _

theorem Has.value_le (h : Has t m s) : s.value ≤ 1 := by
  cases h with
  | take => exact le_rfl
  | waiting => exact Nat.zero_le 1
  | past => exact Nat.zero_le 1

/-- A thread that goes on to take again lacks what it had. -/
theorem Has.again (h : Has t none s) : Lacks t (some .take) s := by
  cases h
  exact Lacks.take

/-- **A release** is what it waits for: a thread in line is woken, and one that is not yet finds
    the count. -/
theorem Lacks.release {max : ℕ} (hmax : 0 < max) (h : Lacks t m s) :
    Has t m (s.release max) := by
  cases h with
  | take =>
    rw [Sem.release]
    dsimp only
    rw [if_pos hmax]
    exact Has.take
  | waiting => exact Has.waiting

/-! ## Turns -/

variable {a b : T} {ma mb : Option Stage} {sa sb : Sem T}

/-- The turn is `a`'s: `b` has to wait.  For `a` its semaphore has been released once, whether it
    has taken it already or not; for `b` there is nothing to take. -/
structure Turn (a b : T) (ma mb : Option Stage) (sa sb : Sem T) : Prop where
  has : Has a ma sa
  lacks : Lacks b mb sb

theorem Turn.waits (h : Turn a b ma mb sa sb) : mb ≠ none := h.lacks.ne_none

theorem Turn.values_le (h : Turn a b ma mb sa sb) : sa.value ≤ 1 ∧ sb.value ≤ 1 :=
  ⟨h.has.value_le, h.lacks.value_eq.trans_le (Nat.zero_le 1)⟩

/-- **The turn is passed on**: `a` releases the other's semaphore and goes to take its own, for
    which there is nothing now. -/
theorem Turn.pass {max : ℕ} (hmax : 0 < max) (h : Turn a b none mb sa sb) :
    Turn b a mb (some .take) (sb.release max) sa :=
  ⟨h.lacks.release hmax, h.has.again⟩

/-! ## Steps of a take -/

variable [DecidableEq T] {k : Stage}

/-- Without a release the thread waits on. -/
theorem Lacks.step (h : Lacks t (some k) s) :
    Lacks t (s.take t k).1 (s.take t k).2 := by
  cases h with
  | take => exact Lacks.waiting
  | waiting =>
    rw [Sem.take, if_pos (List.mem_singleton.mpr rfl)]
    exact Lacks.waiting

/-- After one its next step is past the take. -/
theorem Has.step (h : Has t (some k) s) : s.take t k = (none, ⟨0, []⟩) := by
  cases h with
  | take => rfl
  | waiting => rw [Sem.take, if_neg List.not_mem_nil]

/-- **The one whose turn it is** goes past its semaphore in one step, and the other is as it was. -/
theorem Turn.goes (h : Turn a b (some k) mb sa sb) :
    (sa.take a k).1 = none ∧ Turn a b none mb (sa.take a k).2 sb := by
  rw [h.has.step]
  exact ⟨rfl, Has.past, h.lacks⟩

/-- **The other one** stays before its semaphore: at its first try it gets in line, and then it is
    suspended. -/
theorem Turn.stays (h : Turn a b ma (some k) sa sb) :
    ∃ k', (sb.take b k).1 = some k' ∧ Turn a b ma (some k') sa (sb.take b k).2 := by
  have hturn : Turn a b ma (sb.take b k).1 sa (sb.take b k).2 := ⟨h.has, h.lacks.step⟩
  obtain ⟨k', hk'⟩ := Option.ne_none_iff_exists'.mp hturn.waits
  rw [hk'] at hturn
  exact ⟨k', hk', hturn⟩

end Semaphore
