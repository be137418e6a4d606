/-
  `classify.c`: the record of the pictures that were classified.

  1. **Program** — `Class_Add` writes the entry `Class_Number` in each of its branches, and none of them
     asks whether there is one.

  2. **Log (`Class_Add_logged_iff`)** — so the record is a log of the calls up to the last entry.

  The display functions and their fonts are left out.
-/
import Mathlib
import Car2025.Lib.Runs

namespace Car2025

open Runs

/-! ## Program -/

/-- `PUSH_LEFT` and `PUSH_RIGHT` -/
def PUSH_LEFT : UInt8 := 0
def PUSH_RIGHT : UInt8 := 1

/-- `Class_Three_t` -/
inductive Class_Three_t where
  | Class_Num
  | Class_Electronic_Peripherals
  | Class_Utilities
  deriving DecidableEq, Repr

open Class_Three_t

/-- The constants of `Class_Fifteen_t` that the code compares with: `'e'`, `'l'` and `'s'`. -/
def Class_Wrench : UInt8 := 101
def Class_Multimeter : UInt8 := 108
def Class_Sound : UInt8 := 115

/-- `Class_Info_t` -/
structure Class_Info_t where
  num : UInt8
  Class_Huge : Class_Three_t
  Class_Small : UInt8
  Class_Flag : Bool
  deriving DecidableEq, Repr

/-- `Class_Info` and `Class_Number`.  The array has 100 entries; entries from 100 on are the memory
    behind it. -/
structure Classes where
  Class_Info : ℕ → Class_Info_t
  Class_Number : UInt8

/-- The entry that every branch of `Class_Add` writes. -/
def Classes.add (c : Classes) (huge : Class_Three_t) (small : UInt8) : Classes where
  Class_Info := Function.update c.Class_Info c.Class_Number.toNat
    { Class_Flag := true, num := c.Class_Number + 1, Class_Huge := huge, Class_Small := small }
  Class_Number := c.Class_Number + 1

/-- `Class_Add`: the side to push to, and the record afterwards.  A class beyond `Class_Sound` is
    not recorded, and the function ends without a value: `junk` is returned. -/
def Class_Add (junk Class : UInt8) (c : Classes) : UInt8 × Classes :=
  if Class < Class_Wrench then
    (if ((Class.toNat : ℤ) - 1).tmod 2 ≠ 0 then 0 else 1, c.add Class_Num (Class - 1))
  else if Class ≤ Class_Multimeter then (1, c.add Class_Utilities Class)
  else if Class ≤ Class_Sound then (0, c.add Class_Electronic_Peripherals Class)
  else (junk, c)

/-- `Class_Init` -/
def Class_Init (c : Classes) : Classes where
  Class_Info := fun i =>
    if i < 100 then { c.Class_Info i with Class_Flag := false, num := 0 } else c.Class_Info i
  Class_Number := 0

/-- The entries that a call writes. -/
def Class_Add_writes (Class : UInt8) (c : Classes) : List ℕ :=
  if Class ≤ Class_Sound then [c.Class_Number.toNat] else []

/-- A run of calls. -/
def Classes.run (junk : UInt8) (c : Classes) (calls : List UInt8) : Classes :=
  calls.foldl (fun c Class => (Class_Add junk Class c).2) c

/-! ## The log -/

/-- What the `i`-th call, counted from 0, should record. -/
def Class_entry (i : ℕ) (Class : UInt8) : Class_Info_t where
  num := UInt8.ofNat (i + 1)
  Class_Huge := if Class < Class_Wrench then Class_Num
    else if Class ≤ Class_Multimeter then Class_Utilities else Class_Electronic_Peripherals
  Class_Small := if Class < Class_Wrench then Class - 1 else Class
  Class_Flag := true

/-- **The record is a log of the calls**: no call writes outside the array or changes an earlier entry,
    and at the end every call has its entry. -/
structure Logged (junk : UInt8) (c : Classes) (calls : List UInt8) : Prop where
  inside : EachStep (fun pre Class => ∀ i ∈ Class_Add_writes Class (c.run junk pre), i < 100) calls
  number : (c.run junk calls).Class_Number.toNat = calls.length
  entries : ∀ i Class, calls[i]? = some Class →
    (c.run junk calls).Class_Info i = Class_entry i Class ∧
      ((c.run junk calls).Class_Info i).num.toNat = i + 1
  kept : EachStep (fun pre Class => ∀ i < pre.length,
    (c.run junk (pre ++ [Class])).Class_Info i = (c.run junk pre).Class_Info i) calls

section

variable {junk Class : UInt8} {c : Classes} {calls : List UInt8}

theorem Classes.run_concat (junk : UInt8) (c : Classes) (calls : List UInt8) (Class : UInt8) :
    c.run junk (calls ++ [Class]) = (Class_Add junk Class (c.run junk calls)).2 := by
  rw [Classes.run, List.foldl_append]
  rfl

/-- **One call** with a class up to `Class_Sound` writes the next entry, and nothing else, be it in
    the array or behind it. -/
theorem Class_Add_eq (h : Class ≤ Class_Sound) (c : Classes) :
    (Class_Add junk Class c).2.Class_Info = Function.update c.Class_Info c.Class_Number.toNat
        (Class_entry c.Class_Number.toNat Class) ∧
      (Class_Add junk Class c).2.Class_Number = c.Class_Number + 1 := by
  rw [Class_Add, Class_entry, UInt8.ofNat_add, UInt8.ofNat_toNat]
  by_cases hnum : Class < Class_Wrench
  · rw [if_pos hnum, if_pos hnum, if_pos hnum]
    exact ⟨rfl, rfl⟩
  · rw [if_neg hnum, if_neg hnum, if_neg hnum]
    by_cases htool : Class ≤ Class_Multimeter
    · rw [if_pos htool, if_pos htool]
      exact ⟨rfl, rfl⟩
    · rw [if_neg htool, if_neg htool, if_pos h]
      exact ⟨rfl, rfl⟩

theorem run_number (h : ∀ Class ∈ calls, Class ≤ Class_Sound) :
    ((Class_Init c).run junk calls).Class_Number = UInt8.ofNat calls.length := by
  induction calls using List.reverseRecOn with
  | nil => rfl
  | append_singleton calls Class ih =>
    have hlast : Class ≤ Class_Sound := h Class (List.mem_append_right _ List.mem_cons_self)
    rw [Classes.run_concat, (Class_Add_eq hlast _).2,
      ih fun k hk => h k (List.mem_append_left _ hk), List.length_append, List.length_singleton,
      UInt8.ofNat_add]
    rfl

/-- Up to 256 calls the counter is the number of calls. -/
theorem run_number_toNat (h : ∀ Class ∈ calls, Class ≤ Class_Sound) (hlt : calls.length < 256) :
    ((Class_Init c).run junk calls).Class_Number.toNat = calls.length := by
  rw [run_number h]
  exact UInt8.toNat_ofNat_of_lt' hlt

theorem run_step (h : ∀ k ∈ calls, k ≤ Class_Sound) (hlast : Class ≤ Class_Sound)
    (hlt : calls.length < 256) :
    ((Class_Init c).run junk (calls ++ [Class])).Class_Info =
      Function.update ((Class_Init c).run junk calls).Class_Info calls.length
        (Class_entry calls.length Class) := by
  rw [Classes.run_concat, (Class_Add_eq hlast _).1, run_number_toNat h hlt]

/-- **Entries** after up to 256 calls: call `i` has written entry `i`, and no later call has
    reached it, as the counter only grows. -/
theorem run_entries (junk : UInt8) (c : Classes) (h : ∀ Class ∈ calls, Class ≤ Class_Sound) (hle : calls.length ≤ 256) :
    ∀ i Class, calls[i]? = some Class →
      ((Class_Init c).run junk calls).Class_Info i = Class_entry i Class := by
  induction calls using List.reverseRecOn with
  | nil => exact fun i Class hi => absurd hi (by simp)
  | append_singleton calls last ih =>
    intro i Class hi
    have hcalls : ∀ k ∈ calls, k ≤ Class_Sound := fun k hk => h k (List.mem_append_left _ hk)
    rw [List.length_append, List.length_singleton] at hle
    rw [run_step hcalls (h last (List.mem_append_right _ List.mem_cons_self)) (by omega)]
    rcases Nat.lt_trichotomy i calls.length with hlt | rfl | hgt
    · rw [List.getElem?_append_left hlt] at hi
      rw [Function.update_of_ne hlt.ne]
      exact ih hcalls (by omega) i Class hi
    · rw [List.getElem?_concat_length] at hi
      rw [Function.update_self, Option.some.inj hi]
    · have hnone : (calls ++ [last])[i]? = none := by
        apply List.getElem?_eq_none
        rw [List.length_append, List.length_singleton]
        omega
      rw [hnone] at hi
      cases hi

theorem pre_le {pre : List UInt8} (h : ∀ Class ∈ calls, Class ≤ Class_Sound)
    (hpre : pre ++ [Class] <+: calls) :
    (∀ k ∈ pre, k ≤ Class_Sound) ∧ Class ≤ Class_Sound ∧ pre.length < calls.length := by
  refine ⟨fun k hk => h k (hpre.subset (List.mem_append_left _ hk)),
    h Class (hpre.subset (List.mem_append_right _ List.mem_cons_self)), ?_⟩
  have hlength := hpre.length_le
  rw [List.length_append, List.length_singleton] at hlength
  omega

/-- **The call after the first 100** writes behind the array: the number is not compared with its
    length. -/
theorem inside_iff (junk : UInt8) (c : Classes) (h : ∀ Class ∈ calls, Class ≤ Class_Sound) :
    EachStep (fun pre Class => ∀ i ∈ Class_Add_writes Class ((Class_Init c).run junk pre), i < 100)
      calls ↔ calls.length ≤ 100 := by
  constructor
  · intro hinside
    by_contra hlong
    have hget : calls[100]? = some (calls.get ⟨100, by omega⟩) :=
      List.getElem?_eq_getElem (by omega)
    have hpre : calls.take 100 ++ [calls.get ⟨100, by omega⟩] <+: calls := by
      have htake : calls.take 101 = calls.take 100 ++ [calls.get ⟨100, by omega⟩] := by
        rw [List.take_add_one, hget]
        rfl
      rw [← htake]
      exact List.take_prefix 101 calls
    obtain ⟨hcodes, hlast, -⟩ := pre_le h hpre
    have hlength : (calls.take 100).length = 100 := by
      rw [List.length_take]
      omega
    have hwrites : ∀ i ∈ Class_Add_writes _ ((Class_Init c).run junk (calls.take 100)), i < 100 :=
      hinside _ _ hpre
    rw [Class_Add_writes, if_pos hlast, run_number_toNat hcodes (by omega), hlength] at hwrites
    exact absurd (hwrites 100 List.mem_cons_self) (lt_irrefl 100)
  · intro hle pre Class hpre i hi
    obtain ⟨hcodes, hlast, hlt⟩ := pre_le h hpre
    rw [Class_Add_writes, if_pos hlast, List.mem_singleton,
      run_number_toNat hcodes (by omega)] at hi
    omega

/-- **Log** — the record is a log of the calls exactly when there are at most 100 of them. -/
theorem Class_Add_logged_iff (junk : UInt8) (c : Classes) (calls : List UInt8)
    (h : ∀ Class ∈ calls, Class ≤ Class_Sound) :
    Logged junk (Class_Init c) calls ↔ calls.length ≤ 100 := by
  constructor
  · intro hlog
    exact (inside_iff junk c h).mp hlog.inside
  · intro hle
    refine ⟨(inside_iff junk c h).mpr hle, run_number_toNat h (by omega), ?_, ?_⟩
    · intro i Class hi
      have hilt : i < calls.length := (List.getElem?_eq_some_iff.mp hi).1
      have hentry := run_entries junk c h (by omega) i Class hi
      refine ⟨hentry, ?_⟩
      rw [hentry]
      apply UInt8.toNat_ofNat_of_lt'
      show i + 1 < 256
      omega
    · intro pre Class hpre i hi
      obtain ⟨hcodes, hlast, hlt⟩ := pre_le h hpre
      rw [run_step hcodes hlast (by omega), Function.update_of_ne hi.ne]

end

/-- Memory that is all zero. -/
def Classes.zero : Classes := ⟨fun _ => ⟨0, Class_Num, 0, false⟩, 0⟩

/-- A number, a tool and a device. -/
theorem Class_Add_logged_three :
    Logged 0 (Class_Init Classes.zero) [5, 101, 115] :=
  (Class_Add_logged_iff 0 Classes.zero [5, 101, 115] (by decide +kernel)).mpr (by decide)

/-- The same number over and over. -/
def fives (n : ℕ) : List UInt8 := List.replicate n 5

/-- After 100 calls the next one writes entry 100. -/
theorem Class_Add_logged_full :
    (∀ Class ∈ fives 101, Class ≤ Class_Sound) ∧
      ¬ Logged 0 (Class_Init Classes.zero) (fives 101) := by
  constructor
  · intro Class hc
    rw [List.eq_of_mem_replicate hc]
    decide
  · intro hlog
    have hpre : fives 100 ++ [5] <+: fives 101 := by
      have hsplit : fives 101 = fives 100 ++ [5] := List.replicate_succ'
      rw [hsplit]
    have hwrites : 100 ∈ Class_Add_writes 5 ((Class_Init Classes.zero).run 0 (fives 100)) := by
      decide +kernel
    exact absurd (hlog.inside _ _ hpre 100 hwrites) (lt_irrefl 100)

end Car2025
