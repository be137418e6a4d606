/-
  `Vision_GetSegment`: one border becomes a table of segments.

  1. **Data** — `segment_t`, the halves of `Feature` (`F.my_segment_L`, `F.feature_p_L`, `F.FP_n_L`
     and `F.segment_n_L` are the fields of `F.L`), as `my_vision.h` declares them.  Tables are
     functions of the index; every use of an index goes through `entry` / `setEntry`, which stop at
     an index above 9.

  2. **Program** — the row scan from row 69 down to row 1 (`row_scan`), the merge of a short first
     segment (`merge_first`) and the classification of what is not lost (`classify`).  The scan
     reads the border it rewrites, and a segment is opened one row after its predecessor closed.

  The two sides are written out by hand in the source; each condition below is the source's `if`
  on `LorR`, with the constants of its side.
-/
import Mathlib
import Car2025.UserMath

namespace Car2025

/-! ## Data of `my_vision.h` -/

inductive segment_type where
  | NULL_segment
  | lose_segment
  | straight_segment
  | arc_segment
  | corner_segment
  deriving DecidableEq, Repr

open segment_type

/-- `NEAR`, the only value ever given to `position`. -/
def NEAR : ℕ := 0

/-- `segment_t` -/
structure segment_t where
  begin : ℤ
  «end» : ℤ
  type : segment_type
  position : ℕ
  deriving DecidableEq, Repr

/-- The entry the table is cleared to: `(NULL_segment, 0, 0)`, position `NEAR`. -/
def segment_t.cleared : segment_t := ⟨0, 0, NULL_segment, NEAR⟩

def IsLose (seg : segment_t) : Bool := seg.type = lose_segment
def IsStrai (seg : segment_t) : Bool := seg.type = straight_segment
def IsNull (seg : segment_t) : Bool := seg.type = NULL_segment
def IsArc (seg : segment_t) : Bool := seg.type = arc_segment
def IsArcCorner (seg : segment_t) : Bool := seg.type = arc_segment || seg.type = corner_segment

/-- `Vision_GetSegLenghth` -/
def Vision_GetSegLenghth (seg : segment_t) : ℤ := |seg.begin - seg.end + 1|

/-- `Vision_IsLone`: long enough. -/
def Vision_IsLone (seg : segment_t) : Bool := 15 ≤ seg.begin - seg.end

/-- A table `segment_t my_segment[10]`. -/
abbrev Segments := ℕ → segment_t

/-- One side of `Feature`. -/
structure FeatureSide where
  my_segment : Segments
  feature_p : ℕ → point_t
  FP_n : ℤ
  segment_n : ℤ

/-- A side as it is at start-up. -/
def FeatureSide.cleared : FeatureSide := ⟨fun _ => segment_t.cleared, fun _ => ⟨0, 0⟩, 0, 0⟩

/-- `Feature`; `F.my_segment_L` is `F.L.my_segment`, and so on. -/
structure Feature where
  L : FeatureSide
  R : FeatureSide

/-- The read `target_segment[i]`. -/
def entry (t : Segments) (i : ℕ) : Except Stop segment_t :=
  if i ≤ 9 then .ok (t i) else .error (.entry i)

/-- The write `target_segment[i] = e`. -/
def setEntry (t : Segments) (i : ℕ) (e : segment_t) : Except Stop Segments :=
  if i ≤ 9 then .ok (Function.update t i e) else .error (.entry i)

theorem entry_of_le {t : Segments} {i : ℕ} (h : i ≤ 9) : entry t i = .ok (t i) := if_pos h

theorem setEntry_of_le {t : Segments} {i : ℕ} {e : segment_t} (h : i ≤ 9) :
    setEntry t i e = .ok (Function.update t i e) :=
  if_pos h

/-! ## The row scan -/

/-- The variables of the row scan. -/
structure Scan where
  broder : Broder
  target_segment : Segments
  segment_n : ℕ
  begin_flag : Bool

/-- `LorR ? LEFT_LOSE_VALUE : RIGHT_LOSE_VALUE` -/
def lose_value (LorR : Bool) : ℤ := if LorR then LEFT_LOSE_VALUE else RIGHT_LOSE_VALUE

/-- The test that gives a new segment the type `lose_segment`. -/
def begins_lose (o : Outside) (LorR : Bool) (broder : Broder) (i : ℤ) : Except Stop Bool :=
  if i - 2 ≥ 0 then
    if LorR then allRows o broder (fun v => v ≤ 3) [i, i - 1]
    else allRows o broder (fun v => v ≥ RIGHT_LOSE_VALUE - 5) [i, i - 1]
  else pure false

/-- The test that ends a lost segment: four rows away from the edge. -/
def ends_lose (o : Outside) (LorR : Bool) (broder : Broder) (i : ℤ) : Except Stop Bool :=
  if LorR then allRows o broder (fun v => v > 5) [i, i - 1, i - 2, i - 3]
  else allRows o broder (fun v => v < RIGHT_LOSE_VALUE - 5) [i, i - 1, i - 2, i - 3]

/-- The test that ends a segment that is not lost: three rows at the edge. -/
def ends_null (o : Outside) (LorR : Bool) (broder : Broder) (i : ℤ) : Except Stop Bool :=
  if LorR then allRows o broder (fun v => v ≤ 5) [i, i - 1, i - 2]
  else allRows o broder (fun v => v ≥ RIGHT_LOSE_VALUE - 5) [i, i - 1, i - 2]

/-- `broder[i] = broder[i-1] = broder[i-2] = v`, one after the other. -/
def wr3 (o : Outside) (broder : Broder) (i v : ℤ) : Except Stop Broder := do
  let broder ← wr o broder i v
  let broder ← wr o broder (i - 1) v
  wr o broder (i - 2) v

/-- The first half of a pass, `if(begin_flag)`: a new segment is opened at row `i`. -/
def scan_begin (o : Outside) (LorR : Bool) (i : ℤ) (s : Scan) : Except Stop Scan := do
  let seg ← entry s.target_segment s.segment_n
  let seg := { seg with begin := if i = imgRow - 1 then i else i + 1 }
  if ← begins_lose o LorR s.broder i then
    let target_segment ← setEntry s.target_segment s.segment_n { seg with type := lose_segment }
    let broder ← wr3 o s.broder i (lose_value LorR)
    pure { s with broder, target_segment, begin_flag := false }
  else
    let target_segment ← setEntry s.target_segment s.segment_n { seg with type := NULL_segment }
    pure { s with target_segment, begin_flag := false }

/-- The second half of a pass: the open segment is closed at row `i + 1`, or row `i` joins it. -/
def scan_end (o : Outside) (LorR : Bool) (i : ℤ) (s : Scan) : Except Stop Scan := do
  let seg ← entry s.target_segment s.segment_n
  if seg.type = lose_segment then
    if i ≥ 3 then
      if ← ends_lose o LorR s.broder i then
        let target_segment ← setEntry s.target_segment s.segment_n { seg with «end» := i + 1 }
        pure { s with target_segment, segment_n := s.segment_n + 1, begin_flag := true }
      else
        let broder ← wr o s.broder i (lose_value LorR)
        pure { s with broder }
    else pure s
  else if seg.type = NULL_segment then
    if i ≥ 2 then
      if ← ends_null o LorR s.broder i then
        let broder ← wr3 o s.broder i (lose_value LorR)
        let target_segment ← setEntry s.target_segment s.segment_n { seg with «end» := i + 1 }
        pure { broder, target_segment, segment_n := s.segment_n + 1, begin_flag := true }
      else
        let v ← rd o s.broder i
        let v ← if v ≤ LEFT_LOSE_VALUE + 5 ∨ v ≥ RIGHT_LOSE_VALUE - 5 then rd o s.broder (i + 1)
          else rd o s.broder i
        let broder ← wr o s.broder i v
        pure { s with broder }
    else pure s
  else pure s

/-- One pass of the loop `for(int i = imgRow-1 ; i>0 ; i--)`. -/
def scan_row (o : Outside) (LorR : Bool) (i : ℤ) (s : Scan) : Except Stop Scan := do
  let s ← if s.begin_flag then scan_begin o LorR i s else pure s
  scan_end o LorR i s

/-- The passes for the rows `n, n - 1, …, 1`. -/
def scan_rows (o : Outside) (LorR : Bool) : ℕ → Scan → Except Stop Scan
  | 0, s => pure s
  | n + 1, s => do scan_rows o LorR n (← scan_row o LorR ((n + 1 : ℕ) : ℤ) s)

/-- The variables after the clearing loop over the ten entries. -/
def scan_start (broder : Broder) : Scan := ⟨broder, fun _ => segment_t.cleared, 0, true⟩

/-- The clearing loop and the scan of `Vision_GetSegment`. -/
def row_scan (o : Outside) (LorR : Bool) (broder : Broder) : Except Stop Scan :=
  scan_rows o LorR 69 (scan_start broder)

/-! ## The merge of a short first segment -/

/-- `for(int i = begin;i>=end;i--) broder[i] = broder[src];`, `n` rows from row `i` down. -/
def fill_rows (o : Outside) (src : ℤ) : ℕ → ℤ → Broder → Except Stop Broder
  | 0, _, broder => pure broder
  | n + 1, i, broder => do fill_rows o src n (i - 1) (← wr o broder i (← rd o broder src))

/-- `for(int i = 1 ;i<=segment_n;i++)`, the fields of entry `i + 1` go to entry `i`. -/
def shift_entries : ℕ → ℕ → Segments → Except Stop Segments
  | 0, _, t => pure t
  | n + 1, i, t => do
    let next ← entry t (i + 1)
    let seg ← entry t i
    let t ← setEntry t i { seg with begin := next.begin, «end» := next.end, type := next.type }
    shift_entries n (i + 1) t

/-- What the merge leaves: the border, the table, and `segment_n`. -/
structure Merged where
  broder : Broder
  target_segment : Segments
  segment_n : ℤ

/-- `if(target_segment[0].begin - target_segment[0].end <= 5)`: the first segment joins the
    second. -/
def merge_first (o : Outside) (s : Scan) : Except Stop Merged := do
  let e0 ← entry s.target_segment 0
  if e0.begin - e0.end ≤ 5 then
    let e1 ← entry s.target_segment 1
    let broder ← fill_rows o e1.end (e0.begin - e0.end + 1).toNat e0.begin s.broder
    let t ← setEntry s.target_segment 0 { e0 with «end» := e1.end, type := e1.type }
    let t ← shift_entries s.segment_n 1 t
    pure ⟨broder, t, (s.segment_n : ℤ) - 1⟩
  else pure ⟨s.broder, s.target_segment, s.segment_n⟩

/-! ## The classification -/

section

variable (R : Type) [CFloat R]

/-- The type given to a segment that is not lost. -/
def classify_segment (o : Outside) (junk : Uninit) (broder : Broder) (seg : segment_t) :
    Except Stop segment_type := do
  if ← Line_IsStraight R o broder seg.begin seg.end then pure straight_segment
  else if ← Line_IsMonotonous o junk broder seg.begin seg.end then pure corner_segment
  else pure arc_segment

/-- `for(int i = 0;i<segment_n+1;i++)`, from `i` on; `junk i` is what the stack holds when entry
    `i` is looked at. -/
def classify (o : Outside) (junk : ℕ → Uninit) (broder : Broder) :
    ℕ → ℕ → Segments → Except Stop Segments
  | 0, _, t => pure t
  | n + 1, i, t => do
    let seg ← entry t i
    if seg.type = NULL_segment then
      let type ← classify_segment R o (junk i) broder seg
      let t ← setEntry t i { seg with type }
      classify o junk broder n (i + 1) t
    else classify o junk broder n (i + 1) t

/-- `Vision_GetSegment(broder, LorR)`; `S` is the side of `F` that `LorR` selects. -/
def Vision_GetSegment (o : Outside) (junk : ℕ → Uninit) (LorR : Bool) (broder : Broder)
    (S : FeatureSide) : Except Stop (Broder × FeatureSide) := do
  let s ← row_scan o LorR broder
  let m ← merge_first o s
  let t ← classify R o junk m.broder (m.segment_n + 1).toNat 0 m.target_segment
  pure (m.broder, { S with my_segment := t, segment_n := m.segment_n + 1 })

end

end Car2025
