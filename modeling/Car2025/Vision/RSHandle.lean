/-
  One frame of the vision code: `Vision_SymbolJudge` followed by `Vision_RSHandle`.

  1. **State** — the globals the two functions read and write, and the function-local statics
     (`Cross_state`, `out_n`, `init_angle`, `Zebra_tick`).  The pointers of `Circule_Handle` point
     into the left or the right half of the globals; each is the half it points to, or nothing
     before it is first set.

  2. **Inputs of a frame** — what `Vision_IsZebra` and `rt_tick_get` return, and the two readings of
     the yaw angle in a handler: the one that is tested and the one that is stored, with the
     attitude interrupt free to run between them.

  3. **Program** — the handlers, statement by statement.  Texts shown on the screen and printed, the
     buzzer, and the delays are left out.  `Vision_Cir_Normal_Handle` is commented out in the source
     and so are the handlers only it calls.
-/
import Mathlib
import Car2025.Car
import Car2025.Vision.SymbolJudge
import Car2025.Vision.Lines
import Car2025.Vision.FeaturePoint

namespace Car2025

open segment_type RoadSymbol_type Speed_Con_Right

/-! ## State -/

def Side.other : Side → Side
  | .L => .R
  | .R => .L

/-- `Image_S`, as far as the road handlers use it. -/
structure Image where
  leftBroder : Broder
  rightBroder : Broder

def Image.broder (I : Image) : Side → Broder
  | .L => I.leftBroder
  | .R => I.rightBroder

def Image.setBroder (I : Image) (side : Side) (b : Broder) : Image :=
  match side with
  | .L => { I with leftBroder := b }
  | .R => { I with rightBroder := b }

def Feature.side (F : Feature) : Side → FeatureSide
  | .L => F.L
  | .R => F.R

/-- The static `state` of `Vision_CrossHandle`. -/
inductive Cross where
  | Cross_Begin
  | Cross_State_1
  deriving DecidableEq, Repr

/-- The values of `Circule_Handle.state`. -/
inductive Circule where
  | Circule_Begin
  | Circule_State1
  | Circule_State2
  | Circule_State3
  | Circule_in
  | Circule_Cor
  | Circule_out
  | Circule_end
  deriving DecidableEq, Repr

open Circule Car2025.Cross

/-- `Circule_Handle`; `LEFT_CIRCULE` is `Side.L`. -/
structure Circule_Handle_t where
  circule_seg : Option Side
  anti_cir_seg : Option Side
  circule_broder : Option Side
  anti_cir_broder : Option Side
  circule_fp : Option Side
  anti_cir_fp : Option Side
  circule_fp_n : Option Side
  anti_cir_fp_n : Option Side
  circule_seg_n : Option Side
  anti_cir_seg_n : Option Side
  tick : ℕ
  state : Circule
  Circule_LorR : Side
  deriving DecidableEq, Repr

/-- The globals and statics of a frame. -/
structure Vision (R : Type) where
  Current_Road : RoadSymbol_type
  F : Feature
  Image_S : Image
  Cross_state : Cross
  L_or_R_Cross : Side
  Circule_Handle : Circule_Handle_t
  out_n : ℤ
  init_angle : R
  cir_speed_flag : Bool
  Zebra_tick : ℤ
  Start_Flag : Bool
  car : Car R

/-- What a frame reads from outside. -/
structure Inputs (R : Type) where
  zebra : Bool
  yaw : R
  yaw_stored : R
  rt_tick : ℤ

/-- Following a pointer. -/
def deref (p : Option Side) : Except Stop Side :=
  match p with
  | none => .error .null
  | some side => .ok side

section

variable {R : Type} [CFloat R]

/-! ## `Vision_CrossHandle` -/

/-- The two extensions of a crossing that is entered at an angle. -/
def CrossHandle_extend (o : Outside) (s : Vision R) : Except Stop (Vision R) := do
  if CrossCon4 s.F then
    if IsArc (s.F.L.my_segment 0) && decide (s.F.L.segment_n = 1) then
      let left ← Vision_ExtendLine R o s.Image_S.leftBroder (s.F.L.feature_p 0).x true
      let right ← Vision_ExtendLine R o s.Image_S.rightBroder (s.F.R.feature_p 0).x false
      pure { s with Image_S := ⟨left, right⟩ }
    else if IsArc (s.F.R.my_segment 0) && decide (s.F.R.segment_n = 1) then
      let left ← Vision_ExtendLine R o s.Image_S.leftBroder (s.F.L.feature_p 0).x false
      let right ← Vision_ExtendLine R o s.Image_S.rightBroder (s.F.R.feature_p 0).x true
      pure { s with Image_S := ⟨left, right⟩ }
    else pure s
  else pure s

/-- The side on which a crossing is left, from the mid-line's slope. -/
def CrossHandle_side (o : Outside) (s : Vision R) : Except Stop (Vision R) := do
  if s.Start_Flag then
    let car := Car_Change_Speed (CFloat.ofInt 0) (CFloat.ofInt 0) (CFloat.ofInt 0) s.car
    let left0 ← rd o s.Image_S.leftBroder 0
    let right0 ← rd o s.Image_S.rightBroder 0
    let left30 ← rd o s.Image_S.leftBroder 30
    let right30 ← rd o s.Image_S.rightBroder 30
    let k : R ← Line_CalK o ⟨0, (left0 + right0).tdiv 2⟩ ⟨30, (left30 + right30).tdiv 2⟩
    pure { s with car, L_or_R_Cross := if CFloat.lt k (CFloat.ofInt 0) then .R else .L }
  else pure s

/-- `Vision_CrossHandle`.  `IsLose(!F.my_segment_L[0])` negates the type before it is compared with
    `lose_segment`, so it holds of `NULL_segment`. -/
def Vision_CrossHandle (o : Outside) (s : Vision R) : Except Stop (Vision R) := do
  match s.Cross_state with
  | Cross_Begin =>
    if s.F.L.FP_n = 0 ∧ s.F.R.FP_n = 0 then pure { s with Current_Road := NormalRoads }
    else if IsLose (s.F.L.my_segment 0) && IsLose (s.F.R.my_segment 0) then
      CrossHandle_extend o { s with Cross_state := Cross_State_1 }
    else CrossHandle_extend o s
  | Cross_State_1 =>
    if !IsNull (s.F.L.my_segment 0) && !IsLose (s.F.R.my_segment 0) then
      let s ← CrossHandle_side o s
      CrossHandle_extend o { s with Cross_state := Cross_Begin, Current_Road := NormalRoads }
    else CrossHandle_extend o s

/-! ## `Vision_CornerHandle` -/

/-- `for(int i = begin;i>end;i--) broder[i] = LEFT_LOSE_VALUE;`, `n` rows from row `i` down. -/
def lose_rows (o : Outside) : ℕ → ℤ → Broder → Except Stop Broder
  | 0, _, broder => pure broder
  | n + 1, i, broder => do lose_rows o n (i - 1) (← wr o broder i LEFT_LOSE_VALUE)

/-- The rows of a segment but its last one are set to `LEFT_LOSE_VALUE`, on either side. -/
def lose_segment_rows (o : Outside) (side : Side) (s : Vision R) : Except Stop (Vision R) := do
  let seg := (s.F.side side).my_segment 1
  let broder ← lose_rows o (seg.begin - seg.end).toNat seg.begin (s.Image_S.broder side)
  pure { s with Image_S := s.Image_S.setBroder side broder }

/-- `Vision_CornerHandle` -/
def Vision_CornerHandle (o : Outside) (s : Vision R) : Except Stop (Vision R) := do
  let l := s.F.L.my_segment 1
  let r := s.F.R.my_segment 1
  let s ← (if CornerState1 s.F then pure s
    else if CornerState2 s.F then
      if l.end - l.begin > r.end - r.begin then lose_segment_rows o .R s
      else if l.end - l.begin < r.end - r.begin then lose_segment_rows o .L s
      else pure s
    else if CornerState3 s.F then
      if IsLose (s.F.L.my_segment 0) then lose_segment_rows o .R s
      else if IsLose (s.F.R.my_segment 0) then lose_segment_rows o .L s
      else pure s
    else pure s : Except Stop (Vision R))
  pure { s with Current_Road := NormalRoads }

/-! ## `Vision_CirculeHandle` -/

/-- `Vision_CirculeState1_Handle` -/
def Vision_CirculeState1_Handle (o : Outside) (s : Vision R) : Except Stop (Vision R) := do
  let fp_n := (s.F.side (← deref s.Circule_Handle.circule_fp_n)).FP_n
  let seg0 := (s.F.side (← deref s.Circule_Handle.circule_seg)).my_segment 0
  let s ← (if fp_n ≠ 0 ∧ IsLose seg0 = false then do
      let anti := s.Image_S.broder (← deref s.Circule_Handle.anti_cir_broder)
      let slope : R ← Point_CalSlope o ⟨0, ← rd o anti 0⟩ ⟨imgRow - 1, ← rd o anti (imgRow - 1)⟩
      let side ← deref s.Circule_Handle.circule_broder
      let seed := ((s.F.side (← deref s.Circule_Handle.circule_fp)).feature_p 0).x
      let broder ← Vision_SetLineWithPointK o (s.Image_S.broder side) seed (-slope) 0 (imgRow - 1)
      pure { s with Image_S := s.Image_S.setBroder side broder }
    else pure s : Except Stop (Vision R))
  if IsLose seg0 then
    let tick := (s.Circule_Handle.tick + 1) % 256
    if tick = 5 then
      pure { s with Circule_Handle := { s.Circule_Handle with state := Circule_State2, tick := 0 } }
    else pure { s with Circule_Handle := { s.Circule_Handle with tick } }
  else pure { s with Circule_Handle := { s.Circule_Handle with tick := 0 } }

/-- The borders of a circle: a straight line from column `far` to column `near` on the opposite
    side, and nothing on the side of the circle. -/
def circule_lines (o : Outside) (far near : Side → ℤ) (s : Vision R) :
    Except Stop (Vision R) := do
  let anti ← deref s.Circule_Handle.anti_cir_broder
  let broder ← wr o (s.Image_S.broder anti) 0 (far s.Circule_Handle.Circule_LorR)
  let broder ← wr o broder 69 (near s.Circule_Handle.Circule_LorR)
  let broder ← Vision_set_AdditionalLine R o 0 (imgRow - 1) broder
  let I := s.Image_S.setBroder anti broder
  let side ← deref s.Circule_Handle.circule_broder
  let broder ← Vision_SetLose o side (I.broder side) 0 (imgRow - 1)
  pure { s with Image_S := I.setBroder side broder }

/-- `fabs(Att_CurrentYaw - init_angle) > bound` -/
def turned (bound : ℤ) (yaw init_angle : R) : Bool :=
  CFloat.lt (CFloat.ofInt bound) (CFloat.abs (yaw - init_angle))

/-- The case `Circule_State2` of `Vision_Cir_PI_Handle`. -/
def Cir_PI_State2 (inp : Inputs R) (s : Vision R) : Vision R :=
  { s with
    init_angle := inp.yaw_stored
    Circule_Handle := { s.Circule_Handle with state := Circule_State3, tick := 0 } }

/-- The case `Circule_State3`. -/
def Cir_PI_State3 (o : Outside) (inp : Inputs R) (s : Vision R) : Except Stop (Vision R) := do
  let s ← circule_lines o (fun side => if side = .L then 0 else 187)
    (fun side => if side = .L then 187 else 10) s
  if turned 65 inp.yaw s.init_angle then
    pure { s with
      car := { s.car with Car_Speed_ConRight := Con_By_TraceLine }
      init_angle := inp.yaw_stored
      Circule_Handle := { s.Circule_Handle with state := Circule_Cor } }
  else pure s

/-- The case `Circule_Cor`. -/
def Cir_PI_Cor (inp : Inputs R) (s : Vision R) : Vision R :=
  if turned 170 inp.yaw s.init_angle then
    { s with
      init_angle := inp.yaw_stored
      Circule_Handle := { s.Circule_Handle with state := Circule_out } }
  else s

/-- `fabs(init_angle - Att_CurrentYaw) > bound`, the other way round. -/
def turned_back (bound : ℤ) (yaw init_angle : R) : Bool :=
  CFloat.lt (CFloat.ofInt bound) (CFloat.abs (init_angle - yaw))

/-- The case `Circule_out`. -/
def Cir_PI_out (o : Outside) (inp : Inputs R) (s : Vision R) : Except Stop (Vision R) := do
  let s ← circule_lines o (fun side => if side = .L then 0 else 186)
    (fun side => if side = .L then 180 else 20) s
  if turned_back 50 inp.yaw s.init_angle then
    pure { s with
      car := { s.car with Car_Speed_ConRight := Con_By_TraceLine }
      Circule_Handle := { s.Circule_Handle with state := Circule_Begin }
      Current_Road := NormalRoads }
  else pure s

/-- `Vision_Cir_PI_Handle` -/
def Vision_Cir_PI_Handle (o : Outside) (inp : Inputs R) (s : Vision R) :
    Except Stop (Vision R) :=
  let s := { s with
    cir_speed_flag := decide (s.Circule_Handle.state = Circule_State3) ||
      decide (s.Circule_Handle.state = Circule_out) }
  match s.Circule_Handle.state with
  | Circule_State1 => Vision_CirculeState1_Handle o s
  | Circule_State2 => pure (Cir_PI_State2 inp s)
  | Circule_State3 => Cir_PI_State3 o inp s
  | Circule_Cor => pure (Cir_PI_Cor inp s)
  | Circule_out => Cir_PI_out o inp s
  | _ => pure s

/-- The pointers that `Vision_CirculeHandle` sets for a side. -/
def Circule_Handle_t.aim (h : Circule_Handle_t) (side : Side) : Circule_Handle_t :=
  { h with
    Circule_LorR := side
    circule_seg := some side
    anti_cir_seg := some side.other
    circule_broder := some side
    anti_cir_broder := some side.other
    circule_fp := some side
    anti_cir_fp := some side.other
    circule_fp_n := some side
    anti_cir_fp_n := some side.other
    circule_seg_n := some side
    anti_cir_seg_n := some side.other }

/-- The side of a circle that is entered: opposite to a straight border, or as it was. -/
def circule_side (s : Vision R) : Side :=
  if IsStrai (s.F.L.my_segment 0) && decide (s.F.L.segment_n = 1) then .R
  else if IsStrai (s.F.R.my_segment 0) && decide (s.F.R.segment_n = 1) then .L
  else s.Circule_Handle.Circule_LorR

/-- `if(!Circule_Handle.state)`: a pass begins. -/
def CirculeHandle_enter (s : Vision R) : Vision R :=
  if s.Circule_Handle.state = Circule_Begin then
    { s with
      Circule_Handle :=
        { s.Circule_Handle.aim (circule_side s) with tick := 0, state := Circule_State1 } }
  else s

/-- The error detection in the states 1 and 2: three frames without a straight opposite border. -/
def CirculeHandle_check (s : Vision R) : Except Stop (Vision R) := do
  if s.Circule_Handle.state = Circule_State1 ∨ s.Circule_Handle.state = Circule_State2 then
    let seg0 := (s.F.side (← deref s.Circule_Handle.anti_cir_seg)).my_segment 0
    let out_n := if !(IsStrai seg0 && decide (Vision_GetSegLenghth seg0 ≥ 20) || IsStrai seg0)
      then s.out_n + 1 else 0
    if out_n = 3 then
      pure { s with
        Current_Road := NormalRoads
        Circule_Handle := { s.Circule_Handle with state := Circule_Begin }
        out_n := 0 }
    else pure { s with out_n }
  else pure s

/-- `Vision_CirculeHandle` -/
def Vision_CirculeHandle (o : Outside) (inp : Inputs R) (s : Vision R) :
    Except Stop (Vision R) := do
  let s ← CirculeHandle_check (CirculeHandle_enter s)
  Vision_Cir_PI_Handle o inp s

/-! ## `Vision_ZebraHandle` and `Vision_RSHandle` -/

/-- `Vision_ZebraHandle`: more than 5000 ticks after the start the run is over, and the function
    shows the results for ever.  The difference of ticks is unsigned. -/
def Vision_ZebraHandle (inp : Inputs R) (s : Vision R) : Except Stop (Vision R) :=
  if s.Start_Flag ∧ (inp.rt_tick - s.Zebra_tick) % 2 ^ 32 > 5000 then .error .finished
  else if s.Start_Flag = false then
    pure { s with Start_Flag := true, Zebra_tick := inp.rt_tick, Current_Road := NormalRoads }
  else pure { s with Current_Road := NormalRoads }

/-- `Vision_RSHandle` -/
def Vision_RSHandle (o : Outside) (inp : Inputs R) (s : Vision R) : Except Stop (Vision R) :=
  match s.Current_Road with
  | LoseRoads => pure { s with Current_Road := NormalRoads }
  | NormalRoads => pure s
  | CrossRoads => Vision_CrossHandle o s
  | CirculeRoads => Vision_CirculeHandle o inp s
  | CornerRoads => Vision_CornerHandle o s
  | ZebraRoads => Vision_ZebraHandle inp s

/-! ## `Vision_SymbolJudge` -/

variable (R) in
/-- The segments and feature points of both borders; `junk k` is what the stack holds in the `k`-th
    call. -/
def SymbolJudge_features (o : Outside) (junk : ℕ → ℕ → Uninit) (I : Image) (F : Feature) :
    Except Stop (Image × Feature) := do
  let (left, l) ← Vision_GetSegment R o (junk 0) true I.leftBroder F.L
  let (right, r) ← Vision_GetSegment R o (junk 1) false I.rightBroder F.R
  let (left, l) ← Vision_BroderFindFP R o (junk 2) left l
  let (right, r) ← Vision_BroderFindFP R o (junk 3) right r
  pure (⟨left, right⟩, ⟨l, r⟩)

/-- The verdict on the features that were found. -/
def SymbolJudge_verdict (inp : Inputs R) (s : Vision R) : Vision R :=
  { s with Current_Road := SymbolJudge_road s.F inp.zebra s.Current_Road }

/-- `Vision_SymbolJudge` on the borders of a new image. -/
def Vision_SymbolJudge (o : Outside) (junk : ℕ → ℕ → Uninit) (inp : Inputs R) (I : Image)
    (s : Vision R) : Except Stop (Vision R) := do
  let (I, F) ← SymbolJudge_features R o junk I s.F
  pure (SymbolJudge_verdict inp { s with Image_S := I, F })

/-- The statics and globals before the first frame. -/
def Vision.start (I : Image) : Vision R where
  Current_Road := NormalRoads
  F := ⟨.cleared, .cleared⟩
  Image_S := I
  Cross_state := Cross_Begin
  L_or_R_Cross := .L
  Circule_Handle := ⟨none, none, none, none, none, none, none, none, none, none, 0, Circule_Begin, .L⟩
  out_n := 0
  init_angle := CFloat.ofInt 0
  cir_speed_flag := false
  Zebra_tick := 0
  Start_Flag := false
  car := Car.start

end

end Car2025
