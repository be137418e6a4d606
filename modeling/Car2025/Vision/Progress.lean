/-
  What the road handlers are for: the progress of the car through crossings and circles.

  1. **Model** — `Progress` is what a reader would draw on paper: the road is normal, or a crossing is
     under way, or a circle is, at one of its five stages.  A circle remembers the side it is on, and
     each stage carries just what it needs: a count of lost frames below 5, a count of frames without
     a straight opposite border below 3, or the yaw from which a turn is measured.  No value describes
     a circle and a crossing at once, a count that has run over, or a turn without its yaw.

  2. **Steps** — `Progress.step` says what one frame does to it: whether it goes on, and how.

  3. **Inversion (`Stage.Moves`, `Stage.step_eq_none`)** — everything a frame can do to a circle.
-/
import Mathlib
import Car2025.Vision.RSHandle

namespace Car2025

open RoadSymbol_type Circule Car2025.Cross

/-! ## Frames -/

/-- What the road handlers find in a frame: the features and borders of the image, what other code
    may have set since the last one, and the readings. -/
structure Frame (R : Type) where
  F : Feature
  Image_S : Image
  Start_Flag : Bool
  car : Car R
  inp : Inputs R

/-- The state as the handlers find it in a frame. -/
def Vision.seen {R : Type} (s : Vision R) (f : Frame R) : Vision R :=
  { s with F := f.F, Image_S := f.Image_S, Start_Flag := f.Start_Flag, car := f.car }

/-- The border next to the car is lost on a side. -/
def Frame.lost {R : Type} (f : Frame R) (side : Side) : Bool :=
  IsLose ((f.F.side side).my_segment 0)

/-- The border next to the car is straight on a side. -/
def Frame.straight {R : Type} (f : Frame R) (side : Side) : Bool :=
  IsStrai ((f.F.side side).my_segment 0)

/-! ## Model -/

/-- The stages of a circle. -/
inductive Stage (R : Type) where
  | state1 (tick : Fin 5) (out_n : Fin 3)
  | state2 (out_n : Fin 3)
  | state3 (init_angle : R)
  | cor (init_angle : R)
  | out (init_angle : R)

inductive Progress (R : Type) where
  | normal
  | cross (c : Cross)
  | circule (side : Side) (stage : Stage R)

/-- The value of `Circule_Handle.state` at a stage. -/
def Stage.state {R : Type} : Stage R → Circule
  | .state1 _ _ => Circule_State1
  | .state2 _ => Circule_State2
  | .state3 _ => Circule_State3
  | .cor _ => Circule_Cor
  | .out _ => Circule_out

def Progress.state {R : Type} : Progress R → Circule
  | .normal => Circule_Begin
  | .cross _ => Circule_Begin
  | .circule _ stage => stage.state

theorem Stage.state_ne_begin {R : Type} (stage : Stage R) : stage.state ≠ Circule_Begin := by
  cases stage <;> exact Circule.noConfusion

/-! ## Steps -/

section

variable {R : Type} [CFloat R]

/-- The watch on the opposite border: the third frame in a row without a straight one ends it. -/
def watch (straight : Bool) (out_n : Fin 3) : Option (Fin 3) :=
  if straight then some 0
  else if h : out_n.val + 1 < 3 then some ⟨out_n.val + 1, h⟩
  else none

/-- The stages that are watched, after the watch; `none` says that the circle is over. -/
def Stage.watched (straight : Bool) : Stage R → Option (Stage R)
  | .state1 tick out_n => (watch straight out_n).map (.state1 tick)
  | .state2 out_n => (watch straight out_n).map .state2
  | stage => some stage

/-- The wait for the fifth lost frame in a row. -/
def await (lost : Bool) (tick : Fin 5) (out_n : Fin 3) : Stage R :=
  if lost then
    if h : tick.val + 1 < 5 then .state1 ⟨tick.val + 1, h⟩ out_n else .state2 out_n
  else .state1 0 out_n

/-- What a stage waits for. -/
def Stage.act (side : Side) (f : Frame R) : Stage R → Option (Stage R)
  | .state1 tick out_n => some (await (f.lost side) tick out_n)
  | .state2 _ => some (.state3 f.inp.yaw_stored)
  | .state3 angle => some (if turned 65 f.inp.yaw angle then .cor f.inp.yaw_stored else .state3 angle)
  | .cor angle => some (if turned 170 f.inp.yaw angle then .out f.inp.yaw_stored else .cor angle)
  | .out angle => if turned_back 50 f.inp.yaw angle then none else some (.out angle)

/-- One frame of a circle. -/
def Stage.step (side : Side) (f : Frame R) (stage : Stage R) : Option (Stage R) :=
  (stage.watched (f.straight side.other)).bind (Stage.act side f)

/-- One frame of a crossing. -/
def Cross.step (F : Feature) : Cross → Option Cross
  | Cross_Begin =>
    if F.L.FP_n = 0 ∧ F.R.FP_n = 0 then none
    else if IsLose (F.L.my_segment 0) && IsLose (F.R.my_segment 0) then some Cross_State_1
    else some Cross_Begin
  | Cross_State_1 =>
    if !IsNull (F.L.my_segment 0) && !IsLose (F.R.my_segment 0) then none else some Cross_State_1

/-- The circle lies opposite to the straight border. -/
def entrySide (F : Feature) : Side :=
  if IsStrai (F.L.my_segment 0) && decide (F.L.segment_n = 1) then .R else .L

def Progress.onCross (F : Feature) (c : Cross) : Progress R :=
  match c.step F with
  | none => .normal
  | some c => .cross c

/-- A circle that goes on or is over. -/
def Progress.ofStage (side : Side) : Option (Stage R) → Progress R
  | none => .normal
  | some stage => .circule side stage

def Progress.onCircule (f : Frame R) (side : Side) (stage : Stage R) : Progress R :=
  .ofStage side (stage.step side f)

/-- One frame: the verdict starts a crossing or a circle on a normal road, and both are handled from
    the frame of the verdict on. -/
def Progress.step (f : Frame R) : Progress R → Progress R
  | .normal =>
    match SymbolJudge_road f.F f.inp.zebra NormalRoads with
    | CrossRoads => .onCross f.F Cross_Begin
    | CirculeRoads => .onCircule f (entrySide f.F) (.state1 0 0)
    | _ => .normal
  | .cross c => .onCross f.F c
  | .circule side stage => .onCircule f side stage

/-- The progress after the first `n` frames. -/
def Progress.after (f : ℕ → Frame R) : ℕ → Progress R
  | 0 => .normal
  | n + 1 => (Progress.after f n).step (f n)

end

/-! ## What one step can do -/

theorem SymbolJudge_road_circule {F : Feature} {zebra : Bool}
    (h : SymbolJudge_road F zebra NormalRoads = CirculeRoads) :
    zebra = false ∧ CirculeCon F = true := by
  unfold SymbolJudge_road at h
  rw [if_pos rfl] at h
  split_ifs at h with h1 h2
  exact ⟨Bool.eq_false_iff.mpr h1, h2⟩

theorem SymbolJudge_road_zebra {F : Feature} {zebra : Bool}
    (h : SymbolJudge_road F zebra NormalRoads = ZebraRoads) : zebra = true := by
  unfold SymbolJudge_road at h
  rw [if_pos rfl] at h
  split_ifs at h with h1
  exact h1

/-- The verdict of a circle sees one straight border, and which one it is decides the side. -/
theorem CirculeCon_entry {F : Feature} (h : CirculeCon F = true) :
    (IsStrai (F.L.my_segment 0) && decide (F.L.segment_n = 1)) = true ∧ entrySide F = .R ∧
        IsStrai (F.L.my_segment 0) = true ∨
      ¬ (IsStrai (F.L.my_segment 0) && decide (F.L.segment_n = 1)) = true ∧
        (IsStrai (F.R.my_segment 0) && decide (F.R.segment_n = 1)) = true ∧ entrySide F = .L ∧
        IsStrai (F.R.my_segment 0) = true := by
  unfold CirculeCon at h
  rw [Bool.or_eq_true] at h
  simp only [Bool.and_eq_true, decide_eq_true_eq] at h
  rcases h with ⟨⟨⟨hn, hstrai⟩, -⟩, -⟩ | ⟨⟨⟨hn, hstrai⟩, -⟩, hl⟩
  · have hleft : (IsStrai (F.L.my_segment 0) && decide (F.L.segment_n = 1)) = true := by
      rw [hstrai, hn]
      rfl
    exact Or.inl ⟨hleft, if_pos hleft, hstrai⟩
  · have hleft : ¬ (IsStrai (F.L.my_segment 0) && decide (F.L.segment_n = 1)) = true := by
      rw [hl, Bool.and_eq_true]
      exact fun h => absurd h.2 (by decide)
    have hright : (IsStrai (F.R.my_segment 0) && decide (F.R.segment_n = 1)) = true := by
      rw [hstrai, hn]
      rfl
    exact Or.inr ⟨hleft, hright, if_neg hleft, hstrai⟩

/-- The border opposite to the side of a new circle is straight. -/
theorem CirculeCon_straight {R : Type} {f : Frame R} (h : CirculeCon f.F = true) :
    f.straight (entrySide f.F).other = true := by
  rcases CirculeCon_entry h with ⟨-, hside, hstrai⟩ | ⟨-, -, hside, hstrai⟩
  · rw [hside]
    exact hstrai
  · rw [hside]
    exact hstrai

/-- A circle that is still watched has seen a straight border and counts from 0, or has counted one
    more. -/
theorem watch_eq_some {straight : Bool} {out_n out_n' : Fin 3}
    (h : watch straight out_n = some out_n') :
    straight = true ∧ out_n'.val = 0 ∨ straight = false ∧ out_n'.val = out_n.val + 1 := by
  unfold watch at h
  cases straight with
  | true =>
    rw [if_pos rfl] at h
    cases h
    exact Or.inl ⟨rfl, rfl⟩
  | false =>
    rw [if_neg Bool.false_ne_true] at h
    split_ifs at h
    cases h
    exact Or.inr ⟨rfl, rfl⟩

theorem watch_eq_none {straight : Bool} {out_n : Fin 3} (h : watch straight out_n = none) :
    straight = false ∧ out_n.val = 2 := by
  have h3 : out_n.val < 3 := out_n.isLt
  unfold watch at h
  cases straight with
  | true =>
    rw [if_pos rfl] at h
    cases h
  | false =>
    rw [if_neg Bool.false_ne_true] at h
    split_ifs at h with hlt
    exact ⟨rfl, by omega⟩

/-- **Waiting** for the border to be lost: one more lost frame is counted, the fifth one goes on,
    and a frame that is not lost starts again. -/
theorem await_cases {R : Type} (lost : Bool) (tick : Fin 5) (out_n : Fin 3) :
    (lost = true ∧ ∃ tick' : Fin 5, tick'.val = tick.val + 1 ∧
        (await lost tick out_n : Stage R) = .state1 tick' out_n) ∨
      (lost = true ∧ tick.val = 4 ∧ (await lost tick out_n : Stage R) = .state2 out_n) ∨
      (lost = false ∧ (await lost tick out_n : Stage R) = .state1 0 out_n) := by
  have h5 : tick.val < 5 := tick.isLt
  unfold await
  cases lost with
  | true =>
    rw [if_pos rfl]
    by_cases hlt : tick.val + 1 < 5
    · exact Or.inl ⟨rfl, _, rfl, dif_pos hlt⟩
    · exact Or.inr (Or.inl ⟨rfl, by omega, dif_neg hlt⟩)
  | false => exact Or.inr (Or.inr ⟨rfl, rfl⟩)

section

variable {R : Type} {side : Side} {stage' : Stage R}

/-- The frame on which a circle begins: it shows no zebra crossing, which the verdict looks for
    first. -/
structure Begins (f : Frame R) (side : Side) : Prop where
  zebra : f.inp.zebra = false
  verdict : CirculeCon f.F = true
  side : side = entrySide f.F

theorem Begins.straight {f : Frame R} (h : Begins f side) : f.straight side.other = true := by
  rw [h.side]
  exact CirculeCon_straight h.verdict

theorem Progress.ofStage_eq_circule {side' : Side} {next : Option (Stage R)}
    (h : Progress.ofStage side' next = .circule side stage') :
    side' = side ∧ next = some stage' := by
  cases next with
  | none => cases h
  | some stage =>
    cases h
    exact ⟨rfl, rfl⟩

theorem Progress.onCross_ne_circule {F : Feature} {c : Cross} :
    (Progress.onCross F c : Progress R) ≠ .circule side stage' := by
  intro h
  unfold Progress.onCross at h
  cases hc : c.step F with
  | none => rw [hc] at h; cases h
  | some c' => rw [hc] at h; cases h

end

section

variable {R : Type} [CFloat R] {side : Side} {stage stage' : Stage R}

/-- A circle that is over was watched out, or turned out. -/
theorem Stage.step_eq_none {f : Frame R} (h : stage.step side f = none) :
    (∃ tick out_n, stage = .state1 tick out_n ∧ watch (f.straight side.other) out_n = none) ∨
      (∃ out_n, stage = .state2 out_n ∧ watch (f.straight side.other) out_n = none) ∨
      (∃ angle, stage = .out angle ∧ turned_back 50 f.inp.yaw angle = true) := by
  unfold Stage.step at h
  cases stage with
  | state1 tick out_n =>
    rw [Stage.watched] at h
    cases hw : watch (f.straight side.other) out_n with
    | none => exact Or.inl ⟨tick, out_n, rfl, hw⟩
    | some out_n' =>
      rw [hw] at h
      cases h
  | state2 out_n =>
    rw [Stage.watched] at h
    cases hw : watch (f.straight side.other) out_n with
    | none => exact Or.inr (Or.inl ⟨out_n, rfl, hw⟩)
    | some out_n' =>
      rw [hw] at h
      cases h
  | state3 angle => cases h
  | cor angle => cases h
  | out angle =>
    have hact : Stage.act side f (.out angle) = _ := h
    rw [Stage.act] at hact
    split_ifs at hact with hturn
    exact Or.inr (Or.inr ⟨angle, rfl, hturn⟩)

/-- **One step of a circle that goes on**: the stage it was in, what the frame showed, and the stage
    it is in. -/
inductive Stage.Moves (side : Side) (f : Frame R) : Stage R → Stage R → Prop where
  | clear {tick tick' out_n out_n'} (hw : watch (f.straight side.other) out_n = some out_n')
      (hlost : f.lost side = false) (htick : tick'.val = 0) :
      Moves side f (.state1 tick out_n) (.state1 tick' out_n')
  | count {tick tick' out_n out_n'} (hw : watch (f.straight side.other) out_n = some out_n')
      (hlost : f.lost side = true) (htick : tick'.val = tick.val + 1) :
      Moves side f (.state1 tick out_n) (.state1 tick' out_n')
  | leave {tick out_n out_n'} (hw : watch (f.straight side.other) out_n = some out_n')
      (hlost : f.lost side = true) (htick : tick.val = 4) :
      Moves side f (.state1 tick out_n) (.state2 out_n')
  | start {out_n} : Moves side f (.state2 out_n) (.state3 f.inp.yaw_stored)
  | turn3 {angle} (h : turned 65 f.inp.yaw angle = true) :
      Moves side f (.state3 angle) (.cor f.inp.yaw_stored)
  | turnCor {angle} (h : turned 170 f.inp.yaw angle = true) :
      Moves side f (.cor angle) (.out f.inp.yaw_stored)
  | stay3 {angle} : Moves side f (.state3 angle) (.state3 angle)
  | stayCor {angle} : Moves side f (.cor angle) (.cor angle)
  | stayOut {angle} : Moves side f (.out angle) (.out angle)

/-- **One frame** in a circle that goes on, as one of its moves. All that follows about passes goes
    by these moves and not by the step. -/
theorem Stage.step_eq_some {f : Frame R} (h : stage.step side f = some stage') :
    Stage.Moves side f stage stage' := by
  -- Only the first two stages watch the other border, and can give the circle up.
  unfold Stage.step at h
  cases stage with
  | state1 tick out_n =>
    rw [Stage.watched] at h
    cases hw : watch (f.straight side.other) out_n with
    | none =>
      rw [hw] at h
      cases h
    | some out_n' =>
      rw [hw] at h
      have hact : await (f.lost side) tick out_n' = stage' := Option.some.inj h
      subst hact
      rcases await_cases (R := R) (f.lost side) tick out_n' with
        ⟨hlost, tick', htick, heq⟩ | ⟨hlost, htick, heq⟩ | ⟨hlost, heq⟩
      · rw [heq]
        exact .count hw hlost htick
      · rw [heq]
        exact .leave hw hlost htick
      · rw [heq]
        exact .clear hw hlost rfl
  | state2 out_n =>
    rw [Stage.watched] at h
    cases hw : watch (f.straight side.other) out_n with
    | none =>
      rw [hw] at h
      cases h
    | some out_n' =>
      rw [hw] at h
      cases h
      exact .start
  | state3 angle =>
    cases h
    split_ifs with hturn
    · exact .turn3 hturn
    · exact .stay3
  | cor angle =>
    cases h
    split_ifs with hturn
    · exact .turnCor hturn
    · exact .stayCor
  | out angle =>
    have hact : Stage.act side f (.out angle) = _ := h
    rw [Stage.act] at hact
    split_ifs at hact
    cases hact
    exact .stayOut

/-- **A circle after a frame** has moved from its stage before, or begins with the frame; then its
    first move is on the same frame. -/
theorem Progress.step_eq_circule {f : Frame R} {p : Progress R}
    (h : p.step f = .circule side stage') :
    (∃ stage, p = .circule side stage ∧ Stage.Moves side f stage stage') ∨
      (p = .normal ∧ Begins f side ∧ Stage.Moves side f (.state1 0 0) stage') := by
  cases p with
  | normal =>
    rw [Progress.step] at h
    cases hr : SymbolJudge_road f.F f.inp.zebra NormalRoads with
    | CirculeRoads =>
      rw [hr] at h
      obtain ⟨rfl, hstep⟩ := Progress.ofStage_eq_circule h
      obtain ⟨hzebra, hcon⟩ := SymbolJudge_road_circule hr
      exact Or.inr ⟨rfl, ⟨hzebra, hcon, rfl⟩, Stage.step_eq_some hstep⟩
    | CrossRoads =>
      rw [hr] at h
      exact absurd h Progress.onCross_ne_circule
    | NormalRoads => rw [hr] at h; cases h
    | LoseRoads => rw [hr] at h; cases h
    | CornerRoads => rw [hr] at h; cases h
    | ZebraRoads => rw [hr] at h; cases h
  | cross c => exact absurd h Progress.onCross_ne_circule
  | circule side' stage =>
    obtain ⟨rfl, hstep⟩ := Progress.ofStage_eq_circule h
    exact Or.inl ⟨stage, rfl, Stage.step_eq_some hstep⟩

end

end Car2025
