/-
  The program keeps to the model: a frame of the road handlers is a step of `Progress`.

  1. **A frame (`Vision_frame`)** — the verdict and the handler, on whatever features and borders the
     image gave; `Vision_SymbolJudge` followed by `Vision_RSHandle` is such a frame.

  2. **Control (`Vision.control`)** — what the handlers decide on.  Drawing into a border never changes
     it (`…_control`).

  3. **Simulation (`Vision_frame_shows`)** — where the state shows a progress, the frame returns a
     state that shows the next one, or stops: for a row or a divisor in a drawing, or because the run
     is finished.
-/
import Mathlib
import Car2025.Vision.Progress

namespace Car2025

open RoadSymbol_type Circule Car2025.Cross Outcome

section

variable {R : Type} {o : Outside}

/-! ## Control -/

/-- What the handlers decide on. -/
structure Control (R : Type) where
  Current_Road : RoadSymbol_type
  Cross_state : Cross
  Circule_Handle : Circule_Handle_t
  out_n : ℤ
  init_angle : R

def Vision.control (s : Vision R) : Control R :=
  ⟨s.Current_Road, s.Cross_state, s.Circule_Handle, s.out_n, s.init_angle⟩

/-- The side of a circle and the pointers that follow from it. -/
def Circule_Handle_t.fixed (h : Circule_Handle_t) : Circule_Handle_t :=
  { h with tick := 0, state := Circule_Begin }

/-- A new state or count leaves the pointers where they are. -/
theorem Circule_Handle_t.aim_set {h : Circule_Handle_t} {side : Side} (haim : h.aim side = h)
    (tick : ℕ) (state : Circule) :
    ({ h with tick, state }).aim side = { h with tick, state } :=
  congrArg (fun h : Circule_Handle_t => { h with tick, state }) haim

/-- A program that draws: it stops for a row or a divisor only, and changes nothing that a handler
    decides on. -/
def Drawing (o : Outside) (s : Vision R) (x : Except Stop (Vision R)) : Prop :=
  Ends o.Stops x fun s' => s'.control = s.control

theorem lose_segment_rows_control (side : Side) (s : Vision R) :
    Drawing o s (lose_segment_rows o side s) := by
  have hrows : ∀ (n : ℕ) (i : ℤ) (b : Broder), o.Draws (lose_rows o n i b) := by
    intro n
    induction n with
    | zero => intro i b; exact trivial
    | succ n ih =>
      intro i b
      exact wr_draws.bind fun b _ => ih (i - 1) b
  exact (hrows _ _ _).bind fun broder _ => Ends.of_pure rfl

/-! ## Showing a progress -/

def Progress.road : Progress R → RoadSymbol_type
  | .normal => NormalRoads
  | .cross _ => CrossRoads
  | .circule _ _ => CirculeRoads

def Progress.Cross_state : Progress R → Cross
  | .cross c => c
  | _ => Cross_Begin

/-- What a stage carries is what the program stores. -/
def Stage.Stored (c : Control R) : Stage R → Prop
  | .state1 tick out_n => c.Circule_Handle.tick = tick.val ∧ c.out_n = out_n.val
  | .state2 out_n => c.out_n = out_n.val
  | .state3 angle => c.init_angle = angle
  | .cor angle => c.init_angle = angle
  | .out angle => c.init_angle = angle

/-- The program's state shows a progress; in a circle its pointers are the ones of the side.  What
    a stage does not carry, such as the count of an earlier circle, is left open: the program sets
    it before it reads it. -/
structure Shows (p : Progress R) (c : Control R) : Prop where
  road : c.Current_Road = p.road
  cross : c.Cross_state = p.Cross_state
  state : c.Circule_Handle.state = p.state
  tick : c.Circule_Handle.tick < 5
  stage : ∀ side stage, p = .circule side stage →
    c.Circule_Handle.aim side = c.Circule_Handle ∧ stage.Stored c

/-- On a normal road there is no stage, and so nothing that has to be stored. -/
theorem Shows.normal {c : Control R} (hroad : c.Current_Road = NormalRoads)
    (hcross : c.Cross_state = Cross_Begin) (hstate : c.Circule_Handle.state = Circule_Begin)
    (htick : c.Circule_Handle.tick < 5) : Shows .normal c :=
  ⟨hroad, hcross, hstate, htick, fun _ _ h => by cases h⟩

theorem Shows.circule {c : Control R} {side : Side} {stage : Stage R}
    (hroad : c.Current_Road = CirculeRoads) (hcross : c.Cross_state = Cross_Begin)
    (hstate : c.Circule_Handle.state = stage.state) (htick : c.Circule_Handle.tick < 5)
    (haim : c.Circule_Handle.aim side = c.Circule_Handle) (hstored : stage.Stored c) :
    Shows (.circule side stage) c := by
  refine ⟨hroad, hcross, hstate, htick, fun side' stage' h => ?_⟩
  cases h
  exact ⟨haim, hstored⟩

/-! ## The watch of a circle -/

/-- **The watch**: the error detection counts the frames without a straight opposite border.  On the
    frame of the verdict that border is straight, and what the count held before does not matter. -/
theorem CirculeHandle_check_watch {side : Side} {f : Frame R} {s : Vision R} (out_n : Fin 3)
    (hF : s.F = f.F) (haim : s.Circule_Handle.aim side = s.Circule_Handle)
    (hstate : s.Circule_Handle.state = Circule_State1 ∨ s.Circule_Handle.state = Circule_State2)
    (hout : f.straight side.other = false → s.out_n = out_n.val) :
    CirculeHandle_check s = .ok (match watch (f.straight side.other) out_n with
      | none => { s with
          Current_Road := NormalRoads
          Circule_Handle := { s.Circule_Handle with state := Circule_Begin }
          out_n := 0 }
      | some out_n => { s with out_n := out_n.val }) := by
  have hanti : s.Circule_Handle.anti_cir_seg = some side.other := by rw [← haim]; rfl
  have hseg : IsStrai ((s.F.side side.other).my_segment 0) = f.straight side.other := by
    rw [hF]
    rfl
  have hcond : ∀ d : Bool, (!(f.straight side.other && d || f.straight side.other)) =
      !f.straight side.other := by
    intro d
    cases f.straight side.other <;> cases d <;> rfl
  rw [CirculeHandle_check, if_pos hstate, hanti]
  show (if _ then _ else _) = _
  rw [hseg, hcond]
  cases hs : f.straight side.other with
  | true => rfl
  | false =>
    rw [hout hs, watch, if_neg Bool.false_ne_true, Bool.not_false, if_pos rfl]
    by_cases hlt : out_n.val + 1 < 3
    · rw [dif_pos hlt, if_neg (by omega)]
      rfl
    · have h3 : out_n.val < 3 := out_n.isLt
      rw [dif_neg hlt, if_pos (by omega)]
      rfl

/-- A frame of a circle has ended, or goes on, as the model says; the pointers stay. -/
def HandledTo (p : Progress R) (s s' : Vision R) : Prop :=
  Shows p s'.control ∧ s'.Circule_Handle.fixed = s.Circule_Handle.fixed

/-- **The watch on a circle under way**: in the first two stages it counts, and gives the circle up
    at the third frame without a straight border; in the others it does nothing. -/
theorem CirculeHandle_check_shows {side : Side} {f : Frame R} {s : Vision R} {stage : Stage R}
    (hF : s.F = f.F) (h : Shows (.circule side stage) s.control) :
    ∃ s', CirculeHandle_check s = .ok s' ∧ s'.F = f.F ∧
      HandledTo (.ofStage side (stage.watched (f.straight side.other))) s s' := by
  obtain ⟨haim, hstored⟩ := h.stage side _ rfl
  have hstate : s.Circule_Handle.state = stage.state := h.state
  have hover : Shows (.normal : Progress R) { s with
      Current_Road := NormalRoads
      Circule_Handle := { s.Circule_Handle with state := Circule_Begin }
      out_n := 0 }.control := Shows.normal rfl h.cross rfl h.tick
  -- the two stages that are watched have the same three cases, the others none
  have hnot : stage.state ≠ Circule_State1 → stage.state ≠ Circule_State2 →
      CirculeHandle_check s = .ok s := by
    intro h1 h2
    rw [CirculeHandle_check, hstate, if_neg (not_or.mpr ⟨h1, h2⟩)]
    rfl
  cases stage with
  | state1 tick out_n =>
    refine ⟨_, CirculeHandle_check_watch out_n hF haim (Or.inl hstate) (fun _ => hstored.2), ?_⟩
    rw [Stage.watched]
    cases watch (f.straight side.other) out_n with
    | none => exact ⟨hF, hover, rfl⟩
    | some out_n' =>
      exact ⟨hF, Shows.circule h.road h.cross hstate h.tick haim ⟨hstored.1, rfl⟩, rfl⟩
  | state2 out_n =>
    refine ⟨_, CirculeHandle_check_watch out_n hF haim (Or.inr hstate) (fun _ => hstored), ?_⟩
    rw [Stage.watched]
    cases watch (f.straight side.other) out_n with
    | none => exact ⟨hF, hover, rfl⟩
    | some out_n' => exact ⟨hF, Shows.circule h.road h.cross hstate h.tick haim rfl, rfl⟩
  | state3 angle =>
    exact ⟨s, hnot (fun h => Circule.noConfusion h) (fun h => Circule.noConfusion h), hF, h, rfl⟩
  | cor angle =>
    exact ⟨s, hnot (fun h => Circule.noConfusion h) (fun h => Circule.noConfusion h), hF, h, rfl⟩
  | out angle =>
    exact ⟨s, hnot (fun h => Circule.noConfusion h) (fun h => Circule.noConfusion h), hF, h, rfl⟩

/-! ## The frame of the verdict -/

/-- The program finds the same side as the model, both from the features of the frame of the
    verdict. -/
theorem circule_side_eq {s : Vision R} (h : CirculeCon s.F = true) :
    circule_side s = entrySide s.F := by
  rcases CirculeCon_entry h with ⟨hleft, hside, -⟩ | ⟨hleft, hright, hside, -⟩
  · rw [circule_side, if_pos hleft, hside]
  · rw [circule_side, if_neg hleft, if_pos hright, hside]

/-! ## Corners and the zebra crossing -/

/-- The reasons for which a frame can stop: a row or a divisor in a drawing, or the end of the run at
    a zebra crossing after the start. -/
def FrameStops (o : Outside) (f : Frame R) (e : Stop) : Prop :=
  o.Stops e ∨ e = .finished ∧ f.Start_Flag = true ∧ f.inp.zebra = true

theorem Outside.Stops.frame {f : Frame R} {e : Stop} (h : o.Stops e) : FrameStops o f e := Or.inl h

/-- The state that the handler of a frame is called on. -/
theorem verdict_control (s : Vision R) (f : Frame R) :
    (SymbolJudge_verdict f.inp (s.seen f)).control =
      { s.control with Current_Road := SymbolJudge_road f.F f.inp.zebra s.Current_Road } := rfl

/-- Only a normal road is judged, so a crossing or a circle under way is not interrupted by the
    verdict. -/
theorem verdict_control_of_ne {s : Vision R} (f : Frame R) (h : s.Current_Road ≠ NormalRoads) :
    (SymbolJudge_verdict f.inp (s.seen f)).control = s.control := by
  rw [verdict_control, SymbolJudge_road, if_neg h]
  rfl

/-- A corner is handled in one frame: whatever is drawn, the road is normal again at its end. -/
theorem Vision_CornerHandle_control (s : Vision R) :
    Ends o.Stops (Vision_CornerHandle o s) fun s' =>
      s'.control = { s.control with Current_Road := NormalRoads } := by
  have hdraw := fun side => lose_segment_rows_control (o := o) side s
  have hsame : Drawing o s (pure s) := Ends.of_pure rfl
  have hfinish : ∀ x : Except Stop (Vision R), Drawing o s x →
      Ends o.Stops (x >>= fun s => pure { s with Current_Road := NormalRoads }) fun s' =>
        s'.control = { s.control with Current_Road := NormalRoads } := by
    intro x hx
    refine hx.bind fun s₁ hs₁ => Ends.of_pure ?_
    rw [← hs₁]
    rfl
  apply hfinish _
  refine Ends.ite (fun _ => hsame) (fun _ => ?_)
  refine Ends.ite (fun _ => ?_) (fun _ => ?_)
  · refine Ends.ite (fun _ => hdraw .R) (fun _ => ?_)
    exact Ends.ite (fun _ => hdraw .L) (fun _ => hsame)
  · refine Ends.ite (fun _ => ?_) (fun _ => hsame)
    refine Ends.ite (fun _ => hdraw .R) (fun _ => ?_)
    exact Ends.ite (fun _ => hdraw .L) (fun _ => hsame)

/-- So is the zebra crossing, unless it is the last one. -/
theorem Vision_ZebraHandle_control (inp : Inputs R) (s : Vision R) :
    Ends (fun e => e = .finished ∧ s.Start_Flag = true) (Vision_ZebraHandle inp s) fun s' =>
      s'.control = { s.control with Current_Road := NormalRoads } := by
  refine Ends.ite (fun h => ⟨rfl, h.1⟩) (fun _ => ?_)
  exact Ends.ite (fun _ => Ends.of_pure rfl) (fun _ => Ends.of_pure rfl)

end

section

variable {R : Type} [CFloat R] {o : Outside}

/-! ## A frame -/

/-- The verdict on the features of a frame, and the handler it calls. -/
def Vision_frame (o : Outside) (s : Vision R) (f : Frame R) : Except Stop (Vision R) :=
  Vision_RSHandle o f.inp (SymbolJudge_verdict f.inp (s.seen f))

/-- `Vision_SymbolJudge` followed by `Vision_RSHandle` is a frame on the features it finds. -/
theorem Vision_SymbolJudge_frame (junk : ℕ → ℕ → Uninit) (inp : Inputs R) (I : Image)
    (s : Vision R) :
    (Vision_SymbolJudge o junk inp I s >>= fun s => Vision_RSHandle o inp s) =
      SymbolJudge_features R o junk I s.F >>= fun found =>
        Vision_frame o s ⟨found.2, found.1, s.Start_Flag, s.car, inp⟩ := by
  unfold Vision_SymbolJudge
  rw [bind_assoc]
  rfl

/-! ## Drawing -/

theorem CrossHandle_extend_control (s : Vision R) : Drawing o s (CrossHandle_extend o s) := by
  have hdraw : ∀ (x y : ℤ) (d d' : Bool), Drawing o s (do
      let left ← Vision_ExtendLine R o s.Image_S.leftBroder x d
      let right ← Vision_ExtendLine R o s.Image_S.rightBroder y d'
      pure { s with Image_S := ⟨left, right⟩ }) := by
    intro x y d d'
    apply (Vision_ExtendLine_draws R _ x d).bind
    intro left _
    exact (Vision_ExtendLine_draws R _ y d').bind fun right _ => Ends.of_pure rfl
  refine Ends.ite (fun _ => ?_) (fun _ => Ends.of_pure rfl)
  refine Ends.ite (fun _ => hdraw _ _ _ _) (fun _ => ?_)
  exact Ends.ite (fun _ => hdraw _ _ _ _) (fun _ => Ends.of_pure rfl)

theorem CrossHandle_side_control (s : Vision R) : Drawing o s (CrossHandle_side o s) := by
  refine Ends.ite (fun _ => ?_) (fun _ => Ends.of_pure rfl)
  apply rd_draws.bind
  intro left0 _
  apply rd_draws.bind
  intro right0 _
  apply rd_draws.bind
  intro left30 _
  apply rd_draws.bind
  intro right30 _
  have hslope : ∀ p q : point_t, o.Draws (Line_CalK o p q : Except Stop R) := fun _ _ => fdiv_draws
  exact (hslope _ _).bind fun k _ => Ends.of_pure rfl

/-- The lines of a circle need the two pointers to the borders. -/
theorem circule_lines_control {side : Side} (far near : Side → ℤ) (s : Vision R)
    (h : s.Circule_Handle.aim side = s.Circule_Handle) :
    Drawing o s (circule_lines o far near s) := by
  have hanti : s.Circule_Handle.anti_cir_broder = some side.other := by rw [← h]; rfl
  have hside : s.Circule_Handle.circule_broder = some side := by rw [← h]; rfl
  unfold circule_lines
  rw [hanti, hside]
  apply wr_draws.bind
  intro b _
  apply wr_draws.bind
  intro b _
  apply (Vision_set_AdditionalLine_draws R _ _ b).bind
  intro b _
  exact (Vision_SetLose_draws _ _ _ _).bind fun b _ => Ends.of_pure rfl

/-! ## Crossings -/

/-- **The crossing handler** takes the step of a crossing.  It draws before and after it decides,
    and drawing changes nothing that it decides on. -/
theorem Vision_CrossHandle_shows {c : Cross} {s : Vision R}
    (h : Shows (.cross c : Progress R) s.control) :
    Ends o.Stops (Vision_CrossHandle o s) fun s' => Shows (.onCross s.F c : Progress R) s'.control := by
  obtain ⟨hroad, hcross, hstate, htick, -⟩ := h
  have hstay : ∀ (c' : Cross) (s₁ : Vision R), s₁.control = { s.control with Cross_state := c' } →
      Shows (.cross c' : Progress R) s₁.control := by
    intro c' s₁ hs₁
    rw [hs₁]
    exact ⟨hroad, rfl, hstate, htick, fun _ _ h => by cases h⟩
  have hleave : ∀ s₁ : Vision R,
      s₁.control = { s.control with Cross_state := Cross_Begin, Current_Road := NormalRoads } →
      Shows (.normal : Progress R) s₁.control := by
    intro s₁ hs₁
    rw [hs₁]
    exact Shows.normal rfl rfl hstate htick
  -- Each branch either stays in the crossing or leaves it, with drawings around the decision.
  have hc : s.Cross_state = c := hcross
  unfold Vision_CrossHandle Progress.onCross Cross.step
  rw [hc]
  cases c with
  | Cross_Begin =>
    dsimp only
    by_cases hfp : s.F.L.FP_n = 0 ∧ s.F.R.FP_n = 0
    · rw [if_pos hfp, if_pos hfp]
      refine Ends.of_pure (hleave _ ?_)
      rw [← hc]
      rfl
    · rw [if_neg hfp, if_neg hfp]
      by_cases hlose : (IsLose (s.F.L.my_segment 0) && IsLose (s.F.R.my_segment 0)) = true
      · rw [if_pos hlose, if_pos hlose]
        exact (CrossHandle_extend_control _).imp fun s₁ hs₁ => hstay Cross_State_1 s₁ hs₁
      · rw [if_neg hlose, if_neg hlose]
        refine (CrossHandle_extend_control _).imp fun s₁ hs₁ => hstay Cross_Begin s₁ ?_
        rw [hs₁, ← hc]
        rfl
  | Cross_State_1 =>
    dsimp only
    by_cases hseen : (!IsNull (s.F.L.my_segment 0) && !IsLose (s.F.R.my_segment 0)) = true
    · rw [if_pos hseen, if_pos hseen]
      apply (CrossHandle_side_control s).bind
      intro s₁ hs₁
      refine (CrossHandle_extend_control _).imp fun s₂ hs₂ => hleave s₂ ?_
      rw [hs₂, ← hs₁]
      rfl
    · rw [if_neg hseen, if_neg hseen]
      refine (CrossHandle_extend_control _).imp fun s₁ hs₁ => hstay Cross_State_1 s₁ ?_
      rw [hs₁, ← hc]
      rfl

/-! ## Circles -/

/-- **State 1** draws or not, and counts the lost frames.  The count is a byte in the program, and
    never comes near its end as five lost frames make it go on. -/
theorem Vision_CirculeState1_Handle_shows {side : Side} {f : Frame R} {s : Vision R} {tick : Fin 5}
    {out_n : Fin 3} (hF : s.F = f.F)
    (h : Shows (.circule side (.state1 tick out_n)) s.control) :
    Ends o.Stops (Vision_CirculeState1_Handle o s) fun s' =>
      HandledTo (.circule side (await (f.lost side) tick out_n)) s s' := by
  obtain ⟨haim, htick, hout⟩ := h.stage side _ rfl
  have haim' : s.Circule_Handle.aim side = s.Circule_Handle := haim
  have htick' : s.Circule_Handle.tick = tick.val := htick
  have hfp_n : s.Circule_Handle.circule_fp_n = some side := by rw [← haim']; rfl
  have hseg : s.Circule_Handle.circule_seg = some side := by rw [← haim']; rfl
  have hanti : s.Circule_Handle.anti_cir_broder = some side.other := by rw [← haim']; rfl
  have hbroder : s.Circule_Handle.circule_broder = some side := by rw [← haim']; rfl
  have hfp : s.Circule_Handle.circule_fp = some side := by rw [← haim']; rfl
  have hlost : IsLose ((s.F.side side).my_segment 0) = f.lost side := by rw [hF]; rfl
  unfold Vision_CirculeState1_Handle
  rw [hfp_n, hseg, hanti, hbroder, hfp]
  show Ends o.Stops ((if _ then _ else _) >>= _) _
  -- The drawing leaves the control record alone, so the counting below starts from the same state.
  refine Ends.bind (m := fun s₁ => s₁.control = s.control) ?_ fun s₁ hs₁ => ?_
  · refine Ends.ite (fun _ => ?_) (fun _ => Ends.of_pure rfl)
    apply rd_draws.bind
    intro y1 _
    apply rd_draws.bind
    intro y2 _
    have hslope : o.Draws (Point_CalSlope o ⟨0, y1⟩ ⟨imgRow - 1, y2⟩ : Except Stop R) := fdiv_draws
    apply hslope.bind
    intro slope _
    exact (Vision_SetLineWithPointK_draws _ _ _ _ _).bind fun b _ => Ends.of_pure rfl
  · have hh : s₁.Circule_Handle = s.Circule_Handle := congrArg Control.Circule_Handle hs₁
    have hfixed : s₁.Circule_Handle.fixed = s.Circule_Handle.fixed := by rw [hh]
    have haim₁ : s₁.Circule_Handle.aim side = s₁.Circule_Handle := by rw [hh, haim']
    have htick₁ : s₁.Circule_Handle.tick = tick.val := by rw [hh, htick']
    rw [← hs₁] at h hout
    have htick5 : tick.val < 5 := tick.isLt
    rw [hlost, await]
    cases f.lost side with
    | false =>
      rw [if_neg Bool.false_ne_true, if_neg Bool.false_ne_true]
      exact Ends.of_pure ⟨Shows.circule h.road h.cross h.state (Nat.zero_lt_succ 4)
        (Circule_Handle_t.aim_set haim₁ _ _) ⟨rfl, hout⟩, hfixed⟩
    | true =>
      rw [if_pos rfl, if_pos rfl, htick₁]
      dsimp only
      by_cases hlt : tick.val + 1 < 5
      · rw [if_neg (by omega), dif_pos hlt]
        -- The count is a byte; it stays below five, so it never wraps.
        have hmod : (tick.val + 1) % 256 = tick.val + 1 := by omega
        rw [hmod]
        exact Ends.of_pure ⟨Shows.circule h.road h.cross h.state hlt (Circule_Handle_t.aim_set haim₁ _ _)
          ⟨rfl, hout⟩, hfixed⟩
      · rw [if_pos (by omega), dif_neg hlt]
        exact Ends.of_pure ⟨Shows.circule h.road h.cross rfl (Nat.zero_lt_succ 4)
          (Circule_Handle_t.aim_set haim₁ _ _) hout, hfixed⟩

/-- **The lines of a circle** leave its stage as it is; all they need of it are the pointers to the
    borders, which no frame of a circle takes away. -/
theorem circule_lines_shows {side : Side} {stage : Stage R} (far near : Side → ℤ) {s : Vision R}
    (h : Shows (.circule side stage) s.control) :
    Ends o.Stops (circule_lines o far near s) fun s' => HandledTo (.circule side stage) s s' := by
  obtain ⟨haim, -⟩ := h.stage side _ rfl
  refine (circule_lines_control far near s haim).imp fun s' hs' => ⟨?_, ?_⟩
  · rw [hs']
    exact h
  · exact congrArg (fun c : Control R => c.Circule_Handle.fixed) hs'

/-- **State 3** draws, and ends with the first turn: the yaw of this frame is kept as the one to
    turn from. -/
theorem Cir_PI_State3_shows {side : Side} {angle : R} (inp : Inputs R) {s : Vision R}
    (h : Shows (.circule side (.state3 angle)) s.control) :
    Ends o.Stops (Cir_PI_State3 o inp s) fun s' =>
      HandledTo (.circule side
        (if turned 65 inp.yaw angle then .cor inp.yaw_stored else .state3 angle)) s s' := by
  apply (circule_lines_shows _ _ h).bind
  rintro s₁ ⟨h, hfixed⟩
  obtain ⟨haim₁, hangle⟩ := h.stage side _ rfl
  have hangle' : s₁.init_angle = angle := hangle
  rw [hangle']
  by_cases hturn : turned 65 inp.yaw angle = true
  · rw [if_pos hturn, if_pos hturn]
    exact Ends.of_pure ⟨Shows.circule h.road h.cross rfl h.tick
      (Circule_Handle_t.aim_set haim₁ _ _) rfl, hfixed⟩
  · rw [if_neg hturn, if_neg hturn]
    exact Ends.of_pure ⟨h, hfixed⟩

/-- **The corner inside the circle** ends with the second turn; nothing is drawn here, so no frame
    of it can stop. -/
theorem Cir_PI_Cor_shows {side : Side} {angle : R} (inp : Inputs R) {s : Vision R}
    (h : Shows (.circule side (.cor angle)) s.control) :
    HandledTo (.circule side
      (if turned 170 inp.yaw angle then .out inp.yaw_stored else .cor angle)) s
      (Cir_PI_Cor inp s) := by
  obtain ⟨haim, hangle⟩ := h.stage side _ rfl
  have hangle' : s.init_angle = angle := hangle
  rw [Cir_PI_Cor, hangle']
  by_cases hturn : turned 170 inp.yaw angle = true
  · rw [if_pos hturn, if_pos hturn]
    exact ⟨Shows.circule h.road h.cross rfl h.tick (Circule_Handle_t.aim_set haim _ _) rfl, rfl⟩
  · rw [if_neg hturn, if_neg hturn]
    exact ⟨h, rfl⟩

/-- **The way out** draws, and the last turn ends the circle: the road is normal again, and the
    next frame is judged. -/
theorem Cir_PI_out_shows {side : Side} {angle : R} (inp : Inputs R) {s : Vision R}
    (h : Shows (.circule side (.out angle)) s.control) :
    Ends o.Stops (Cir_PI_out o inp s) fun s' =>
      HandledTo (.ofStage side
        (if turned_back 50 inp.yaw angle then none else some (.out angle))) s s' := by
  apply (circule_lines_shows _ _ h).bind
  rintro s₁ ⟨h, hfixed⟩
  obtain ⟨-, hangle⟩ := h.stage side _ rfl
  have hangle' : s₁.init_angle = angle := hangle
  rw [hangle']
  by_cases hturn : turned_back 50 inp.yaw angle = true
  · rw [if_pos hturn, if_pos hturn]
    exact Ends.of_pure ⟨Shows.normal rfl h.cross rfl h.tick, hfixed⟩
  · rw [if_neg hturn, if_neg hturn]
    exact Ends.of_pure ⟨h, hfixed⟩

/-- **The five stages**: after the watch the handler does what the stage waits for.  One lemma for
    each of them; a frame goes one stage on at most, as the program looks at the state once. -/
theorem Vision_Cir_PI_Handle_shows {side : Side} {f : Frame R} {s : Vision R} {stage : Stage R}
    (hF : s.F = f.F) (h : Shows (.circule side stage) s.control) :
    Ends o.Stops (Vision_Cir_PI_Handle o f.inp s) fun s' =>
      HandledTo (.ofStage side (stage.act side f)) s s' := by
  have hstate : s.Circule_Handle.state = stage.state := h.state
  rw [Vision_Cir_PI_Handle]
  dsimp only
  rw [hstate]
  cases stage with
  | state1 tick out_n =>
    show Ends o.Stops (Vision_CirculeState1_Handle o _) _
    exact Vision_CirculeState1_Handle_shows hF h
  | state2 out_n =>
    obtain ⟨haim, -⟩ := h.stage side _ rfl
    show Ends o.Stops (pure (Cir_PI_State2 f.inp _)) _
    exact Ends.of_pure ⟨Shows.circule h.road h.cross rfl (Nat.zero_lt_succ 4)
      (Circule_Handle_t.aim_set haim _ _) rfl, rfl⟩
  | state3 angle =>
    show Ends o.Stops (Cir_PI_State3 o f.inp _) _
    exact Cir_PI_State3_shows f.inp h
  | cor angle =>
    show Ends o.Stops (pure (Cir_PI_Cor f.inp _)) _
    exact Ends.of_pure (Cir_PI_Cor_shows f.inp h)
  | out angle =>
    show Ends o.Stops (Cir_PI_out o f.inp _) _
    exact Cir_PI_out_shows f.inp h

/-- After a circle that is over the handler does nothing. -/
theorem Vision_Cir_PI_Handle_over {inp : Inputs R} {s s₁ : Vision R}
    (h : Shows (.normal : Progress R) s₁.control)
    (hfixed : s₁.Circule_Handle.fixed = s.Circule_Handle.fixed) :
    Ends o.Stops (Vision_Cir_PI_Handle o inp s₁) fun s' => HandledTo .normal s s' := by
  have hstate : s₁.Circule_Handle.state = Circule_Begin := h.state
  rw [Vision_Cir_PI_Handle]
  dsimp only
  rw [hstate]
  exact Ends.of_pure ⟨h, hfixed⟩

/-- **A circle under way** takes a step: the watch comes first, and a circle that it has given up
    is not handled any more. -/
theorem Vision_CirculeHandle_shows {side : Side} {f : Frame R} {s : Vision R} {stage : Stage R}
    (hF : s.F = f.F) (h : Shows (.circule side stage) s.control) :
    Ends o.Stops (Vision_CirculeHandle o f.inp s) fun s' =>
      HandledTo (.onCircule f side stage) s s' := by
  have hstate : s.Circule_Handle.state = stage.state := h.state
  have henter : CirculeHandle_enter s = s := by
    rw [CirculeHandle_enter, hstate, if_neg stage.state_ne_begin]
  obtain ⟨s₁, hs₁, hF₁, hshows, hfixed⟩ := CirculeHandle_check_shows hF h
  rw [Vision_CirculeHandle, henter, hs₁, ok_bind, Progress.onCircule, Stage.step]
  cases hw : stage.watched (f.straight side.other) with
  | none =>
    rw [hw] at hshows
    exact Vision_Cir_PI_Handle_over hshows hfixed
  | some stage' =>
    rw [hw] at hshows
    apply (Vision_Cir_PI_Handle_shows hF₁ hshows).imp
    intro s' hs'
    exact ⟨hs'.1, hs'.2.trans hfixed⟩

/-- **The frame of the verdict** is the first step of the circle.  The verdict asks for a straight
    border on the other side, and that clears the count before it is used. -/
theorem Vision_CirculeHandle_enters {f : Frame R} {s : Vision R} (hF : s.F = f.F)
    (hcon : CirculeCon f.F = true) (hroad : s.Current_Road = CirculeRoads)
    (hcross : s.Cross_state = Cross_Begin) (hstate : s.Circule_Handle.state = Circule_Begin) :
    Ends o.Stops (Vision_CirculeHandle o f.inp s) fun s' =>
      Shows (.onCircule f (entrySide f.F) (.state1 0 0)) s'.control := by
  have hstraight : f.straight (entrySide f.F).other = true := CirculeCon_straight hcon
  have hside : circule_side s = entrySide f.F := by
    rw [← hF] at hcon ⊢
    exact circule_side_eq hcon
  obtain ⟨e, henter, hF', haim, hstate', htick, hroad', hcross'⟩ : ∃ e, CirculeHandle_enter s = e ∧
      e.F = f.F ∧ e.Circule_Handle.aim (entrySide f.F) = e.Circule_Handle ∧
      e.Circule_Handle.state = Circule_State1 ∧ e.Circule_Handle.tick = 0 ∧
      e.Current_Road = CirculeRoads ∧ e.Cross_state = Cross_Begin := by
    rw [CirculeHandle_enter, if_pos hstate, hside]
    exact ⟨_, rfl, hF, rfl, rfl, rfl, hroad, hcross⟩
  -- the straight border clears the count that an earlier circle may have left
  have hcheck : CirculeHandle_check e = .ok { e with out_n := 0 } := by
    rw [CirculeHandle_check_watch (0 : Fin 3) hF' haim (Or.inl hstate')
      (fun h => by rw [hstraight] at h; cases h), hstraight]
    rfl
  rw [Vision_CirculeHandle, henter, hcheck, ok_bind, Progress.onCircule, Stage.step, hstraight]
  have htick5 : e.Circule_Handle.tick < 5 := by
    rw [htick]
    decide
  have hshows : Shows (.circule (entrySide f.F) (.state1 0 0) : Progress R)
      { e with out_n := 0 }.control :=
    Shows.circule hroad' hcross' hstate' htick5 haim ⟨htick, rfl⟩
  have hwatched : Stage.watched true (.state1 0 0 : Stage R) = some (.state1 0 0) := rfl
  rw [hwatched, Option.bind_some]
  exact (Vision_Cir_PI_Handle_shows (s := { e with out_n := 0 }) hF' hshows).imp fun s' hs' => hs'.1

/-! ## Frames -/

/-- **The frame on a normal road**: the verdict, and the first step of what it found.  A corner and
    a zebra crossing are over with this frame; only a crossing and a circle last. -/
theorem Vision_frame_normal {s : Vision R} {f : Frame R}
    (h : Shows (.normal : Progress R) s.control) :
    Ends (FrameStops o f) (Vision_frame o s f) fun s' =>
      Shows (Progress.step f .normal) s'.control := by
  have hroad : s.Current_Road = NormalRoads := h.road
  have hv := verdict_control s f
  unfold Vision_frame
  generalize hvs : SymbolJudge_verdict f.inp (s.seen f) = v at hv ⊢
  have hF : v.F = f.F := by rw [← hvs]; rfl
  have hcross : v.Cross_state = Cross_Begin := (congrArg Control.Cross_state hv).trans h.cross
  have hhandle : v.Circule_Handle = s.Circule_Handle := congrArg Control.Circule_Handle hv
  have hstate : v.Circule_Handle.state = Circule_Begin := by
    rw [hhandle]
    exact h.state
  have htick : v.Circule_Handle.tick < 5 := by
    rw [hhandle]
    exact h.tick
  have hv' : v.Current_Road = SymbolJudge_road f.F f.inp.zebra NormalRoads :=
    (congrArg Control.Current_Road hv).trans (by rw [hroad])
  rw [Progress.step, Vision_RSHandle, ← hv']
  -- The verdict decides which handler runs in this very frame.
  cases hr : v.Current_Road with
  | NormalRoads => exact Ends.of_pure (Shows.normal hr hcross hstate htick)
  | LoseRoads => exact Ends.of_pure (Shows.normal rfl hcross hstate htick)
  | CornerRoads =>
    refine (Vision_CornerHandle_control v).mono (fun _ => Outside.Stops.frame) fun s' hs' => ?_
    rw [hs']
    exact Shows.normal rfl hcross hstate htick
  | ZebraRoads =>
    have hflag : v.Start_Flag = f.Start_Flag := by rw [← hvs]; rfl
    have hzebra := SymbolJudge_road_zebra (hv'.symm.trans hr)
    refine (Vision_ZebraHandle_control f.inp v).mono
      (fun e he => Or.inr ⟨he.1, hflag ▸ he.2, hzebra⟩) fun s' hs' => ?_
    rw [hs']
    exact Shows.normal rfl hcross hstate htick
  | CrossRoads =>
    have hshows : Shows (.cross Cross_Begin : Progress R) v.control :=
      ⟨hr, hcross, hstate, htick, fun _ _ h => by cases h⟩
    rw [← hF]
    exact (Vision_CrossHandle_shows hshows).mono (fun _ => Outside.Stops.frame) (fun _ h => h)
  | CirculeRoads =>
    have hcon := (SymbolJudge_road_circule (hv'.symm.trans hr)).2
    exact (Vision_CirculeHandle_enters hF hcon hr hcross hstate).mono
      (fun _ => Outside.Stops.frame) (fun _ h => h)

/-- **Simulation**: a frame of the program is a step of the model.  A circle that is under way keeps
    its side and its pointers. -/
theorem Vision_frame_shows {p : Progress R} {s : Vision R} (f : Frame R) (h : Shows p s.control) :
    Ends (FrameStops o f) (Vision_frame o s f) fun s' =>
      Shows (p.step f) s'.control ∧
        (s.Circule_Handle.state ≠ Circule_Begin →
          s'.Circule_Handle.fixed = s.Circule_Handle.fixed) := by
  have hroad : s.Current_Road = p.road := h.road
  have hstate : s.Circule_Handle.state = p.state := h.state
  -- Off a normal road there is no verdict: the handler runs on the frame with the control as it
  -- was.
  cases p with
  | normal =>
    refine (Vision_frame_normal h).imp fun s' hs' => ⟨hs', fun hne => ?_⟩
    exact absurd hstate hne
  | cross c =>
    have hv := verdict_control_of_ne f (show s.Current_Road ≠ NormalRoads by
      rw [hroad]
      exact RoadSymbol_type.noConfusion)
    rw [← hv] at h
    have hvr : (SymbolJudge_verdict f.inp (s.seen f)).Current_Road = CrossRoads := h.road
    rw [Vision_frame, Vision_RSHandle, hvr]
    refine (Vision_CrossHandle_shows h).mono (fun _ => Outside.Stops.frame) fun s' hs' => ?_
    exact ⟨hs', fun hne => absurd hstate hne⟩
  | circule side stage =>
    have hv := verdict_control_of_ne f (show s.Current_Road ≠ NormalRoads by
      rw [hroad]
      exact RoadSymbol_type.noConfusion)
    rw [← hv] at h
    have hvr : (SymbolJudge_verdict f.inp (s.seen f)).Current_Road = CirculeRoads := h.road
    rw [Vision_frame, Vision_RSHandle, hvr]
    have hF : (SymbolJudge_verdict f.inp (s.seen f)).F = f.F := rfl
    refine (Vision_CirculeHandle_shows hF h).mono (fun _ => Outside.Stops.frame) fun s' hs' => ?_
    refine ⟨hs'.1, fun _ => hs'.2.trans ?_⟩
    exact congrArg (fun c : Control R => c.Circule_Handle.fixed) hv

/-- The start-up state shows a normal road. -/
theorem Vision.start_shows (I : Image) : Shows .normal (Vision.start I : Vision R).control :=
  Shows.normal rfl rfl rfl (Nat.zero_lt_succ 4)

end

end Car2025
