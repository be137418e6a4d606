/-
  The road verdict and the two state machines behind it stay in step.

  1. **Runs (`Vision_frames`)** — frames of any features and readings, one after another, from the
     start-up state; the program's own frames (`Vision_pictures`) are among them.

  2. **Link (`Linked`)** — a circle is under way exactly while the road is `CirculeRoads`, and a
     crossing is half way only while it is `CrossRoads`.

  3. **Result (`Vision_frames_linked`)** — every run keeps the link.
-/
import Mathlib
import Car2025.Vision.Simulation

namespace Car2025

open RoadSymbol_type Circule Car2025.Cross Outcome

section

variable {R : Type} [CFloat R]

/-! ## Runs -/

/-- A run over the frames of a list. -/
def Vision_frames (o : Outside) (I : Image) (fs : List (Frame R)) : Except Stop (Vision R) :=
  fs.foldlM (Vision_frame o) (Vision.start I)

/-- The borders of an image before they are segmented, with what else the frame reads; `junk` is the
    stack in its calls. -/
structure Picture (R : Type) where
  Image_S : Image
  junk : ℕ → ℕ → Uninit
  Start_Flag : Bool
  car : Car R
  inp : Inputs R

/-- `Vision_SymbolJudge` and `Vision_RSHandle`, as `Vision_Handle` calls them. -/
def Vision_picture (o : Outside) (s : Vision R) (c : Picture R) : Except Stop (Vision R) := do
  let s ← Vision_SymbolJudge o c.junk c.inp c.Image_S
    { s with Start_Flag := c.Start_Flag, car := c.car }
  Vision_RSHandle o c.inp s

def Vision_pictures (o : Outside) (I : Image) (cs : List (Picture R)) : Except Stop (Vision R) :=
  cs.foldlM (Vision_picture o) (Vision.start I)

/-- The reasons for which a run can stop. -/
def RunStops (o : Outside) (e : Stop) : Prop := o.Stops e ∨ e = .finished

/-! ## The link -/

/-- The road and the two state machines: which of them is under way, the road says, and never both
    are. -/
structure Linked (s : Vision R) : Prop where
  circule : s.Circule_Handle.state ≠ Circule_Begin ↔ s.Current_Road = CirculeRoads
  cross : s.Cross_state = Cross_State_1 → s.Current_Road = CrossRoads
  apart : ¬ (s.Circule_Handle.state ≠ Circule_Begin ∧ s.Cross_state = Cross_State_1)
  closed : s.Current_Road = NormalRoads →
    s.Circule_Handle.state = Circule_Begin ∧ s.Cross_state = Cross_Begin

end

section

variable {R : Type}

/-- A state that shows a progress is linked: no progress is a circle and a crossing. -/
theorem Shows.linked {p : Progress R} {s : Vision R} (h : Shows p s.control) : Linked s := by
  have hroad : s.Current_Road = p.road := h.road
  have hcross : s.Cross_state = p.Cross_state := h.cross
  have hstate : s.Circule_Handle.state = p.state := h.state
  refine ⟨?_, ?_, ?_, ?_⟩
  · rw [hstate, hroad]
    cases p with
    | normal => exact ⟨fun h => absurd rfl h, fun h => RoadSymbol_type.noConfusion h⟩
    | cross c => exact ⟨fun h => absurd rfl h, fun h => RoadSymbol_type.noConfusion h⟩
    | circule side stage => exact ⟨fun _ => rfl, fun _ => stage.state_ne_begin⟩
  · rw [hcross, hroad]
    cases p with
    | normal => exact fun h => Cross.noConfusion h
    | cross c => exact fun _ => rfl
    | circule side stage => exact fun h => Cross.noConfusion h
  · rw [hstate, hcross]
    cases p with
    | normal => exact fun h => h.1 rfl
    | cross c => exact fun h => h.1 rfl
    | circule side stage => exact fun h => Cross.noConfusion h.2
  · rw [hstate, hcross, hroad]
    cases p with
    | normal => exact fun _ => ⟨rfl, rfl⟩
    | cross c => exact fun h => RoadSymbol_type.noConfusion h
    | circule side stage => exact fun h => RoadSymbol_type.noConfusion h

end

/-! ## Result -/

section

variable {R : Type} [CFloat R]

/-- **Run**: after any frames the state shows some progress, by induction on them; what holds of
    every progress then holds after every run. -/
theorem Vision_frames_shows (o : Outside) (I : Image) (fs : List (Frame R)) :
    Ends (RunStops o) (Vision_frames o I fs) fun s => ∃ p : Progress R, Shows p s.control := by
  refine Ends.foldlM (fun s f hs => ?_) fs _ ⟨.normal, Vision.start_shows I⟩
  obtain ⟨p, hp⟩ := hs
  refine (Vision_frame_shows f hp).mono (fun e he => he.imp_right And.left) fun s' hs' => ?_
  exact ⟨p.step f, hs'.1⟩

/-- **Result**: over any sequence of frames the road and the state machines stay linked.  Where the
    drawings may use any row, nothing but the end of the run stops it. -/
theorem Vision_frames_linked (I : Image) (fs : List (Frame R)) :
    (Vision_frames .reads I fs = .error .finished ∨
      ∃ s, Vision_frames .reads I fs = .ok s ∧ Linked s) ∧
    Ends (RunStops .traps) (Vision_frames .traps I fs) Linked := by
  have hrun := fun o => (Vision_frames_shows o I fs).imp fun s hs => hs.elim fun p hp => hp.linked
  refine ⟨?_, hrun .traps⟩
  cases hr : Vision_frames .reads I fs with
  | ok s => exact Or.inr ⟨s, rfl, (hrun .reads).of_ok hr⟩
  | error e =>
    rcases (hrun .reads).of_error hr with he | he
    · exact absurd he (Outside.not_reads_stops e)
    · exact Or.inl (congrArg Except.error he)

/-- A frame of the program shows the progress of the features it found. -/
theorem Vision_picture_shows {o : Outside} {p : Progress R} {s : Vision R} (c : Picture R)
    (h : Shows p s.control) :
    Ends (fun _ => True) (Vision_picture o s c) fun s' => ∃ p : Progress R, Shows p s'.control := by
  have hframe := Vision_SymbolJudge_frame (o := o) c.junk c.inp c.Image_S
    { s with Start_Flag := c.Start_Flag, car := c.car }
  rw [Vision_picture, hframe]
  refine Ends.bind (m := fun _ => True) ?_ fun found _ => ?_
  · cases SymbolJudge_features R o c.junk c.Image_S s.F <;> trivial
  · refine (Vision_frame_shows _ (show Shows p _ from h)).mono (fun _ _ => trivial) fun s' hs' => ?_
    exact ⟨_, hs'.1⟩

/-- The program's own frames, from the borders of the images on, keep the link. -/
theorem Vision_pictures_linked (o : Outside) (I : Image) (cs : List (Picture R)) :
    Ends (fun _ => True) (Vision_pictures o I cs) Linked := by
  have hrun : Ends (fun _ => True) (Vision_pictures o I cs)
      fun s => ∃ p : Progress R, Shows p s.control := by
    refine Ends.foldlM (fun s c hs => ?_) cs _ ⟨.normal, Vision.start_shows I⟩
    obtain ⟨p, hp⟩ := hs
    exact Vision_picture_shows c hp
  exact hrun.imp fun s hs => hs.elim fun p hp => hp.linked

end

end Car2025
