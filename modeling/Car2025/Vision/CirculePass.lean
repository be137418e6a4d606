/-
  A pass through a circle, frame by frame.

  1. **Statement (`PassFrame f s n`)** — what frame `n` of a run may do to a circle, in terms of the
     frames before it: the order of the states, when a pass may be broken off, how long state 1 is
     waited in, how far the car has turned, and that the side and its pointers stay.

  2. **Result (`circule_pass`)** — every frame of every run that the program completes is of this kind.
     The yaw is read as an exact rational; nothing is assumed about the rest of the arithmetic.
-/
import Mathlib
import Car2025.Vision.Simulation
import Car2025.Vision.History

namespace Car2025

open segment_type RoadSymbol_type Circule Car2025.Cross Outcome Past

/-! ## Statement -/

section

variable {R : Type}

/-- The state of the circle before frame `n` of a run. -/
def circuleAt (s : ℕ → Vision R) (n : ℕ) : Circule := (s n).Circule_Handle.state

/-- Frame `m` went from state `before` to state `now`, which has lasted until frame `n`. -/
def Lasts (s : ℕ → Vision R) (before now : Circule) (m n : ℕ) : Prop :=
  Since (fun k => circuleAt s k = now) (fun k => circuleAt s k = before) m n

end

/-- What frame `n` does to a circle. -/
structure PassFrame (f : ℕ → Frame ℚ) (s : ℕ → Vision ℚ) (n : ℕ) : Prop where
  /-- The states come in their order. -/
  order : circuleAt s (n + 1) ∈ (circuleAt s n).next
  /-- A pass begins on a normal road, with the verdict of a circle. -/
  entry : circuleAt s n = Circule_Begin → circuleAt s (n + 1) ≠ Circule_Begin →
    (s n).Current_Road = NormalRoads ∧ (f n).inp.zebra = false ∧ CirculeCon (f n).F = true
  /-- It is broken off in the states 1 and 2 only after three of its frames in a row without a
      straight opposite border. -/
  early : (circuleAt s n).Watched → circuleAt s (n + 1) = Circule_Begin →
    Streak (fun k => (circuleAt s k).Watched ∧
      (f k).straight (s n).Circule_Handle.Circule_LorR.other = false) (n + 1) 3
  /-- State 1 is left for state 2 only after five lost frames in a row, the first four of which ended
      in state 1. -/
  forward : circuleAt s n = Circule_State1 → circuleAt s (n + 1) = Circule_State2 →
    Streak (fun k => (f k).lost (s n).Circule_Handle.Circule_LorR = true ∧
      (k < n → circuleAt s (k + 1) = Circule_State1)) (n + 1) 5
  tick : (s n).Circule_Handle.tick < 5 ∧ (s (n + 1)).Circule_Handle.tick < 5
  /-- The turns are measured from the yaw recorded on entering a state. -/
  cor : circuleAt s n = Circule_State3 → circuleAt s (n + 1) = Circule_Cor →
    ∃ m, Lasts s Circule_State2 Circule_State3 m n ∧
      65 < |(f n).inp.yaw - (f m).inp.yaw_stored|
  out : circuleAt s n = Circule_Cor → circuleAt s (n + 1) = Circule_out →
    ∃ m, Lasts s Circule_State3 Circule_Cor m n ∧
      170 < |(f n).inp.yaw - (f m).inp.yaw_stored|
  exit : circuleAt s n = Circule_out → circuleAt s (n + 1) = Circule_Begin →
    ∃ m, Lasts s Circule_Cor Circule_out m n ∧
      50 < |(f n).inp.yaw - (f m).inp.yaw_stored|
  /-- The side and the pointers that follow from it stay. -/
  fixed : circuleAt s n ≠ Circule_Begin →
    (s n).Circule_Handle.aim (s n).Circule_Handle.Circule_LorR = (s n).Circule_Handle ∧
      (s (n + 1)).Circule_Handle.fixed = (s n).Circule_Handle.fixed

/-! ## Turns in exact arithmetic -/

theorem turned_rat {bound : ℤ} {yaw angle : ℚ} :
    turned bound yaw angle = true ↔ (bound : ℚ) < |yaw - angle| := by
  rw [turned, CFloat.lt_rat, CFloat.ofInt_rat, CFloat.abs_rat]

theorem turned_back_rat {bound : ℤ} {yaw angle : ℚ} :
    turned_back bound yaw angle = true ↔ (bound : ℚ) < |yaw - angle| := by
  rw [turned_back, CFloat.lt_rat, CFloat.ofInt_rat, CFloat.abs_rat, abs_sub_comm]

/-! ## Result -/

section

variable {R : Type} [CFloat R] {o : Outside} {I : Image} {f : ℕ → Frame R} {s : ℕ → Vision R}
  {N n : ℕ}

/-- **Run**: along a run the state shows the progress of the model. -/
theorem run_shows (h : Trace (Vision_frame o) (Vision.start I) f s N) :
    ∀ n, n ≤ N → Shows (Progress.after f n) (s n).control := by
  refine h.induct (fun h0 => ?_) (fun n _ hnext hn => ?_)
  · rw [h0]
    exact Vision.start_shows I
  · exact ((Vision_frame_shows (f n) hn).of_ok hnext).1

/-- The program's state is the model's. -/
theorem run_circuleAt (h : Trace (Vision_frame o) (Vision.start I) f s N) (hn : n ≤ N) :
    circuleAt s n = stateAfter f n :=
  (run_shows h n hn).state

theorem run_lasts (h : Trace (Vision_frame o) (Vision.start I) f s N) (hn : n ≤ N)
    {before now : Circule} {m : ℕ} (he : EnteredAt f before now m n) : Lasts s before now m n := by
  refine he.imp (fun k hk hp => ?_) (fun k hk hq => ?_)
  · rw [run_circuleAt h (by omega)]
    exact hp
  · rw [run_circuleAt h (by omega)]
    exact hq

/-- A circle under way has its stage, and its pointers are the ones of its side. -/
theorem run_stage (h : Trace (Vision_frame o) (Vision.start I) f s N) (hn : n ≤ N)
    (hne : circuleAt s n ≠ Circule_Begin) :
    ∃ stage, Progress.after f n = .circule (s n).Circule_Handle.Circule_LorR stage ∧
      circuleAt s n = stage.state ∧
      (s n).Circule_Handle.aim (s n).Circule_Handle.Circule_LorR = (s n).Circule_Handle := by
  have hs := run_shows h n hn
  rw [run_circuleAt h hn] at hne ⊢
  cases hp : Progress.after f n with
  | normal =>
    rw [stateAfter, hp] at hne
    exact absurd rfl hne
  | cross c =>
    rw [stateAfter, hp] at hne
    exact absurd rfl hne
  | circule side stage =>
    have haim : (s n).Circule_Handle.aim side = (s n).Circule_Handle := (hs.stage side stage hp).1
    have hside : (s n).Circule_Handle.Circule_LorR = side := by rw [← haim]; rfl
    rw [hside, stateAfter, hp]
    exact ⟨stage, rfl, rfl, haim⟩

end

section

variable {o : Outside} {I : Image} {f : ℕ → Frame ℚ} {s : ℕ → Vision ℚ} {N n : ℕ}

/-- **Result**: every frame of a run is a frame of a pass, or of no pass.  The simulation turns the
    run into one of the model, and the history of the model says what each of its frames does. -/
theorem circule_pass (h : Trace (Vision_frame o) (Vision.start I) f s N) (hn : n < N) :
    PassFrame f s n := by
  have hle : n ≤ N := by omega
  -- on this run the program's state is that of the model, frame by frame
  have hat : ∀ k, k ≤ n + 1 → circuleAt s k = stateAfter f k :=
    fun k hk => run_circuleAt h (by omega)
  have hstep := (Vision_frame_shows (f n) (run_shows h n hle)).of_ok (h.next n hn)
  refine ⟨?_, ?_, ?_, ?_, ⟨(run_shows h n hle).tick, hstep.1.tick⟩, ?_, ?_, ?_, ?_⟩
  · -- order
    rw [hat n (by omega), hat (n + 1) (by omega)]
    exact stateAfter_order n
  · -- entry
    intro h0 h1
    rw [hat n (by omega)] at h0
    rw [hat (n + 1) (by omega)] at h1
    obtain ⟨hp, side, stage, -, hb⟩ := begins_of_enter h0 h1
    have hroad := (run_shows h n hle).road
    rw [hp] at hroad
    exact ⟨hroad, hb.zebra, hb.verdict⟩
  · -- early
    intro hw hover
    obtain ⟨stage, hp, hstate, -⟩ := run_stage h hle (by
      intro h0
      rw [h0] at hw
      rcases hw with hw | hw <;> cases hw)
    rw [hstate] at hw
    rw [hat (n + 1) (by omega)] at hover
    apply (astray_of_over hp hw hover).imp
    intro k hk ha
    rw [hat k (by omega)]
    exact ha
  · -- from state 1 to state 2
    intro h1 h2
    obtain ⟨stage, hp, hstate, -⟩ := run_stage h hle (by rw [h1]; exact Circule.noConfusion)
    rw [hat (n + 1) (by omega)] at h2
    obtain ⟨hs, hlost⟩ := waited_of_forward hp (hstate.symm.trans h1) h2
    refine Streak.succ (hs.imp fun k hk hw => ?_) ⟨hlost, fun hk => absurd hk (lt_irrefl n)⟩
    refine ⟨hw.2, fun _ => ?_⟩
    rw [hat (k + 1) (by omega)]
    exact hw.1
  · -- the first turn
    intro h3 hc
    obtain ⟨stage, hp, hstate, -⟩ := run_stage h hle (by rw [h3]; exact Circule.noConfusion)
    rw [hat (n + 1) (by omega)] at hc
    obtain ⟨m, hm, hturn⟩ := turned_of_cor hp (hstate.symm.trans h3) hc
    exact ⟨m, run_lasts h hle hm, turned_rat.mp hturn⟩
  · -- the second turn
    intro hc ho
    obtain ⟨stage, hp, hstate, -⟩ := run_stage h hle (by rw [hc]; exact Circule.noConfusion)
    rw [hat (n + 1) (by omega)] at ho
    obtain ⟨m, hm, hturn⟩ := turned_of_out hp (hstate.symm.trans hc) ho
    exact ⟨m, run_lasts h hle hm, turned_rat.mp hturn⟩
  · -- the last turn
    intro ho hb
    obtain ⟨stage, hp, hstate, -⟩ := run_stage h hle (by rw [ho]; exact Circule.noConfusion)
    rw [hat (n + 1) (by omega)] at hb
    obtain ⟨m, hm, hturn⟩ := turned_of_exit hp (hstate.symm.trans ho) hb
    exact ⟨m, run_lasts h hle hm, turned_back_rat.mp hturn⟩
  · -- the side stays
    intro hne
    obtain ⟨stage, -, -, haim⟩ := run_stage h hle hne
    exact ⟨haim, hstep.2 hne⟩

/-- Frames that lead into a circle on the right: an arc that ends in nothing, then nothing. -/
def intoCircle (n : ℕ) : Frame ℚ where
  F :=
    { L := { FeatureSide.cleared with
        my_segment := Function.update FeatureSide.cleared.my_segment 0 ⟨69, 0, straight_segment, NEAR⟩
        segment_n := 1 }
      R := { FeatureSide.cleared with
        my_segment :=
          if n = 0 then Function.update (Function.update FeatureSide.cleared.my_segment 0
            ⟨69, 40, arc_segment, NEAR⟩) 1 ⟨40, 0, lose_segment, NEAR⟩
          else Function.update FeatureSide.cleared.my_segment 0 ⟨69, 0, lose_segment, NEAR⟩
        segment_n := if n = 0 then 2 else 1 } }
  Image_S := ⟨fun _ => LEFT_LOSE_VALUE, fun _ => RIGHT_LOSE_VALUE⟩
  Start_Flag := true
  car := Car.start
  inp := ⟨false, 0, 0, 0⟩

/-- They run: none of them shows a zebra crossing. -/
theorem intoCircle_runs (I : Image) (N : ℕ) :
    ∃ s, Trace (Vision_frame .reads) (Vision.start I) intoCircle s N := by
  refine Trace.exists_of_ends (I := fun s => ∃ p : Progress ℚ, Shows p s.control)
    ⟨.normal, Vision.start_shows I⟩ (fun s n hs => ?_) N
  obtain ⟨p, hp⟩ := hs
  refine (Vision_frame_shows (intoCircle n) hp).mono (fun e he => ?_) fun s' hs' => ⟨_, hs'.1⟩
  rcases he with he | ⟨-, -, hzebra⟩
  · exact Outside.not_reads_stops e he
  · cases hzebra

theorem circule_pass_intoCircle :
    ∃ s, Trace (Vision_frame .reads) (Vision.start ⟨fun _ => LEFT_LOSE_VALUE,
        fun _ => RIGHT_LOSE_VALUE⟩) intoCircle s 7 ∧
      circuleAt s 5 = Circule_State1 ∧ circuleAt s 6 = Circule_State2 ∧
      PassFrame intoCircle s 5 := by
  obtain ⟨s, hs⟩ := intoCircle_runs ⟨fun _ => LEFT_LOSE_VALUE, fun _ => RIGHT_LOSE_VALUE⟩ 7
  have h5 : circuleAt s 5 = Circule_State1 :=
    (run_circuleAt hs (by decide)).trans (show stateAfter intoCircle 5 = Circule_State1 by decide)
  have h6 : circuleAt s 6 = Circule_State2 :=
    (run_circuleAt hs (by decide)).trans (show stateAfter intoCircle 6 = Circule_State2 by decide)
  exact ⟨s, hs, h5, h6, circule_pass hs (by decide)⟩

end

end Car2025
