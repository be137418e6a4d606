/-
  Left and right: the scan of a border and of its mirror image.

  The two sides of `Vision_GetSegment` are written out by hand.  Mirrored, they run the same tests,
  with one exception: a segment opened on the left is lost when two rows are at most 3, on the right
  when two rows are at least 182, which mirrors to at most 5.  Every segment but the first is opened
  on rows the scan has just judged, so the exception can only show at row 69.

  1. **Simulation (`rows_mirror`)** — from mirrored rows and the same label the two scans stay
     mirrored, row by row.

  2. **Result (`row_scan_mirror`)** — segments and rows are mirrored unless the columns 4 and 5
     decide how row 69 starts and the image leaves the edge within the next rows.
-/
import Mathlib
import Car2025.Vision.Segment.Rows

namespace Car2025

open segment_type Hysteresis

/-! ## Mirrored tests -/

/-- `187 - b`, row by row. -/
def mirror (b : Broder) : Broder := fun r => 187 - b r

theorem near_mirror (v : ℤ) : rightBand.near (187 - v) = leftBand.near v := by
  show decide (187 - v ≥ RIGHT_LOSE_VALUE - 5) = decide (v ≤ 5)
  rw [decide_eq_decide, RIGHT_LOSE_VALUE]
  omega

theorem edge_mirror (v : ℤ) : rightBand.edge (187 - v) = leftBand.edge v := by
  rw [Bool.eq_iff_iff]
  show (decide (187 - v ≤ LEFT_LOSE_VALUE + 5) || decide (187 - v ≥ RIGHT_LOSE_VALUE - 5)) = true ↔
    (decide (v ≤ LEFT_LOSE_VALUE + 5) || decide (v ≥ RIGHT_LOSE_VALUE - 5)) = true
  rw [Bool.or_eq_true, Bool.or_eq_true, decide_eq_true_iff, decide_eq_true_iff, decide_eq_true_iff,
    decide_eq_true_iff, LEFT_LOSE_VALUE, RIGHT_LOSE_VALUE]
  omega

/-- The right side starts a lost segment on the whole band. -/
theorem start_mirror (v : ℤ) : rightBand.start (187 - v) = leftBand.near v := near_mirror v

theorem hit_mirror (b : Broder) : rightBand.hit (mirror b) = leftBand.hit b := by
  funext l j
  cases l with
  | true =>
    show (decide _ && Band.endsLose _ _ _) = (decide _ && Band.endsLose _ _ _)
    unfold Band.endsLose mirror
    simp only [near_mirror]
  | false =>
    show (decide _ && Band.endsNull _ _ _) = (decide _ && Band.endsNull _ _ _)
    unfold Band.endsNull mirror
    simp only [near_mirror]

/-- The rows of `b''` are those of `b'` mirrored, row 70 included. -/
def MirrorRows (b' b'' : Broder) : Prop := ∀ r : ℤ, 0 ≤ r → r ≤ 70 → b'' r = 187 - b' r

namespace MirrorRows

variable {b' b'' : Broder}

theorem update (h : MirrorRows b' b'') (i : ℤ) {v v' : ℤ} (hv : v' = 187 - v) :
    MirrorRows (Function.update b' i v) (Function.update b'' i v') := by
  intro r h0 h70
  rw [Function.update_apply, Function.update_apply]
  split_ifs
  · exact hv
  · exact h r h0 h70

theorem fill3 (h : MirrorRows b' b'') (i : ℤ) :
    MirrorRows (Band.fill3 b' i leftBand.lose) (Band.fill3 b'' i rightBand.lose) :=
  ((h.update i rfl).update (i - 1) rfl).update (i - 2) rfl

theorem keep (h : MirrorRows b' b'') {i : ℤ} (h0 : 0 ≤ i) (h69 : i ≤ 69) :
    rightBand.keep b'' i = 187 - leftBand.keep b' i := by
  unfold Band.keep
  rw [h i h0 (by omega), h (i + 1) (by omega) (by omega), edge_mirror]
  split_ifs <;> rfl

end MirrorRows

/-! ## Simulation -/

section

variable {b : Broder} {i : ℕ} {s s' : Scan} {cs cs' : List ℕ} {l : Bool} {w : ℕ}

/-- **One row**: under the same label both sides do the same to the rows.  The test that is not
    mirrored opens a segment, and under a label that is known no step depends on how it comes out. -/
theorem pass_mirror (h : Running leftBand b (i + 1) s cs l w)
    (h' : Running rightBand (mirror b) (i + 1) s' cs' l w) (hm : MirrorRows s.broder s'.broder)
    (hi : 1 ≤ i) (h69 : i + 1 ≤ 69) :
    MirrorRows (leftBand.pass i s).broder (rightBand.pass i s').broder := by
  have hhit := hit_mirror b
  -- The four things that a pass can do, under the label and the cut that both sides share.
  cases l with
  | false =>
    cases hcut : leftBand.hit b false (i + 1) with
    | true =>
      rw [Band.pass_enter h hi h69 hcut, Band.pass_enter h' hi h69 (by rw [hhit]; exact hcut)]
      dsimp only
      split_ifs
      · exact (hm.fill3 _).fill3 _
      · exact hm.fill3 _
    | false =>
      rw [Band.pass_keep h hi hcut, Band.pass_keep h' hi (by rw [hhit]; exact hcut)]
      exact hm.update _ (hm.keep (by omega) (by omega))
  | true =>
    by_cases hcut : w = 0 ∧ leftBand.hit b true (i + 1) = true
    · obtain ⟨rfl, hcut⟩ := hcut
      rw [Band.pass_leave h hi h69 hcut, Band.pass_leave h' hi h69 (by rw [hhit]; exact hcut)]
      exact hm
    · have hno : w = 0 → leftBand.hit b true (i + 1) = false := by
        intro hw
        exact Bool.eq_false_iff.mpr (fun hhit => hcut ⟨hw, hhit⟩)
      rw [Band.pass_lost h hi hno, Band.pass_lost h' hi (by rw [hhit]; exact hno)]
      split_ifs
      · exact hm.update _ rfl
      · exact hm

/-- **The rest of the scan**: mirrored rows stay mirrored, by induction on the rows that are left;
    the labels agree as the cuts of mirrored borders do. -/
theorem rows_mirror : ∀ {i : ℕ} {s s' : Scan} {cs cs' : List ℕ} {l : Bool} {w : ℕ},
    Running leftBand b (i + 1) s cs l w → Running rightBand (mirror b) (i + 1) s' cs' l w →
    MirrorRows s.broder s'.broder → i + 1 ≤ 69 →
    MirrorRows (leftBand.rows (i + 1) s).broder (rightBand.rows (i + 1) s').broder
  | 0, s, s', cs, cs', l, w, h, h', hm, _ => by
    rw [leftBand.rows_one h.begin_flag, rightBand.rows_one h'.begin_flag]
    exact hm
  | i + 1, s, s', cs, cs', l, w, h, h', hm, h69 => by
    have hpass := pass_mirror h h' hm (by omega) h69
    obtain ⟨ds, hs⟩ := h.step (by omega) h69
    obtain ⟨ds', hs'⟩ := h'.step (by omega) h69
    rw [hit_mirror] at hs'
    rw [leftBand.rows_pass (by omega) h.begin_flag, rightBand.rows_pass (by omega) h'.begin_flag]
    exact rows_mirror hs hs' hpass (by omega)

end

/-! ## The two starts -/

/-- Two rows in the band, not both in its inner half: lost on the right, not lost on the left. -/
def StartsApart (b : Broder) : Prop :=
  b 69 ≤ 5 ∧ b 68 ≤ 5 ∧ ¬ (b 69 ≤ 3 ∧ b 68 ≤ 3)

instance (b : Broder) : Decidable (StartsApart b) := inferInstanceAs (Decidable (_ ∧ _))

/-- Four rows away from the edge among the rows 66 to 60, the topmost at row 63 at least. -/
def LeavesEarly (b : Broder) : Prop :=
  ∃ j : ℕ, 63 ≤ j ∧ j ≤ 66 ∧ 5 < b j ∧ 5 < b (j - 1) ∧ 5 < b (j - 2) ∧ 5 < b (j - 3)

theorem startsLost_left (b : Broder) : leftBand.startsLost b = decide (b 69 ≤ 3 ∧ b 68 ≤ 3) := by
  show (decide (2 ≤ (69 : ℤ)) && decide (b 69 ≤ 3) && decide (b (69 - 1) ≤ 3)) = _
  rw [Bool.decide_and]
  rfl

theorem startsLost_right (b : Broder) :
    rightBand.startsLost (mirror b) = decide (b 69 ≤ 5 ∧ b 68 ≤ 5) := by
  show (decide (2 ≤ (69 : ℤ)) && rightBand.start (187 - b 69) &&
    rightBand.start (187 - b (69 - 1))) = _
  rw [start_mirror, start_mirror, Bool.decide_and]
  rfl

theorem hit_true_iff (b : Broder) {j : ℕ} (h3 : 3 ≤ j) : leftBand.hit b true j = true ↔
    5 < b j ∧ 5 < b (j - 1) ∧ 5 < b (j - 2) ∧ 5 < b (j - 3) := by
  have hnear : ∀ v : ℤ, (!leftBand.near v) = true ↔ 5 < v := by
    intro v
    rw [← left_far, decide_eq_true_iff]
  show (decide (3 ≤ j) && leftBand.endsLose b j) = true ↔ _
  unfold Band.endsLose
  rw [decide_eq_true h3, Bool.true_and]
  simp only [Bool.and_eq_true, hnear, and_assoc]

/-- What the merge makes of the scan is mirrored when the scan is. -/
theorem mergedBroder_mirror {cs : List ℕ} {b' b'' : Broder} (hcs : Spaced cs)
    (hm : MirrorRows b' b'') : MirrorRows (mergedBroder cs b') (mergedBroder cs b'') := by
  intro r h0 h70
  have hend : endOf cs 1 ≤ 70 := by
    rcases Nat.lt_or_ge 1 cs.length with hlt | hge
    · have := hcs.getElem_high hlt
      rw [endOf_of_lt hlt]
      omega
    · rw [endOf_of_le hge]
      omega
  have h1 := hm (endOf cs 1) (Spaced.endOf_nonneg 1) hend
  have h2 := hm r h0 h70
  unfold mergedBroder
  split_ifs
  · dsimp only
    split_ifs
    · exact h1
    · exact h2
  · exact h2

/-- **Same start, same scan**: both sides report mirrored segments.  The label at row 69 is the
    only thing in which the two can differ. -/
theorem final_mirror_of_same {b : Broder}
    (hstart : rightBand.startsLost (mirror b) = leftBand.startsLost b) :
    rightBand.finalCuts (mirror b) = leftBand.finalCuts b ∧
      rightBand.finalLabel (mirror b) = leftBand.finalLabel b ∧
      MirrorRows (leftBand.finalBroder b) (rightBand.finalBroder (mirror b)) := by
  have hstate : rightBand.startState (mirror b) = leftBand.startState b := by
    unfold Band.startState
    rw [hstart]
  have hcuts : rightBand.cuts (mirror b) = leftBand.cuts b := by
    unfold Band.cuts
    rw [hstate, hit_mirror]
  have hbegin : MirrorRows (leftBand.begin 69 (scan_start b)).broder
      (rightBand.begin 69 (scan_start (mirror b))).broder := by
    have hb : MirrorRows b (mirror b) := fun r _ _ => rfl
    show MirrorRows (if leftBand.startsLost b then _ else b)
      (if rightBand.startsLost (mirror b) then _ else mirror b)
    rw [hstart]
    split_ifs
    · exact hb.fill3 69
    · exact hb
  have hrun' := rightBand.running_start (mirror b)
  rw [hstate] at hrun'
  have hscan : MirrorRows (leftBand.scan b).broder (rightBand.scan (mirror b)).broder := by
    rw [Band.scan_eq, Band.scan_eq]
    exact rows_mirror (leftBand.running_start b) hrun' hbegin (le_refl 69)
  unfold Band.finalCuts Band.finalLabel Band.finalBroder
  rw [hcuts, hstart]
  exact ⟨rfl, rfl, mergedBroder_mirror (leftBand.cuts_spaced b) hscan⟩

section

variable {b : Broder}

/-- The left side ends its first segment at once. -/
theorem StartsApart.ends (h : StartsApart b) (hin : ¬ leftBand.ReadsOutside b) :
    leftBand.hit b false 69 = true := by
  have hnear : leftBand.near (b 69) = true := decide_eq_true h.1
  have hopens : leftBand.opensLose b 69 = false :=
    (startsLost_left b).trans (decide_eq_false h.2.2)
  cases hends : leftBand.endsNull b 69 with
  | true => exact hends
  | false => exact absurd ⟨hopens, hends, leftBand.edge_of_near _ hnear⟩ hin

theorem StartsApart.left_startsLost (h : StartsApart b) : leftBand.startsLost b = false :=
  (startsLost_left b).trans (decide_eq_false h.2.2)

theorem StartsApart.right_startsLost (h : StartsApart b) :
    rightBand.startsLost (mirror b) = true :=
  (startsLost_right b).trans (decide_eq_true ⟨h.1, h.2.1⟩)

theorem StartsApart.left_state (h : StartsApart b) : leftBand.startState b = (false, 0) := by
  unfold Band.startState
  rw [h.left_startsLost]
  rfl

theorem StartsApart.right_state (h : StartsApart b) :
    rightBand.startState (mirror b) = (true, 3) := by
  unfold Band.startState
  rw [h.right_startsLost]
  rfl

/-- On the left the cuts go on at row 65. -/
theorem StartsApart.left_cuts (h : StartsApart b) (hin : ¬ leftBand.ReadsOutside b) :
    leftBand.cuts b = 69 :: Hysteresis.cuts (leftBand.hit b) Band.hold true 0 65 := by
  unfold Band.cuts
  rw [h.left_state]
  dsimp only
  rw [cuts_of_hit (h.ends hin), cuts_eq_sub]
  rfl

/-- On the right they go on at row 66. -/
theorem StartsApart.right_cuts (h : StartsApart b) :
    rightBand.cuts (mirror b) = Hysteresis.cuts (leftBand.hit b) Band.hold true 0 66 := by
  unfold Band.cuts
  rw [h.right_state, hit_mirror]
  dsimp only
  rw [cuts_eq_sub]

theorem leavesEarly_iff :
    LeavesEarly b ↔ ∃ j : ℕ, 63 ≤ j ∧ j ≤ 66 ∧ leftBand.hit b true j = true :=
  ⟨fun ⟨j, h63, h66, hj⟩ => ⟨j, h63, h66, (hit_true_iff b (by omega)).mpr hj⟩,
    fun ⟨j, h63, h66, hj⟩ => ⟨j, h63, h66, (hit_true_iff b (by omega)).mp hj⟩⟩

/-- The right side merges its first segment exactly when the image leaves the edge early. -/
theorem StartsApart.right_short (h : StartsApart b) :
    shortFirst (rightBand.cuts (mirror b)) = true ↔ LeavesEarly b := by
  rw [Band.shortFirst_iff, leavesEarly_iff]
  unfold Band.SwitchesEarly
  rw [h.right_state, hit_mirror]
  constructor
  · rintro ⟨j, h63, h69, hj⟩
    exact ⟨j, h63, by dsimp only at h69; omega, hj⟩
  · rintro ⟨j, h63, h66, hj⟩
    exact ⟨j, h63, by dsimp only; omega, hj⟩

/-- At row 65 both sides are inside a lost segment, and the rows above it are lost. -/
theorem StartsApart.at_65 (h : StartsApart b) (hin : ¬ leftBand.ReadsOutside b)
    (hno : ¬ LeavesEarly b) :
    ∃ s s' cs cs', Running leftBand b 65 s cs true 0 ∧ leftBand.scan b = leftBand.rows 65 s ∧
      Running rightBand (mirror b) 65 s' cs' true 0 ∧
      rightBand.scan (mirror b) = rightBand.rows 65 s' ∧ MirrorRows s.broder s'.broder := by
  have h66 : leftBand.hit b true 66 = false := by
    refine Bool.eq_false_iff.mpr (fun hhit => hno ?_)
    exact leavesEarly_iff.mpr ⟨66, by omega, le_refl _, hhit⟩
  have hleft : leftBand.labelAt b 65 = (true, 0) := by
    unfold Band.labelAt
    rw [h.left_state]
    simp [track, advance, h.ends hin, Band.hold]
  have hright : rightBand.labelAt (mirror b) 65 = (true, 0) := by
    unfold Band.labelAt
    rw [h.right_state, hit_mirror]
    simp [track, advance, h66]
  obtain ⟨s, cs, l, w, hs, hscan⟩ := leftBand.running_at b 4 (by omega)
  obtain ⟨s', cs', l', w', hs', hscan'⟩ := rightBand.running_at (mirror b) 4 (by omega)
  have hlw := hs.track.trans hleft
  have hlw' := hs'.track.trans hright
  rw [Prod.mk.injEq] at hlw hlw'
  obtain ⟨rfl, rfl⟩ := hlw
  obtain ⟨rfl, rfl⟩ := hlw'
  refine ⟨s, s', cs, cs', hs, hscan, hs', hscan', fun r h0 h70 => ?_⟩
  have hcs : cs = [69] := by
    have hcuts : cs ++ Hysteresis.cuts (leftBand.hit b) Band.hold true 0 65 =
        [69] ++ Hysteresis.cuts (leftBand.hit b) Band.hold true 0 65 :=
      hs.cuts.trans (h.left_cuts hin)
    exact List.append_cancel_right hcuts
  have hcs' : cs' = [] := by
    have hcuts := hs'.cuts.trans h.right_cuts
    rw [hit_mirror, cuts_of_not_hit h66] at hcuts
    exact List.append_left_eq_self.mp hcuts
  rcases Int.lt_or_le 65 r with hlt | hle
  · rcases Int.lt_or_le r 70 with hlt' | hge
    · -- the rows 69 to 66 were rewritten on both sides
      have hl := h.left_startsLost
      have hr := h.right_startsLost
      have hclean : ¬ rightBand.CopiesLost (mirror b) :=
        fun hc => Bool.false_ne_true (hc.1.1.symm.trans hr)
      subst hcs hcs'
      have hrow := hs.rows.agrees 1 (le_refl _) (Or.inl one_ne_zero) r hlt (by omega)
        h0 (by show r ≤ 69; omega)
      have hrow' := hs'.rows.agrees 0 (le_refl _) (Or.inr hclean) r hlt (by omega)
        h0 (by show r ≤ 69; omega)
      rw [labelOf, labelOf, hl] at hrow
      rw [labelOf, hr] at hrow'
      exact hrow'.trans (by rw [show s.broder r = leftBand.lose from hrow]; rfl)
    · have hr : r = 70 := by omega
      rw [hr, hs.rows.outside, hs'.rows.outside]
      rfl
  · rw [hs.fresh h0 hle, hs'.fresh h0 hle]
    rfl

/-- **Different starts, same segments**, as long as the image stays at the edge.  The left side
    starts unlost and is cut at row 69 at once; the merge takes that first segment away, and the
    next one is lost as the first one on the right is. -/
theorem StartsApart.final_mirror (h : StartsApart b) (hin : ¬ leftBand.ReadsOutside b)
    (hno : ¬ LeavesEarly b) :
    rightBand.finalCuts (mirror b) = leftBand.finalCuts b ∧
      rightBand.finalLabel (mirror b) = leftBand.finalLabel b ∧
      MirrorRows (leftBand.finalBroder b) (rightBand.finalBroder (mirror b)) := by
  obtain ⟨s, s', cs, cs', hs, hscan, hs', hscan', hm⟩ := h.at_65 hin hno
  have hrows : MirrorRows (leftBand.scan b).broder (rightBand.scan (mirror b)).broder := by
    rw [hscan, hscan']
    exact rows_mirror (i := 64) hs hs' hm (by omega)
  have h66 : leftBand.hit b true 66 = false := by
    refine Bool.eq_false_iff.mpr (fun hhit => hno ?_)
    exact leavesEarly_iff.mpr ⟨66, by omega, le_refl _, hhit⟩
  have hshort' : shortFirst (rightBand.cuts (mirror b)) = false :=
    Bool.eq_false_iff.mpr (fun hs => hno (h.right_short.mp hs))
  have hl := h.left_startsLost
  have hr := h.right_startsLost
  unfold Band.finalCuts Band.finalLabel Band.finalBroder mergedCuts mergedLabel mergedBroder
  rw [hshort', h.left_cuts hin, hl, hr, h.right_cuts, cuts_of_not_hit h66]
  refine ⟨rfl, rfl, fun r h0 h70 => ?_⟩
  -- the left side fills the rows from 70 to 69: none
  rw [if_neg Bool.false_ne_true, shortFirst_cons, if_pos (by decide),
    show endOf (69 :: Hysteresis.cuts (leftBand.hit b) Band.hold true 0 65) 0 = 70 from
      endOf_of_lt (Nat.succ_pos _), if_neg (by omega)]
  exact hrows r h0 h70

/-- **Different starts, different labels**, when it leaves the edge early: then the first segment
    on the right is short, and the merge gives it the label of the next one, while on the left it
    stays lost. -/
theorem StartsApart.finalLabel_ne (h : StartsApart b) (hin : ¬ leftBand.ReadsOutside b)
    (hearly : LeavesEarly b) :
    leftBand.finalLabel b = true ∧ rightBand.finalLabel (mirror b) = false := by
  unfold Band.finalLabel mergedLabel
  rw [h.right_short.mpr hearly, h.left_cuts hin, h.left_startsLost, h.right_startsLost]
  exact ⟨rfl, rfl⟩

end

/-! ## Result -/

/-- The same begin, end and lose label in every entry, as many segments, and mirrored rows.  The
    types that the classification gives are not compared, as it comes later. -/
structure Mirrored (m m' : Merged) : Prop where
  segment_n : m'.segment_n = m.segment_n
  begin : ∀ k, (m'.target_segment k).begin = (m.target_segment k).begin
  «end» : ∀ k, (m'.target_segment k).end = (m.target_segment k).end
  isLose : ∀ k, IsLose (m'.target_segment k) = IsLose (m.target_segment k)
  rows : ∀ r : ℤ, 0 ≤ r → r ≤ 69 → m'.broder r = 187 - m.broder r

/-- **Different labels** of the first segment are visible in the table, as it begins at row 69 and
    not at row 2. -/
theorem isLose_tableOf_zero (l : Bool) (cs : List ℕ) : IsLose (tableOf l cs 0) = l := by
  rw [tableOf_of_le (Nat.zero_le _), typeOf, labelOf, beginOf_zero]
  cases l <;> rfl

/-- Equal cuts and labels are equal tables. -/
theorem mirrored_of_final {b : Broder}
    (h : rightBand.finalCuts (mirror b) = leftBand.finalCuts b ∧
      rightBand.finalLabel (mirror b) = leftBand.finalLabel b ∧
      MirrorRows (leftBand.finalBroder b) (rightBand.finalBroder (mirror b))) :
    Mirrored
      ⟨leftBand.finalBroder b, tableOf (leftBand.finalLabel b) (leftBand.finalCuts b),
        ((leftBand.finalCuts b).length : ℤ)⟩
      ⟨rightBand.finalBroder (mirror b),
        tableOf (rightBand.finalLabel (mirror b)) (rightBand.finalCuts (mirror b)),
        ((rightBand.finalCuts (mirror b)).length : ℤ)⟩ := by
  obtain ⟨hcuts, hlabel, hrows⟩ := h
  rw [hcuts, hlabel]
  exact ⟨rfl, fun _ => rfl, fun _ => rfl, fun _ => rfl,
    fun r h0 h69 => hrows r h0 (by omega)⟩

/-- A different start is a start the right side does not read row 70 for. -/
theorem StartsApart.right_in {b : Broder} (h : StartsApart b) :
    ¬ rightBand.ReadsOutside (mirror b) :=
  fun hout => Bool.false_ne_true (hout.1.symm.trans h.right_startsLost)

/-- Nor does it want more entries than the left side. -/
theorem StartsApart.right_fits {b : Broder} (h : StartsApart b) (hin : ¬ leftBand.ReadsOutside b)
    (h8 : (leftBand.cuts b).length ≤ 8) (hno : ¬ LeavesEarly b) :
    ¬ rightBand.Overflows (mirror b) := by
  have h66 : leftBand.hit b true 66 = false := by
    refine Bool.eq_false_iff.mpr (fun hhit => hno ?_)
    exact leavesEarly_iff.mpr ⟨66, by omega, le_refl _, hhit⟩
  rw [h.left_cuts hin, List.length_cons] at h8
  unfold Band.Overflows
  rw [h.right_cuts, cuts_of_not_hit h66]
  omega

theorem startsLost_eq_of_not_apart {b : Broder} (h : ¬ StartsApart b) :
    rightBand.startsLost (mirror b) = leftBand.startsLost b := by
  rw [startsLost_left, startsLost_right, decide_eq_decide]
  unfold StartsApart at h
  omega

/-- With the same start both sides want the same rows and entries. -/
theorem bounds_mirror_of_same {b : Broder}
    (hstart : rightBand.startsLost (mirror b) = leftBand.startsLost b) :
    (rightBand.ReadsOutside (mirror b) ↔ leftBand.ReadsOutside b) ∧
      (rightBand.Overflows (mirror b) ↔ leftBand.Overflows b) := by
  have hcuts : rightBand.cuts (mirror b) = leftBand.cuts b := by
    unfold Band.cuts Band.startState
    rw [hstart, hit_mirror]
  have hnull : rightBand.endsNull (mirror b) 69 = leftBand.endsNull b 69 := by
    unfold Band.endsNull mirror
    rw [near_mirror, near_mirror, near_mirror]
  constructor
  · unfold Band.ReadsOutside
    rw [hnull, show mirror b 69 = 187 - b 69 from rfl, edge_mirror]
    refine and_congr_left (fun _ => ?_)
    unfold Band.startsLost at hstart
    rw [hstart]
  · unfold Band.Overflows
    rw [hcuts]

/-- **Mirror**: the mirror image of a border is segmented into the mirrored segments, unless its
    first two rows are lost on one side only and the image leaves the edge at once. -/
theorem row_scan_mirror {b : Broder} (h : InBounds true b) :
    (∃ m m', scan_merge .traps true b = .ok m ∧ scan_merge .traps false (mirror b) = .ok m' ∧
      Mirrored m m') ↔ ¬ (StartsApart b ∧ LeavesEarly b) := by
  obtain ⟨hin, h8⟩ : ¬ leftBand.ReadsOutside b ∧ (leftBand.cuts b).length ≤ 8 := inBounds_iff.mp h
  have hfits : ¬ leftBand.Overflows b := by
    unfold Band.Overflows
    omega
  have hleft : scan_merge .traps true b = .ok ⟨leftBand.finalBroder b,
      tableOf (leftBand.finalLabel b) (leftBand.finalCuts b),
      ((leftBand.finalCuts b).length : ℤ)⟩ := scan_merge_ok (Or.inr hin) hfits
  constructor
  · rintro ⟨m, m', hm, hm', hmir⟩ ⟨hapart, hearly⟩
    obtain ⟨hl, hl'⟩ := hapart.finalLabel_ne hin hearly
    by_cases hover : rightBand.Overflows (mirror b)
    · have hright : scan_merge .traps false (mirror b) = .error (.entry 10) :=
        scan_merge_overflow (Or.inr hapart.right_in) hover
      rw [hright] at hm'
      cases hm'
    · have hright : scan_merge .traps false (mirror b) = .ok ⟨_,
          tableOf (rightBand.finalLabel (mirror b)) (rightBand.finalCuts (mirror b)), _⟩ :=
        scan_merge_ok (Or.inr hapart.right_in) hover
      rw [hleft, Except.ok.injEq] at hm
      rw [hright, Except.ok.injEq] at hm'
      -- the first segment is lost on the left only
      have hlose := hmir.isLose 0
      rw [← hm, ← hm', isLose_tableOf_zero, isLose_tableOf_zero, hl, hl'] at hlose
      exact Bool.false_ne_true hlose
  · intro hno
    obtain ⟨hin', hfits', hfinal⟩ : ¬ rightBand.ReadsOutside (mirror b) ∧
        ¬ rightBand.Overflows (mirror b) ∧
        rightBand.finalCuts (mirror b) = leftBand.finalCuts b ∧
          rightBand.finalLabel (mirror b) = leftBand.finalLabel b ∧
          MirrorRows (leftBand.finalBroder b) (rightBand.finalBroder (mirror b)) := by
      by_cases hapart : StartsApart b
      · have hlate : ¬ LeavesEarly b := fun h => hno ⟨hapart, h⟩
        exact ⟨hapart.right_in, hapart.right_fits hin h8 hlate, hapart.final_mirror hin hlate⟩
      · have hstart := startsLost_eq_of_not_apart hapart
        have hbounds := bounds_mirror_of_same hstart
        exact ⟨fun h => hin (hbounds.1.mp h), fun h => hfits (hbounds.2.mp h),
          final_mirror_of_same hstart⟩
    have hright : scan_merge .traps false (mirror b) = .ok ⟨rightBand.finalBroder (mirror b),
        tableOf (rightBand.finalLabel (mirror b)) (rightBand.finalCuts (mirror b)),
        ((rightBand.finalCuts (mirror b)).length : ℤ)⟩ := scan_merge_ok (Or.inr hin') hfits'
    exact ⟨_, _, hleft, hright, mirrored_of_final hfinal⟩

theorem row_scan_mirror_cutOff : InBounds true cutOffBroder ∧
    ((∃ m m', scan_merge .traps true cutOffBroder = .ok m ∧
      scan_merge .traps false (mirror cutOffBroder) = .ok m' ∧ Mirrored m m') ↔
        ¬ (StartsApart cutOffBroder ∧ LeavesEarly cutOffBroder)) :=
  have h : InBounds true cutOffBroder := by decide +kernel
  ⟨h, row_scan_mirror h⟩

/-- Column 4 in the first three rows, then away from the edge. -/
def fourBroder : Broder := fun i => if 67 ≤ i then 4 else 100

/-- On the left the first segment is lost, on the right nothing is. -/
theorem row_scan_mirror_four : (∀ i, 0 ≤ fourBroder i ∧ fourBroder i ≤ 187) ∧
    InBounds true fourBroder ∧
    ∃ m m', scan_merge .traps true fourBroder = .ok m ∧
      scan_merge .traps false (mirror fourBroder) = .ok m' ∧
      IsLose (m.target_segment 0) = true ∧ IsLose (m'.target_segment 0) = false := by
  have hvalues : ∀ i, 0 ≤ fourBroder i ∧ fourBroder i ≤ 187 := by
    intro i
    unfold fourBroder
    split <;> omega
  have hin : ¬ leftBand.ReadsOutside fourBroder := by decide +kernel
  have hfits : ¬ leftBand.Overflows fourBroder := by decide +kernel
  have hin' : ¬ rightBand.ReadsOutside (mirror fourBroder) := by decide +kernel
  have hfits' : ¬ rightBand.Overflows (mirror fourBroder) := by decide +kernel
  have hleft : scan_merge .traps true fourBroder = .ok ⟨_,
    tableOf (leftBand.finalLabel fourBroder) _, _⟩ := scan_merge_ok (Or.inr hin) hfits
  have hright : scan_merge .traps false (mirror fourBroder) = .ok ⟨_,
    tableOf (rightBand.finalLabel (mirror fourBroder)) _, _⟩ := scan_merge_ok (Or.inr hin') hfits'
  refine ⟨hvalues, by decide +kernel, _, _, hleft, hright, ?_, ?_⟩
  · rw [isLose_tableOf_zero]
    decide +kernel
  · rw [isLose_tableOf_zero]
    decide +kernel

end Car2025
