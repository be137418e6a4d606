/-
  Reports over the camera link: what the car decodes of what the camera encodes.

  1. **Encoding (`Report.bytes`)** — head, flag, the two coordinates high byte first, tail.  Nothing
     is escaped.

  2. **What can come out (`Sound`)** — a coordinate that the link publishes never has a byte equal
     to the tail, because the buffer never holds one.

  3. **Decoding undoes encoding** exactly for the sequences of reports without such a byte
     (`feed_reports_iff`).  A head in the payload does no harm.
-/
import Mathlib
import Car2025.Link.MCXvision

namespace Car2025

open Framing MCX_Current_Mode

/-! ## Encoding -/

def high (x : Int16) : UInt8 := (x.toUInt16 >>> 8).toUInt8
def low (x : Int16) : UInt8 := x.toUInt16.toUInt8

theorem int16_of_high_low (x : Int16) : int16_of (high x) (low x) = x := by
  apply Int16.toBitVec_inj.mp
  show ((BitVec.setWidth 16 (BitVec.setWidth 8 (x.toBitVec >>> 8))) <<< 8 |||
    BitVec.setWidth 16 (BitVec.setWidth 8 x.toBitVec)) = x.toBitVec
  ext i h
  simp only [BitVec.getElem_or, BitVec.getElem_shiftLeft, BitVec.getElem_setWidth,
    BitVec.getLsbD_setWidth, BitVec.getLsbD_ushiftRight]
  grind

theorem high_int16_of (h l : UInt8) : high (int16_of h l) = h := by
  apply UInt8.toBitVec_inj.mp
  show BitVec.setWidth 8 ((BitVec.setWidth 16 h.toBitVec <<< 8 |||
    BitVec.setWidth 16 l.toBitVec) >>> 8) = h.toBitVec
  ext i hi
  simp only [BitVec.getElem_setWidth, BitVec.getLsbD_setWidth, BitVec.getLsbD_ushiftRight,
    BitVec.getLsbD_or, BitVec.getLsbD_shiftLeft]
  grind

theorem low_int16_of (h l : UInt8) : low (int16_of h l) = l := by
  apply UInt8.toBitVec_inj.mp
  show BitVec.setWidth 8 (BitVec.setWidth 16 h.toBitVec <<< 8 |||
    BitVec.setWidth 16 l.toBitVec) = l.toBitVec
  ext i hi
  simp only [BitVec.getElem_setWidth, BitVec.getLsbD_setWidth, BitVec.getLsbD_or,
    BitVec.getLsbD_shiftLeft]
  grind

/-- What the camera reports: a flag and the centre of the picture it sees. -/
structure Report where
  flag : UInt8
  x : Int16
  y : Int16
  found : flag ≠ 0
  flag_ne_tail : flag ≠ BUFFER_TAIL

namespace Report

def payload (f : Report) : List UInt8 := [f.flag, high f.x, low f.x, high f.y, low f.y]

def bytes (f : Report) : List UInt8 := BUFFER_HEAD :: f.payload ++ [BUFFER_TAIL]

end Report

/-- A coordinate without a byte that looks like the tail. -/
def Plain (x : Int16) : Prop := high x ≠ BUFFER_TAIL ∧ low x ≠ BUFFER_TAIL

instance (x : Int16) : Decidable (Plain x) := inferInstanceAs (Decidable (_ ∧ _))

theorem Plain.int16_of {h l : UInt8} (hh : h ≠ BUFFER_TAIL) (hl : l ≠ BUFFER_TAIL) :
    Plain (int16_of h l) := by
  rw [Plain, high_int16_of, low_int16_of]
  exact ⟨hh, hl⟩

theorem Report.tail_not_mem {f : Report} (hx : Plain f.x) (hy : Plain f.y) :
    BUFFER_TAIL ∉ f.payload := by
  simp only [Report.payload, List.mem_cons, List.not_mem_nil, or_false, not_or]
  exact ⟨f.flag_ne_tail.symm, hx.1.symm, hx.2.symm, hy.1.symm, hy.2.symm⟩

namespace MCX

variable {s : MCX}

/-! ## What can come out -/

/-- Everything the link has published is free of tail bytes.  A coordinate with one cannot come
    out, so it cannot come out right; that is all the direction from the result to the coordinates
    needs. -/
structure Sound (s : MCX) : Prop where
  center_x : Plain s.center_x
  center_y : Plain s.center_y
  last_x : Plain s.last_x

/-- The handler keeps the coordinates plain: it takes them from buffer positions, and no position
    ever holds a tail. -/
theorem Sound.handle (h : s.Sound) (hclean : ∀ i, s.rx.buffer i ≠ BUFFER_TAIL) :
    (MCX_uart_handle s).Sound := by
  have hx : Plain (int16_of (s.rx.buffer 2) (s.rx.buffer 3)) := .int16_of (hclean 2) (hclean 3)
  have hy : Plain (int16_of (s.rx.buffer 4) (s.rx.buffer 5)) := .int16_of (hclean 4) (hclean 5)
  by_cases h1 : s.rx.buffer 1 ≠ 0
  · cases hm : s.mcxCurrent_Mode with
    | Reset_Mode => rw [handle_reset (Or.inl hm)]; exact ⟨h.center_x, h.center_y, h.last_x⟩
    | Put_Mode => rw [handle_reset (Or.inr hm)]; exact ⟨h.center_x, h.center_y, h.last_x⟩
    | Detection_Mode => rw [handle_detection hm h1]; exact ⟨hx, hy, h.last_x⟩
    | Location_Mode => rw [handle_location hm h1]; exact ⟨hx, hy, hx⟩
  · cases hm : s.mcxCurrent_Mode with
    | Reset_Mode => rw [handle_reset (Or.inl hm)]; exact ⟨h.center_x, h.center_y, h.last_x⟩
    | Put_Mode => rw [handle_reset (Or.inr hm)]; exact ⟨h.center_x, h.center_y, h.last_x⟩
    | Detection_Mode =>
      rw [handle_detection_none hm h1]
      exact ⟨h.center_x, h.center_y, h.last_x⟩
    | Location_Mode => rw [handle_location_none hm h1]; exact ⟨h.last_x, h.center_y, h.last_x⟩

/-- One step of a run: only a tail publishes, and what it publishes is taken from a buffer that
    holds no tail. -/
theorem Sound.act (h : s.Sound) (hs : s.Reachable) (a : Action) : (s.act a).Sound := by
  cases a with
  | receive byte =>
    show (MCX_uart_callback byte s).Sound
    by_cases hb : byte = BUFFER_TAIL
    · rw [hb, MCX_uart_callback_tail]
      obtain ⟨hx, hy, hl⟩ := h.handle hs.clean
      exact ⟨hx, hy, hl⟩
    · rw [MCX_uart_callback_of_ne hb]
      exact ⟨h.center_x, h.center_y, h.last_x⟩
  | Change_Mode mode =>
    show (MCX_Change_Mode mode s).Sound
    obtain ⟨hx, hy, hl, -⟩ := Change_Mode_published mode s
    exact ⟨by rw [hx]; exact h.center_x, by rw [hy]; exact h.center_y, by rw [hl]; exact h.last_x⟩
  | clear_Detection_Flag => exact ⟨h.center_x, h.center_y, h.last_x⟩
  | clear_rx_flag => exact ⟨h.center_x, h.center_y, h.last_x⟩

theorem Reachable.sound (hs : s.Reachable) : s.Sound :=
  hs.induct ⟨by decide, by decide, by decide⟩ fun _ a hs h => h.act hs a

/-! ## Decoding -/

/-- A state in which the next report can begin: no frame is open, and the mode is one in which
    pictures are looked at. -/
structure Ready (s : MCX) : Prop where
  reachable : s.Reachable
  idle : s.rx.rx_state = false
  looking : s.Looking

/-- **One report** without tail bytes is decoded, and the link is ready for the next one: its
    payload lands at the positions 1 to 5, and the tail behind it publishes them.  A byte that
    looks like the head does no harm inside, as the receiver is open. -/
theorem Ready.feed_report (h : s.Ready) {f : Report} (hx : Plain f.x) (hy : Plain f.y) :
    (s.feed f.bytes).Ready ∧
      (s.feed f.bytes).center_x = f.x ∧ (s.feed f.bytes).center_y = f.y := by
  obtain ⟨p, hp⟩ := h.reachable.holds
  have htail := Report.tail_not_mem hx hy
  have hbytes : BUFFER_TAIL ∉ BUFFER_HEAD :: f.payload := by
    rw [List.mem_cons, not_or]
    exact ⟨by decide, htail⟩
  -- before the tail the whole payload stands in the buffer
  have hstored : ∀ i (hi : i < f.payload.length),
      (s.rx.feed MCX_format (BUFFER_HEAD :: f.payload)).buffer (i + 1) = f.payload[i] :=
    fun i hi => hp.feed_frame (hp.closed.mp h.idle) htail (show 6 ≤ 7 by decide) hi
  have hfeed : s.feed f.bytes =
      { MCX_uart_handle { s with rx := s.rx.feed MCX_format (BUFFER_HEAD :: f.payload) } with
        rx := { s.rx.feed MCX_format (BUFFER_HEAD :: f.payload) with
          rx_state := false, count := 0 } } := by
    rw [Report.bytes, feed_append, feed_of_not_mem hbytes]
    exact MCX_uart_callback_tail _
  have h1 : (s.rx.feed MCX_format (BUFFER_HEAD :: f.payload)).buffer 1 = f.flag :=
    hstored 0 (show 0 < 5 by decide)
  have h2 : (s.rx.feed MCX_format (BUFFER_HEAD :: f.payload)).buffer 2 = high f.x :=
    hstored 1 (show 1 < 5 by decide)
  have h3 : (s.rx.feed MCX_format (BUFFER_HEAD :: f.payload)).buffer 3 = low f.x :=
    hstored 2 (show 2 < 5 by decide)
  have h4 : (s.rx.feed MCX_format (BUFFER_HEAD :: f.payload)).buffer 4 = high f.y :=
    hstored 3 (show 3 < 5 by decide)
  have h5 : (s.rx.feed MCX_format (BUFFER_HEAD :: f.payload)).buffer 5 = low f.y :=
    hstored 4 (show 4 < 5 by decide)
  obtain ⟨hcx, hcy⟩ := handle_publishes
    (s := { s with rx := s.rx.feed MCX_format (BUFFER_HEAD :: f.payload) }) h.looking
    (by rw [h1]; exact f.found)
  have hmode := handle_mode { s with rx := s.rx.feed MCX_format (BUFFER_HEAD :: f.payload) }
  refine ⟨⟨h.reachable.feed _, ?_, ?_⟩, ?_, ?_⟩
  · rw [hfeed]
  · rw [Looking, hfeed]
    dsimp only
    rw [hmode]
    exact h.looking
  · rw [hfeed]
    dsimp only
    rw [hcx, h2, h3, int16_of_high_low]
  · rw [hfeed]
    dsimp only
    rw [hcy, h4, h5, int16_of_high_low]

/-- A sequence of such reports leaves the link ready, by induction on the reports. -/
theorem Ready.feed_reports {fs : List Report} :
    ∀ {s : MCX}, s.Ready → (∀ f ∈ fs, Plain f.x ∧ Plain f.y) →
      (s.feed (fs.flatMap Report.bytes)).Ready := by
  induction fs with
  | nil =>
    intro s h _
    exact h
  | cons f fs ih =>
    intro s h hplain
    obtain ⟨hx, hy⟩ := hplain f List.mem_cons_self
    rw [List.flatMap_cons, feed_append]
    exact ih (h.feed_report hx hy).1 fun g hg => hplain g (List.mem_cons_of_mem f hg)

/-- **Decode undoes encode** — after every report of a sequence the centre is the one that was
    sent, exactly when no coordinate byte of the sequence looks like the tail. -/
theorem feed_reports_iff (hs : s.Reachable) (hidle : s.rx.rx_state = false) (hm : s.Looking)
    (fs : List Report) :
    (∀ k (hk : k < fs.length),
      (s.feed ((fs.take (k + 1)).flatMap Report.bytes)).center_x = fs[k].x ∧
        (s.feed ((fs.take (k + 1)).flatMap Report.bytes)).center_y = fs[k].y) ↔
      ∀ f ∈ fs, Plain f.x ∧ Plain f.y := by
  constructor
  · intro hall f hf
    obtain ⟨k, hk, rfl⟩ := List.getElem_of_mem hf
    have hsound := (hs.feed ((fs.take (k + 1)).flatMap Report.bytes)).sound
    obtain ⟨hx, hy⟩ := hall k hk
    exact ⟨hx ▸ hsound.center_x, hy ▸ hsound.center_y⟩
  · intro hplain k hk
    have hready : (s.feed ((fs.take k).flatMap Report.bytes)).Ready :=
      Ready.feed_reports ⟨hs, hidle, hm⟩ fun f hf => hplain f (List.mem_of_mem_take hf)
    obtain ⟨hx, hy⟩ := hplain _ (List.getElem_mem hk)
    have htake : fs.take (k + 1) = fs.take k ++ [fs[k]] := (List.take_append_getElem hk).symm
    rw [htake, List.flatMap_append, feed_append, List.flatMap_singleton]
    exact (hready.feed_report hx hy).2

/-- Two pictures; the column of the second has a byte like the head. -/
def twoReports : List Report :=
  [⟨1, 80, 120, by decide, by decide⟩, ⟨1, 170, 60, by decide, by decide⟩]

theorem feed_reports_two :
    (∀ f ∈ twoReports, Plain f.x ∧ Plain f.y) ∧
    ∀ k (hk : k < twoReports.length),
      (start.feed ((twoReports.take (k + 1)).flatMap Report.bytes)).center_x = twoReports[k].x ∧
        (start.feed ((twoReports.take (k + 1)).flatMap Report.bytes)).center_y = twoReports[k].y :=
  ⟨by decide, (feed_reports_iff ⟨[], rfl⟩ rfl (Or.inl rfl) twoReports).mpr (by decide)⟩

/-- **The defect**: a picture at column 255 is reported at column 0.  Its low byte ends the frame
    before it is stored. -/
theorem feed_report_255 :
    (start.feed (Report.bytes ⟨1, 255, 120, by decide, by decide⟩)).center_x ≠ 255 := by
  decide

end MCX

end Car2025
