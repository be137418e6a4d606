/-
  Resynchronisation of the two links: what a whole frame publishes after any stream of bytes.

  Both call-backs set `rx_state` at a head and leave `count` where it was, so the new frame is
  stored behind what an unfinished one left.  `Framing.Rx.Holds.feed_frame_iff` says when that goes
  well; here it is read for a frame of five bytes in a buffer of seven, and for a frame of one byte
  in a buffer of three.
-/
import Mathlib
import Car2025.Link.Art

namespace Car2025

open Framing

/-- What `MCX_uart_handle` sees at the tail of a frame with this payload. -/
theorem MCX.Reachable.resync_iff {s : MCX} (hs : s.Reachable) {payload : List UInt8}
    (hlen : payload.length = 5) (hhead : BUFFER_HEAD ∉ payload) (htail : BUFFER_TAIL ∉ payload) :
    (∀ i (hi : i < payload.length),
      (s.feed (BUFFER_HEAD :: payload)).rx.buffer (i + 1) = payload[i]) ↔
      s.rx.count = 0 ∨ payload.length < s.rx.count ∧
        ∀ i (hi : i < payload.length), s.rx.buffer (i + 1) = payload[i] := by
  obtain ⟨p, hp⟩ := hs.holds
  have hfits : payload.length + 1 ≤ MCX_format.limit := by
    rw [hlen]
    decide
  rw [MCX.feed_rx]
  exact hp.feed_frame_iff hhead htail hfits

/-- What `Art_GetData` returns after a frame with this class. -/
theorem Art.Reachable.resync_iff {s : Art} (hs : s.Reachable) {c : UInt8}
    (hhead : c ≠ BUFFER_HEAD) (htail : c ≠ BUFFER_TAIL) :
    Art_GetData (s.feed (Art.frame c)) = c ↔
      s.rx.count = 0 ∨ 1 < s.rx.count ∧ s.rx.buffer 1 = c := by
  obtain ⟨p, hp⟩ := hs.holds
  have hnohead : BUFFER_HEAD ∉ [c] := fun h => hhead (List.mem_singleton.mp h).symm
  have hnotail : BUFFER_TAIL ∉ [c] := fun h => htail (List.mem_singleton.mp h).symm
  have hiff := hp.feed_frame_iff hnohead hnotail (show 2 ≤ 3 by decide)
  have hone : ∀ buffer : ℕ → UInt8,
      (∀ i (hi : i < [c].length), buffer (i + 1) = [c][i]) ↔ buffer 1 = c := by
    intro buffer
    constructor
    · intro h
      exact h 0 Nat.one_pos
    · intro h i hi
      obtain rfl : i = 0 := by rw [List.length_singleton] at hi; omega
      exact h
  rw [hone, hone] at hiff
  rw [Art_GetData, Art.feed_frame]
  exact hiff

/-- **Resynchronisation of both links** — a well-formed frame is read correctly exactly when no
    frame was open before it (`count = 0`), or when the open one was longer than the whole payload
    and the stale bytes under it happen to be the same. -/
theorem links_resync_iff {s : MCX} {t : Art} (hs : s.Reachable) (ht : t.Reachable)
    (payload : List UInt8) (c : UInt8) (hlen : payload.length = 5)
    (hhead : BUFFER_HEAD ∉ c :: payload) (htail : BUFFER_TAIL ∉ c :: payload) :
    ((∀ i (hi : i < payload.length),
      (s.feed (BUFFER_HEAD :: payload)).rx.buffer (i + 1) = payload[i]) ↔
      s.rx.count = 0 ∨ payload.length < s.rx.count ∧
        ∀ i (hi : i < payload.length), s.rx.buffer (i + 1) = payload[i]) ∧
    (Art_GetData (t.feed (Art.frame c)) = c ↔
      t.rx.count = 0 ∨ 1 < t.rx.count ∧ t.rx.buffer 1 = c) := by
  rw [List.mem_cons, not_or] at hhead htail
  exact ⟨hs.resync_iff hlen hhead.2 htail.2, ht.resync_iff (Ne.symm hhead.1) (Ne.symm htail.1)⟩

/-- Both links after a frame that lost its tail. -/
theorem links_resync_truncated :
    ((∀ i (hi : i < 5),
      ((MCX.start.feed [0xAA, 1]).feed (BUFFER_HEAD :: [9, 8, 7, 6, 5])).rx.buffer (i + 1) =
        [9, 8, 7, 6, 5][i]) ↔
      (MCX.start.feed [0xAA, 1]).rx.count = 0 ∨ 5 < (MCX.start.feed [0xAA, 1]).rx.count ∧
        ∀ i (hi : i < 5), (MCX.start.feed [0xAA, 1]).rx.buffer (i + 1) = [9, 8, 7, 6, 5][i]) ∧
    (Art_GetData ((Art.start.feed [0xAA]).feed (Art.frame 101)) = 101 ↔
      (Art.start.feed [0xAA]).rx.count = 0 ∨
        1 < (Art.start.feed [0xAA]).rx.count ∧ (Art.start.feed [0xAA]).rx.buffer 1 = 101) :=
  links_resync_iff (s := MCX.start.feed [0xAA, 1]) (t := Art.start.feed [0xAA])
    ⟨[.receive 0xAA, .receive 1], rfl⟩ ⟨[.receive 0xAA], rfl⟩ [9, 8, 7, 6, 5] 101 rfl (by decide)
    (by decide)

/-- **The defect**: after one lost tail the next whole frame of either link is misread, as its head
    is stored behind what is left of the frame before. -/
theorem links_resync_lost :
    ((MCX.start.feed [0xAA, 1]).feed (BUFFER_HEAD :: [9, 8, 7, 6, 5])).rx.buffer 1 ≠ 9 ∧
      Art_GetData ((Art.start.feed [0xAA]).feed (Art.frame 101)) ≠ 101 := by
  decide

end Car2025
