/-
  Frames in a byte stream, between a head and a tail byte.

  1. **Receiver (`Rx`)** — a counter, a flag and a buffer.  The head byte opens the receiver, the
     tail byte closes it, and while it is open every byte is stored behind the ones before.  The
     head does NOT move the counter back, so a head inside an open frame is stored like any byte.

  2. **Purpose (`Partial`)** — the bytes that an unfinished frame has collected since the last tail
     or overload.  A value of this type starts with the head, holds no tail and fits the buffer.

  3. **Refinement (`Rx.Holds`)** — the receiver's three variables always hold the partial frame of
     the bytes received so far, whatever the stream.

  4. **Resynchronisation (`Holds.feed_frame_iff`)** — the crux: which partial frames a whole new
     frame can follow and still be read correctly.
-/
import Mathlib

namespace Framing

variable {B : Type}

/-- The two markers, and how many bytes the receiver takes before it reports an overload. -/
structure Format (B : Type) where
  head : B
  tail : B
  limit : ℕ
  ne : head ≠ tail

variable {F : Format B}

/-! ## The receiver -/

structure Rx (B : Type) where
  count : ℕ
  rx_state : Bool
  buffer : ℕ → B

namespace Rx

/-- Store a byte; one byte too many closes the receiver. -/
def store (F : Format B) (b : B) (r : Rx B) : Rx B :=
  if r.count + 1 > F.limit then
    { count := 0, rx_state := false, buffer := Function.update r.buffer r.count b }
  else
    { r with count := r.count + 1, buffer := Function.update r.buffer r.count b }

/-- Storing writes at the counter only. -/
theorem store_buffer_of_lt {r : Rx B} {b : B} {i : ℕ} (hi : i < r.count) :
    (r.store F b).buffer i = r.buffer i := by
  have hne : i ≠ r.count := Nat.ne_of_lt hi
  rw [store]
  split
  · exact Function.update_of_ne hne ..
  · exact Function.update_of_ne hne ..

theorem store_buffer_count (r : Rx B) (b : B) : (r.store F b).buffer r.count = b := by
  rw [store]
  split
  · exact Function.update_self ..
  · exact Function.update_self ..

/-- After storing, the receiver is closed or stands one byte further. -/
theorem store_count (r : Rx B) (b : B) (hr : r.rx_state = true) :
    (r.store F b).rx_state = false ∨
      (r.store F b).rx_state = true ∧ (r.store F b).count = r.count + 1 := by
  rw [store]
  split
  · exact Or.inl rfl
  · exact Or.inr ⟨hr, rfl⟩

section

variable [DecidableEq B]

/-- One byte. -/
def receive (F : Format B) (b : B) (r : Rx B) : Rx B :=
  let r :=
    if b = F.head then { r with rx_state := true }
    else if b = F.tail then { r with rx_state := false, count := 0 }
    else r
  if r.rx_state then r.store F b else r

/-- The bytes of a stream, one after the other. -/
def feed (F : Format B) (bs : List B) (r : Rx B) : Rx B := bs.foldl (fun r b => r.receive F b) r

@[simp] theorem feed_nil (r : Rx B) : r.feed F [] = r := rfl

@[simp] theorem feed_cons (b : B) (bs : List B) (r : Rx B) :
    r.feed F (b :: bs) = (r.receive F b).feed F bs := rfl

theorem feed_append (as bs : List B) (r : Rx B) :
    r.feed F (as ++ bs) = (r.feed F as).feed F bs := List.foldl_append

theorem receive_tail (r : Rx B) :
    r.receive F F.tail = { r with rx_state := false, count := 0 } := by
  rw [receive, if_neg F.ne.symm, if_pos rfl]
  rfl

theorem receive_head (r : Rx B) :
    r.receive F F.head = { r with rx_state := true }.store F F.head := by
  rw [receive, if_pos rfl]
  rfl

/-- An open receiver stores every byte but the tail, the head included. -/
theorem receive_open {r : Rx B} {b : B} (hr : r.rx_state = true) (hb : b ≠ F.tail) :
    r.receive F b = r.store F b := by
  obtain ⟨count, rx_state, buffer⟩ := r
  obtain rfl : rx_state = true := hr
  by_cases hh : b = F.head
  · rw [hh, receive_head]
  · rw [receive, if_neg hh, if_neg hb]
    rfl

/-- A closed receiver waits for a head. -/
theorem receive_closed {r : Rx B} {b : B} (hr : r.rx_state = false) (hh : b ≠ F.head)
    (hb : b ≠ F.tail) : r.receive F b = r := by
  rw [receive, if_neg hh, if_neg hb, hr]
  rfl

/-- A payload without markers leaves everything below the counter as it was. -/
theorem feed_buffer_of_lt {bs : List B} (hhead : F.head ∉ bs) (htail : F.tail ∉ bs) {i : ℕ} :
    ∀ {r : Rx B}, (r.rx_state = true → i < r.count) → (r.feed F bs).buffer i = r.buffer i := by
  induction bs with
  | nil =>
    intro r _
    rfl
  | cons b bs ih =>
    intro r hi
    rw [List.mem_cons, not_or] at hhead htail
    rw [feed_cons]
    cases hr : r.rx_state with
    | false =>
      rw [receive_closed hr (Ne.symm hhead.1) (Ne.symm htail.1)]
      exact ih hhead.2 htail.2 hi
    | true =>
      rw [receive_open hr (Ne.symm htail.1)]
      have hlt : i < r.count := hi hr
      rw [ih hhead.2 htail.2 ?_, store_buffer_of_lt hlt]
      intro hopen
      rcases store_count (F := F) r b hr with h | ⟨_, h⟩
      · exact absurd (hopen.symm.trans h) (by decide)
      · omega

end

end Rx

/-! ## Partial frames -/

/-- What an unfinished frame has collected. -/
structure Partial (F : Format B) where
  bytes : List B
  head : ∀ b ∈ bytes.head?, b = F.head
  clean : F.tail ∉ bytes
  fits : bytes.length ≤ F.limit

namespace Partial

/-- No frame has begun. -/
def none : Partial F where
  bytes := []
  head := fun _ h => (Option.not_mem_none _ h).elim
  clean := List.not_mem_nil
  fits := Nat.zero_le _

section

variable [DecidableEq B]

/-- One byte: the tail ends the frame, bytes before a head are dropped, and so is a frame that
    grows too long. -/
def next (p : Partial F) (b : B) : Partial F :=
  if htail : b = F.tail then none
  else if hopen : b = F.head ∨ p.bytes ≠ [] then
    if hfits : p.bytes.length + 1 ≤ F.limit then
      { bytes := p.bytes ++ [b]
        head := by
          intro c hc
          rw [List.head?_append] at hc
          cases hp : p.bytes.head? with
          | some d =>
            rw [hp] at hc
            exact p.head c (by rw [hp]; exact hc)
          | none =>
            rw [hp] at hc
            obtain rfl : b = c := Option.some.inj hc
            exact hopen.resolve_right fun h => h (List.head?_eq_none_iff.mp hp)
        clean := by
          rw [List.mem_append, List.mem_singleton, not_or]
          exact ⟨p.clean, fun h => htail h.symm⟩
        fits := by
          rw [List.length_append]
          exact hfits }
    else none
  else p

/-- The partial frame of a stream, from a given one on. -/
def feed (p : Partial F) (bs : List B) : Partial F := bs.foldl next p

@[simp] theorem next_tail (p : Partial F) : p.next F.tail = none := by
  rw [next, dif_pos rfl]

/-- The byte is stored. -/
theorem next_bytes {p : Partial F} {b : B} (htail : b ≠ F.tail)
    (hopen : b = F.head ∨ p.bytes ≠ []) (hfits : p.bytes.length + 1 ≤ F.limit) :
    (p.next b).bytes = p.bytes ++ [b] := by
  rw [next, dif_neg htail, dif_pos hopen, dif_pos hfits]

/-- The byte is one too many. -/
theorem next_overload {p : Partial F} {b : B} (htail : b ≠ F.tail)
    (hopen : b = F.head ∨ p.bytes ≠ []) (hfits : ¬ p.bytes.length + 1 ≤ F.limit) :
    p.next b = none := by
  rw [next, dif_neg htail, dif_pos hopen, dif_neg hfits]

/-- The byte is noise before a head. -/
theorem next_noise {p : Partial F} {b : B} (htail : b ≠ F.tail)
    (hopen : ¬ (b = F.head ∨ p.bytes ≠ [])) : p.next b = p := by
  rw [next, dif_neg htail, dif_neg hopen]

/-- **One byte** empties the partial frame or is added at its end; so what has been collected is
    always the newest part of the stream. -/
theorem next_bytes_cases (p : Partial F) (b : B) :
    (p.next b).bytes = [] ∨ (p.next b).bytes = p.bytes ++ [b] := by
  by_cases htail : b = F.tail
  · rw [htail, next_tail]
    exact Or.inl rfl
  by_cases hopen : b = F.head ∨ p.bytes ≠ []
  · by_cases hfits : p.bytes.length + 1 ≤ F.limit
    · exact Or.inr (next_bytes htail hopen hfits)
    · rw [next_overload htail hopen hfits]
      exact Or.inl rfl
  · rw [next_noise htail hopen]
    exact Or.inl (not_not.mp (not_or.mp hopen).2)

/-- A frame that has begun collects its payload, heads in it included. -/
theorem feed_bytes {bs : List B} (htail : F.tail ∉ bs) :
    ∀ {p : Partial F}, p.bytes ≠ [] → p.bytes.length + bs.length ≤ F.limit →
      (p.feed bs).bytes = p.bytes ++ bs := by
  induction bs with
  | nil =>
    intro p _ _
    exact (List.append_nil _).symm
  | cons b bs ih =>
    intro p hp hfits
    rw [List.mem_cons, not_or] at htail
    rw [List.length_cons] at hfits
    have hb : (p.next b).bytes = p.bytes ++ [b] :=
      next_bytes (Ne.symm htail.1) (Or.inr hp) (by omega)
    have hlen : (p.next b).bytes.length = p.bytes.length + 1 := by
      rw [hb, List.length_append]
      rfl
    have hne : (p.next b).bytes ≠ [] := by
      rw [hb]
      exact List.append_ne_nil_of_right_ne_nil _ (List.cons_ne_nil _ _)
    show ((p.next b).feed bs).bytes = _
    rw [ih htail.2 hne (by omega), hb, List.append_assoc]
    rfl

/-- A whole frame before its tail, from no frame. -/
theorem feed_frame {bs : List B} (htail : F.tail ∉ bs) (hfits : bs.length + 1 ≤ F.limit)
    {p : Partial F} (hp : p.bytes = []) : (p.feed (F.head :: bs)).bytes = F.head :: bs := by
  have hb : (p.next F.head).bytes = [F.head] := by
    rw [next_bytes F.ne (Or.inl rfl) (by rw [hp, List.length_nil]; omega), hp]
    rfl
  show ((p.next F.head).feed bs).bytes = _
  rw [feed_bytes htail (by rw [hb]; exact List.cons_ne_nil _ _)
    (by rw [hb, List.length_singleton]; omega), hb]
  rfl

end

end Partial

/-! ## The receiver holds the partial frame -/

namespace Rx

/-- The receiver's variables are those of the partial frame `p`; what the buffer contains beyond
    it is left over from earlier frames, and never a tail. -/
structure Holds (r : Rx B) (p : Partial F) : Prop where
  count : r.count = p.bytes.length
  rx_state : r.rx_state = true ↔ p.bytes ≠ []
  buffer : ∀ i (h : i < p.bytes.length), r.buffer i = p.bytes[i]
  clean : ∀ i, r.buffer i ≠ F.tail

variable {r : Rx B} {p : Partial F}

theorem Holds.closed (h : r.Holds p) : r.rx_state = false ↔ p.bytes = [] := by
  rw [← Bool.not_eq_true, h.rx_state, not_not]

/-- Clearing the counter and the flag leaves no frame. -/
theorem Holds.none (hclean : ∀ i, r.buffer i ≠ F.tail) (hc : r.count = 0)
    (hs : r.rx_state = false) : r.Holds (Partial.none : Partial F) where
  count := hc
  rx_state := by
    rw [hs]
    exact ⟨fun h => (Bool.false_ne_true h).elim, fun h => (h rfl).elim⟩
  buffer := fun i h => (Nat.not_lt_zero i h).elim
  clean := hclean

theorem Holds.update_clean (h : r.Holds p) {b : B} (htail : b ≠ F.tail) (i : ℕ) :
    Function.update r.buffer r.count b i ≠ F.tail := by
  by_cases hi : i = r.count
  · rw [hi, Function.update_self]
    exact htail
  · rw [Function.update_of_ne hi]
    exact h.clean i

section

variable [DecidableEq B]

/-- Storing a byte into an open receiver, or the head into any. -/
theorem Holds.store (h : r.Holds p) {b : B} (htail : b ≠ F.tail)
    (hopen : b = F.head ∨ p.bytes ≠ []) :
    ({ r with rx_state := true }.store F b).Holds (p.next b) := by
  by_cases hfits : p.bytes.length + 1 ≤ F.limit
  · have hb := Partial.next_bytes htail hopen hfits
    have hlen : (p.next b).bytes.length = p.bytes.length + 1 := by
      rw [hb, List.length_append]
      rfl
    have hcount : ¬ r.count + 1 > F.limit := by rw [h.count]; omega
    rw [Rx.store, if_neg hcount]
    refine ⟨?_, ?_, ?_, h.update_clean htail⟩
    · rw [hlen, ← h.count]
    · rw [hb]
      exact ⟨fun _ => List.append_ne_nil_of_right_ne_nil _ (List.cons_ne_nil _ _), fun _ => rfl⟩
    · intro i hi
      rw [hlen] at hi
      rw [List.getElem_of_eq hb]
      show Function.update r.buffer r.count b i = _
      rcases Nat.lt_or_ge i p.bytes.length with hlt | hge
      · rw [Function.update_of_ne (by rw [h.count]; omega), h.buffer i hlt,
          List.getElem_append_left hlt]
      · obtain rfl : i = p.bytes.length := by omega
        rw [h.count, Function.update_self, List.getElem_concat_length rfl]
  · have hcount : r.count + 1 > F.limit := by rw [h.count]; omega
    rw [Partial.next_overload htail hopen hfits, Rx.store, if_pos hcount]
    exact Holds.none (h.update_clean htail) rfl rfl

/-- **One byte** keeps the receiver and the partial frame together.  The receiver only knows its
    counter and its buffer, the partial frame the bytes that they stand for. -/
theorem Holds.receive (h : r.Holds p) (b : B) : (r.receive F b).Holds (p.next b) := by
  by_cases htail : b = F.tail
  · rw [htail, receive_tail, Partial.next_tail]
    exact Holds.none h.clean rfl rfl
  by_cases hopen : b = F.head ∨ p.bytes ≠ []
  · have hstore : r.receive F b = { r with rx_state := true }.store F b := by
      rcases hopen with hh | hp
      · rw [hh, receive_head]
      · have hr : r.rx_state = true := h.rx_state.mpr hp
        rw [receive_open hr htail, ← hr]
    rw [hstore]
    exact h.store htail hopen
  · have hp : p.bytes = [] := not_not.mp fun hp => hopen (Or.inr hp)
    rw [Partial.next_noise htail hopen,
      receive_closed (h.closed.mpr hp) (fun hh => hopen (Or.inl hh)) htail]
    exact h

/-- **A stream of bytes** does so too, by induction on it. -/
theorem Holds.feed (bs : List B) : ∀ {r : Rx B} {p : Partial F}, r.Holds p →
    (r.feed F bs).Holds (p.feed bs) := by
  induction bs with
  | nil =>
    intro r p h
    exact h
  | cons b bs ih =>
    intro r p h
    exact ih (h.receive b)

/-! ## Resynchronisation -/

/-- A frame that starts from a closed receiver is in the buffer when its tail comes. -/
theorem Holds.feed_frame (h : r.Holds p) (hp : p.bytes = []) {bs : List B} (htail : F.tail ∉ bs)
    (hfits : bs.length + 1 ≤ F.limit) {i : ℕ} (hi : i < bs.length) :
    (r.feed F (F.head :: bs)).buffer (i + 1) = bs[i] := by
  have hb := Partial.feed_frame htail hfits hp
  have hlen : i + 1 < (p.feed (F.head :: bs)).bytes.length := by
    rw [hb, List.length_cons]
    omega
  rw [(h.feed (F.head :: bs)).buffer (i + 1) hlen, List.getElem_of_eq hb]
  rfl

/-- The head of a new frame is stored behind the partial one and stays there. -/
theorem Holds.feed_head (h : r.Holds p) {bs : List B} (hhead : F.head ∉ bs) (htail : F.tail ∉ bs) :
    (r.feed F (F.head :: bs)).buffer p.bytes.length = F.head := by
  rw [feed_cons, receive_head, ← h.count]
  have hopen : ({ r with rx_state := true } : Rx B).rx_state = true := rfl
  rw [feed_buffer_of_lt hhead htail, store_buffer_count { r with rx_state := true }]
  intro hs
  rcases store_count (F := F) _ F.head hopen with hc | ⟨_, hc⟩
  · exact absurd (hs.symm.trans hc) (by decide)
  · rw [hc]
    exact Nat.lt_succ_self _

/-- Below the partial frame's end, a new frame changes nothing. -/
theorem Holds.feed_stale (h : r.Holds p) {bs : List B} (hhead : F.head ∉ bs)
    (htail : F.tail ∉ bs) {i : ℕ} (hi : i < p.bytes.length) :
    (r.feed F (F.head :: bs)).buffer i = r.buffer i := by
  have hlt : i < r.count := by rw [h.count]; exact hi
  have hopen : ({ r with rx_state := true } : Rx B).rx_state = true := rfl
  rw [feed_cons, receive_head, feed_buffer_of_lt hhead htail,
    store_buffer_of_lt (r := { r with rx_state := true }) hlt]
  intro hs
  rcases store_count (F := F) _ F.head hopen with hc | ⟨_, hc⟩
  · exact absurd (hs.symm.trans hc) (by decide)
  · rw [hc]
    exact Nat.lt_succ_of_lt hlt

/-- **Resynchronisation**: a frame whose payload has no marker is in the buffer at its tail exactly
    when no frame was open before it, or when the open one was already longer than the whole
    payload and its bytes happen to be the same. -/
theorem Holds.feed_frame_iff (h : r.Holds p) {bs : List B} (hhead : F.head ∉ bs)
    (htail : F.tail ∉ bs) (hfits : bs.length + 1 ≤ F.limit) :
    (∀ i (hi : i < bs.length), (r.feed F (F.head :: bs)).buffer (i + 1) = bs[i]) ↔
      r.count = 0 ∨
      bs.length < r.count ∧ ∀ i (hi : i < bs.length), r.buffer (i + 1) = bs[i] := by
  rw [h.count, List.length_eq_zero_iff]
  constructor
  · intro hall
    by_cases hp : p.bytes = []
    · exact Or.inl hp
    have hpos : 0 < p.bytes.length := List.length_pos_iff.mpr hp
    rcases Nat.lt_or_ge bs.length p.bytes.length with hlt | hge
    · refine Or.inr ⟨hlt, fun i hi => ?_⟩
      rw [← h.feed_stale hhead htail (by omega), hall i hi]
    · -- the head of the new frame stands where a byte of the payload should
      have hlast : p.bytes.length - 1 < bs.length := by omega
      have hat := hall _ hlast
      rw [Nat.sub_add_cancel hpos, h.feed_head hhead htail] at hat
      exact absurd (hat ▸ List.getElem_mem hlast) hhead
  · rintro (hp | ⟨hlt, hall⟩) i hi
    · exact h.feed_frame hp htail hfits hi
    · rw [h.feed_stale hhead htail (by omega), hall i hi]

end

end Rx

end Framing
