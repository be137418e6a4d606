/-
  What a tail byte publishes: whole frames and stale ones.

  1. **The camera link** — a tail in the right mode always publishes the positions 1 to 5 of the
     buffer.  `News` says when that shows; `published_whole_iff` that the runs without stale news are
     exactly those in which no tail comes with anything but a whole frame while there is news.

  2. **The classifying link** — the same for position 1 and `Art_Data`: a class can be read without
     having been received since it was cleared.  The crux is what the receiver's counter tells about
     the bytes (`run_trails`): at count 2 position 1 holds the byte right behind the newest head, so
     a tail there publishes what it ends; at any other count it publishes what was there before.
-/
import Mathlib
import Car2025.Lib.Runs
import Car2025.Link.Art

namespace Car2025

open Framing Runs MCX_Current_Mode

/-! ## The camera link -/

namespace MCX

variable {s s' : MCX}

/-- A step changes the centre or raises the flag.  What a tail leaves as it was cannot be seen by
    the threads. -/
def Publishes (s s' : MCX) : Prop :=
  s'.center_x ≠ s.center_x ∨ s'.center_y ≠ s.center_y ∨
    s.MCX_Detection_Flag = false ∧ s'.MCX_Detection_Flag = true

/-- The handler, run now, would do so: the buffer holds other coordinates than those published, or
    a picture and no flag. -/
def News (s : MCX) : Prop :=
  match s.mcxCurrent_Mode with
  | Reset_Mode => False
  | Detection_Mode =>
    s.rx.buffer 1 ≠ 0 ∧
      (int16_of (s.rx.buffer 2) (s.rx.buffer 3) ≠ s.center_x ∨
        int16_of (s.rx.buffer 4) (s.rx.buffer 5) ≠ s.center_y ∨ s.MCX_Detection_Flag = false)
  | Location_Mode =>
    if s.rx.buffer 1 ≠ 0 then
      int16_of (s.rx.buffer 2) (s.rx.buffer 3) ≠ s.center_x ∨
        int16_of (s.rx.buffer 4) (s.rx.buffer 5) ≠ s.center_y
    else s.last_x ≠ s.center_x
  | Put_Mode => False

/-- What does not touch the centre and the flag does not publish. -/
theorem not_publishes (hx : s'.center_x = s.center_x) (hy : s'.center_y = s.center_y)
    (hf : s'.MCX_Detection_Flag = s.MCX_Detection_Flag) : ¬ Publishes s s' := by
  rintro (h | h | ⟨h1, h2⟩)
  · exact h hx
  · exact h hy
  · rw [hf, h1] at h2
    exact Bool.false_ne_true h2

/-- **The handler** publishes exactly when there is news, mode by mode. -/
theorem handle_publishes_iff (s : MCX) : Publishes s (MCX_uart_handle s) ↔ s.News := by
  obtain ⟨rx, rx_flag, flag, mode, x, y, last, written⟩ := s
  cases mode with
  | Reset_Mode => exact iff_of_false (not_publishes rfl rfl rfl) id
  | Put_Mode => exact iff_of_false (not_publishes rfl rfl rfl) id
  | Detection_Mode =>
    by_cases h1 : rx.buffer 1 ≠ 0
    · rw [handle_detection rfl h1]
      show (_ ∨ _ ∨ _ ∧ true = true) ↔ rx.buffer 1 ≠ 0 ∧ _
      rw [and_iff_left rfl, and_iff_right h1]
    · rw [handle_detection_none rfl h1]
      exact iff_of_false (not_publishes rfl rfl rfl) fun h => h1 h.1
  | Location_Mode =>
    have hflag : ¬ (flag = false ∧ flag = true) := fun h => Bool.false_ne_true (h.1.symm.trans h.2)
    by_cases h1 : rx.buffer 1 ≠ 0
    · rw [handle_location rfl h1]
      show _ ↔ if rx.buffer 1 ≠ 0 then _ else _
      rw [if_pos h1]
      exact or_congr_right (or_iff_left hflag)
    · rw [handle_location_none rfl h1]
      show _ ↔ if rx.buffer 1 ≠ 0 then _ else _
      rw [if_neg h1]
      exact or_iff_left fun h => h.elim (fun hy => hy rfl) hflag

/-- **One byte** publishes exactly when it is a tail and there is news; whether it ends a frame is
    not asked. -/
theorem receive_publishes_iff (byte : UInt8) (s : MCX) :
    Publishes s (s.act (.receive byte)) ↔ byte = BUFFER_TAIL ∧ s.News := by
  show Publishes s (MCX_uart_callback byte s) ↔ _
  by_cases hb : byte = BUFFER_TAIL
  · rw [hb, MCX_uart_callback_tail, and_iff_right rfl, ← handle_publishes_iff]
    exact Iff.rfl
  · rw [MCX_uart_callback_of_ne hb]
    exact iff_of_false (not_publishes rfl rfl rfl) fun h => hb h.1

/-- The bytes collected since the last tail or overload are a head and five more. -/
def Whole (as : List Action) : Prop := (pending as).bytes.length = 6

instance (as : List Action) : Decidable (Whole as) := inferInstanceAs (Decidable (_ = _))

/-- The receiver's own counter tells, as it counts the bytes collected; so the condition can be
    read off the state. -/
theorem whole_iff_count (as : List Action) : Whole as ↔ (start.run as).rx.count = 6 := by
  rw [Whole, (run_holds as).count]

/-- **Only whole frames are published** in exactly the runs in which no tail byte comes at another
    count than 6 while the handler has news. -/
theorem published_whole_iff (as : List Action) :
    EachStep (fun pre a => ∀ byte, a = .receive byte →
        Publishes (start.run pre) (start.run (pre ++ [a])) → byte = BUFFER_TAIL ∧ Whole pre) as ↔
      EachStep (fun pre a => a = .receive BUFFER_TAIL → (start.run pre).rx.count ≠ 6 →
        ¬ (start.run pre).News) as := by
  apply eachStep_congr
  intro pre a _
  rw [run_concat]
  constructor
  · rintro h rfl hcount hnews
    have hwhole := (h _ rfl ((receive_publishes_iff _ _).mpr ⟨rfl, hnews⟩)).2
    exact hcount ((whole_iff_count pre).mp hwhole)
  · rintro h byte rfl hpub
    obtain ⟨rfl, hnews⟩ := (receive_publishes_iff _ _).mp hpub
    refine ⟨rfl, (whole_iff_count pre).mpr ?_⟩
    by_contra hcount
    exact h rfl hcount hnews

/-- **The defect**: a frame cut short after two bytes raises the flag, and the coordinates are
    taken from positions that it never reached. -/
theorem published_truncated :
    Publishes (start.run [.receive 0xAA, .receive 1, .receive 5])
        (start.run ([.receive 0xAA, .receive 1, .receive 5] ++ [.receive BUFFER_TAIL])) ∧
      ¬ Whole [.receive 0xAA, .receive 1, .receive 5] :=
  ⟨Or.inr (Or.inr (by decide)), by decide⟩

end MCX

/-! ## The classifying link -/

namespace Art

/-- The bytes received since the last `Art_DataClear`, one action more. -/
def sinceClear (bytes : List UInt8) : Action → List UInt8
  | .receive byte => bytes ++ [byte]
  | .DataClear => []

/-- The bytes that a run received since the last `Art_DataClear`. -/
def since (as : List Action) : List UInt8 := as.foldl sinceClear []

theorem since_concat (as : List Action) (a : Action) :
    since (as ++ [a]) = sinceClear (since as) a := List.foldl_append

/-- What can be read has been received since the last clear, as the class of a whole frame; 0
    stands for no class. -/
def Fresh (as : List Action) : Prop :=
  Art_GetData (start.run as) ≠ 0 → frame (Art_GetData (start.run as)) <:+: since as

/-- A tail would now end a whole frame: the receiver has stored a head and one byte behind it, and the
    last two bytes have come since the last `Art_DataClear`. -/
def AtFrame (as : List Action) : Prop := (start.run as).rx.count = 2 ∧ 2 ≤ (since as).length

/-- A whole frame with class `c` has ended since the last `Art_DataClear`. -/
def Delivered (as : List Action) (c : UInt8) : Prop :=
  ∃ (pre : List Action) (bytes : List UInt8),
    as = pre ++ .receive BUFFER_TAIL :: bytes.map .receive ∧ AtFrame pre ∧
      (start.run pre).rx.buffer 1 = c

/-- What a step may do: a tail that finds a class at position 1 ends a whole frame, or one with this
    class has ended before.  Lone tails, empty frames, frames with more than one byte behind the
    head, overloads and frames cut by a clear all come at another count, or too early. -/
def Guarded (pre : List Action) (a : Action) : Prop :=
  a = .receive BUFFER_TAIL → (start.run pre).rx.buffer 1 ≠ 0 →
    AtFrame pre ∨ Delivered pre ((start.run pre).rx.buffer 1)

/-- A head byte comes only while the receiver waits for one. -/
def HeadsApart (as : List Action) : Prop :=
  EachStep (fun pre a => a = .receive BUFFER_HEAD → (start.run pre).rx.rx_state = false) as

/-- The receiver's partial frame is the newest part of what came since the last clear, or reaches back
    beyond it: the clear does not touch the receiver, so the two only ever grow at the same end. -/
theorem run_trails (as : List Action) : ∃ p : Partial Art_format,
    (start.run as).rx.Holds p ∧ (p.bytes <:+ since as ∨ since as <:+ p.bytes) := by
  induction as using List.reverseRecOn with
  | nil =>
    exact ⟨_, Rx.Holds.none (fun _ => show (0 : UInt8) ≠ BUFFER_TAIL by decide) rfl rfl,
      Or.inl List.nil_suffix⟩
  | append_singleton as a ih =>
    obtain ⟨p, hp, htrails⟩ := ih
    rw [run_concat, since_concat]
    cases a with
    | DataClear => exact ⟨p, hp, Or.inr List.nil_suffix⟩
    | receive byte =>
      have hnext : (Art_uart_callback byte (start.run as)).rx.Holds (p.next byte) := by
        rw [Art_uart_callback_rx]
        exact hp.receive byte
      refine ⟨p.next byte, hnext, ?_⟩
      rcases p.next_bytes_cases byte with hnil | hgrown
      · rw [hnil]
        exact Or.inl List.nil_suffix
      · rw [hgrown]
        show _ <:+ since as ++ [byte] ∨ since as ++ [byte] <:+ _
        rw [List.suffix_append_self_iff, List.suffix_append_self_iff]
        exact htrails

/-- **At a whole frame** the last two bytes are the head and the class: the counter says that two
    bytes have been collected, the first of a partial frame is a head, and both lie behind the
    clear. -/
theorem AtFrame.suffix {as : List Action} (h : AtFrame as) :
    [BUFFER_HEAD, (start.run as).rx.buffer 1] <:+ since as := by
  obtain ⟨p, hp, htrails⟩ := run_trails as
  have hlength : p.bytes.length = 2 := hp.count.symm.trans h.1
  obtain ⟨b, c, hbytes⟩ := List.length_eq_two.mp hlength
  have hb : b = BUFFER_HEAD := p.head b (by rw [hbytes]; rfl)
  have hc : (start.run as).rx.buffer 1 = c := by
    rw [hp.buffer 1 (by omega), List.getElem_of_eq hbytes]
    rfl
  rw [hc, ← hb, ← hbytes]
  rcases htrails with hsuffix | hsuffix
  · exact hsuffix
  · -- the other way round they are equally long
    have hle := hsuffix.length_le
    rw [hsuffix.eq_of_length (by have h2 := h.2; omega)]

theorem since_receive (pre : List Action) (bytes : List UInt8) :
    since (pre ++ bytes.map .receive) = since pre ++ bytes := by
  induction bytes using List.reverseRecOn with
  | nil => rw [List.map_nil, List.append_nil, List.append_nil]
  | append_singleton bytes byte ih =>
    rw [List.map_append, List.map_singleton, ← List.append_assoc, since_concat, ih,
      ← List.append_assoc]
    rfl

/-- What a whole frame delivered has been received since the last clear. -/
theorem Delivered.infix {as : List Action} {c : UInt8} (h : Delivered as c) :
    frame c <:+: since as := by
  obtain ⟨pre, bytes, rfl, hframe, rfl⟩ := h
  obtain ⟨t, ht⟩ := hframe.suffix
  have hbytes := since_receive pre (BUFFER_TAIL :: bytes)
  rw [List.map_cons] at hbytes
  refine ⟨t, bytes, ?_⟩
  rw [hbytes, ← ht, List.append_assoc, List.append_assoc]
  rfl

/-- **A step** that is guarded keeps the class fresh.  Only a tail brings a new class, and then it
    is the one of a frame that ends here or has ended since the clear; a clear leaves no class. -/
theorem Fresh.act {pre : List Action} {a : Action} (h : Fresh pre) (hguard : Guarded pre a) :
    Fresh (pre ++ [a]) := by
  rw [Fresh, run_concat, since_concat]
  cases a with
  | DataClear => exact fun h0 => absurd rfl h0
  | receive byte =>
    show Art_GetData (Art_uart_callback byte _) ≠ 0 →
      frame (Art_GetData (Art_uart_callback byte _)) <:+: since pre ++ [byte]
    by_cases hb : byte = BUFFER_TAIL
    · subst hb
      rw [Art_uart_callback_tail]
      intro hne
      rcases hguard rfl hne with hframe | hdelivered
      · obtain ⟨t, ht⟩ := hframe.suffix
        refine List.IsSuffix.isInfix ⟨t, ?_⟩
        rw [← ht, List.append_assoc]
        rfl
      · exact hdelivered.infix.trans (List.prefix_append _ _).isInfix
    · rw [Art_uart_callback_of_ne hb]
      exact fun hne => (h hne).trans (List.prefix_append _ _).isInfix

/-- The last byte of what was received since the last clear is the last action, as a clear would
    have left no byte. -/
theorem since_eq_concat {as : List Action} {t : List UInt8} {byte : UInt8}
    (h : since as = t ++ [byte]) : ∃ pre, as = pre ++ [.receive byte] ∧ since pre = t := by
  induction as using List.reverseRecOn with
  | nil => exact absurd h.symm (List.concat_ne_nil byte t)
  | append_singleton pre a _ =>
    rw [since_concat] at h
    cases a with
    | DataClear => exact absurd h.symm (List.concat_ne_nil byte t)
    | receive byte' =>
      obtain ⟨rfl, hbyte⟩ := List.append_inj' h rfl
      obtain rfl : byte' = byte := List.singleton_injective hbyte
      exact ⟨pre, rfl, rfl⟩

/-- **Heads apart**: a head starts a frame, so the byte right behind it stands at position 1.
    Without this a head inside an open frame is stored as data, and bytes that look like a frame
    need not be one. -/
theorem HeadsApart.atFrame {as : List Action} (h : HeadsApart as) {c : UInt8} (hc : c ≠ BUFFER_TAIL)
    (hsuffix : [BUFFER_HEAD, c] <:+ since as) :
    AtFrame as ∧ (start.run as).rx.buffer 1 = c := by
  have hlong : 2 ≤ (since as).length := hsuffix.length_le
  obtain ⟨t, ht⟩ := hsuffix
  have hsplit : since as = (t ++ [BUFFER_HEAD]) ++ [c] := by
    rw [← ht, List.append_assoc]
    rfl
  obtain ⟨mid, hmid, hsince⟩ := since_eq_concat hsplit
  obtain ⟨pre, hpre, -⟩ := since_eq_concat hsince
  subst hmid hpre
  -- the receiver is closed before the head, so the head opens a frame of its own
  have hclosed := h pre _ (List.prefix_append _ _) rfl
  obtain ⟨p, hp, -⟩ := run_trails pre
  have hnil : p.bytes = [] := hp.closed.mp hclosed
  have htail : BUFFER_TAIL ∉ [c] := by
    rw [List.mem_singleton]
    exact hc.symm
  have hbytes : ((p.next BUFFER_HEAD).next c).bytes = [BUFFER_HEAD, c] :=
    Partial.feed_frame (F := Art_format) htail (show 2 ≤ 3 by decide) hnil
  have hrx : (start.run (pre ++ [.receive BUFFER_HEAD] ++ [.receive c])).rx.Holds
      ((p.next BUFFER_HEAD).next c) := by
    rw [run_concat, run_concat]
    show (Art_uart_callback c (Art_uart_callback BUFFER_HEAD _)).rx.Holds _
    rw [Art_uart_callback_rx, Art_uart_callback_rx]
    exact (hp.receive BUFFER_HEAD).receive c
  refine ⟨⟨?_, hlong⟩, ?_⟩
  · rw [hrx.count, hbytes]
    rfl
  · rw [hrx.buffer 1 (by rw [hbytes]; exact Nat.one_lt_two), List.getElem_of_eq hbytes]
    rfl

/-- And then every frame found in the bytes is one that the receiver delivered. -/
theorem HeadsApart.delivered {as : List Action} (h : HeadsApart as) {c : UInt8}
    (hc : c ≠ BUFFER_TAIL) (hfound : frame c <:+: since as) : Delivered as c := by
  induction as using List.reverseRecOn with
  | nil => exact absurd (List.infix_nil.mp hfound) (List.cons_ne_nil _ _)
  | append_singleton as a ih =>
    have hbefore : HeadsApart as := (eachStep_concat.mp h).1
    rw [since_concat] at hfound
    cases a with
    | DataClear => exact absurd (List.infix_nil.mp hfound) (List.cons_ne_nil _ _)
    | receive byte =>
      rcases List.infix_concat_iff.mp hfound with hends | hearlier
      · -- this byte is the tail of the frame
        obtain ⟨t, ht⟩ := hends
        have hsplit : (t ++ [BUFFER_HEAD, c]) ++ [BUFFER_TAIL] = since as ++ [byte] := by
          rw [← ht, List.append_assoc]
          rfl
        obtain ⟨hsuffix, hbyte⟩ := List.append_inj' hsplit rfl
        obtain rfl : BUFFER_TAIL = byte := List.singleton_injective hbyte
        obtain ⟨hframe, hbuffer⟩ := hbefore.atFrame hc ⟨t, hsuffix⟩
        exact ⟨as, [], rfl, hframe, hbuffer⟩
      · obtain ⟨pre, bytes, rfl, hframe, hbuffer⟩ := ih hbefore hearlier
        refine ⟨pre, bytes ++ [byte], ?_, hframe, hbuffer⟩
        rw [List.map_append, List.append_assoc]
        rfl

/-- **Classes are fresh** in every run whose steps are guarded; and where heads only come to a receiver
    that waits for one, in no other. -/
theorem fresh_guarded (as : List Action) :
    (EachStep Guarded as → Always Fresh as) ∧
      (HeadsApart as → Always Fresh as → EachStep Guarded as) := by
  constructor
  · intro h
    exact Always.of_eachStep (fun h0 => absurd rfl h0)
      (h.imp fun pre a hguard hfresh => hfresh.act hguard)
  · rintro hheads hfresh pre a hpre rfl hne
    have hapart : HeadsApart pre := fun pre' a' hpre' =>
      hheads pre' a' (hpre'.trans ((List.prefix_append pre _).trans hpre))
    obtain ⟨p, hp, -⟩ := run_trails pre
    have hclean : (start.run pre).rx.buffer 1 ≠ BUFFER_TAIL := hp.clean 1
    have hdata : Art_GetData (start.run (pre ++ [.receive BUFFER_TAIL])) =
        (start.run pre).rx.buffer 1 := by
      rw [run_concat]
      exact congrArg Art_GetData (Art_uart_callback_tail _)
    have hfound := hfresh _ hpre (by rw [hdata]; exact hne)
    rw [hdata, since_concat] at hfound
    rcases List.infix_concat_iff.mp hfound with ⟨t, ht⟩ | hearlier
    · have hsplit : (t ++ [BUFFER_HEAD, (start.run pre).rx.buffer 1]) ++ [BUFFER_TAIL] =
          since pre ++ [BUFFER_TAIL] := by
        rw [← ht, List.append_assoc]
        rfl
      exact Or.inl (hapart.atFrame hclean ⟨t, (List.append_inj' hsplit rfl).1⟩).1
    · exact Or.inr (hapart.delivered hclean hearlier)

/-- **The defect**: a lone tail after the clear brings the old class back.  `Art_DataClear` clears
    the class and not position 1 of the buffer, which the tail publishes again. -/
theorem stale_class :
    ¬ Fresh [.receive 0xAA, .receive 101, .receive 0xFF, .DataClear, .receive 0xFF] := by
  intro h
  exact absurd (h (by decide)) (by decide)

end Art

end Car2025
