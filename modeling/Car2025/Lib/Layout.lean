/-
  Rectangles on a grid, and pages that are laid out without an overlap.

  1. **Rectangles (`Rect`)** — given by their corners, which belong to them; `In` a box, `Apart` from
     another.

  2. **Pages (`Tiles`)** — items whose rectangles lie in a box and are apart from each other.  Two pages
     whose boxes are apart make one page (`Tiles.append`).

  3. **Places** — on such a page an item is found by its corner (`Tiles.find`).
-/
import Mathlib

namespace Layout

structure Rect where
  x1 : ℕ
  y1 : ℕ
  x2 : ℕ
  y2 : ℕ
  deriving DecidableEq, Repr

namespace Rect

def Proper (a : Rect) : Prop := a.x1 ≤ a.x2 ∧ a.y1 ≤ a.y2

def In (a b : Rect) : Prop := b.x1 ≤ a.x1 ∧ b.y1 ≤ a.y1 ∧ a.x2 ≤ b.x2 ∧ a.y2 ≤ b.y2

def Apart (a b : Rect) : Prop := a.x2 < b.x1 ∨ b.x2 < a.x1 ∨ a.y2 < b.y1 ∨ b.y2 < a.y1

instance (a b : Rect) : Decidable (a.In b) := inferInstanceAs (Decidable (_ ∧ _))

instance (a b : Rect) : Decidable (a.Apart b) := inferInstanceAs (Decidable (_ ∨ _))

variable {a b c d : Rect}

theorem In.refl (a : Rect) : a.In a := ⟨le_rfl, le_rfl, le_rfl, le_rfl⟩

theorem In.trans (h : a.In b) (h' : b.In c) : a.In c :=
  ⟨h'.1.trans h.1, h'.2.1.trans h.2.1, h.2.2.1.trans h'.2.2.1, h.2.2.2.trans h'.2.2.2⟩

/-- Boxes that are apart keep apart what is in them. -/
theorem Apart.of_in (h : c.Apart d) (ha : a.In c) (hb : b.In d) : a.Apart b := by
  obtain ⟨hx1, hy1, hx2, hy2⟩ := ha
  obtain ⟨hx1', hy1', hx2', hy2'⟩ := hb
  -- the side on which the boxes are apart is the side on which what is in them is
  rcases h with h | h | h | h
  · exact Or.inl (by omega)
  · exact Or.inr (Or.inl (by omega))
  · exact Or.inr (Or.inr (Or.inl (by omega)))
  · exact Or.inr (Or.inr (Or.inr (by omega)))

/-- Two rectangles with one corner overlap. -/
theorem Proper.not_apart (ha : a.Proper) (hb : b.Proper) (hx : a.x1 = b.x1) (hy : a.y1 = b.y1) :
    ¬ a.Apart b := by
  obtain ⟨hax, hay⟩ := ha
  obtain ⟨hbx, hby⟩ := hb
  rintro (h | h | h | h) <;> omega

end Rect

variable {α : Type*} {area : α → Rect} {ws ws' : List α} {a b box box' : Rect}

/-- The items of a page, in a box: each is a proper rectangle inside it, and no two overlap. -/
structure Tiles (area : α → Rect) (ws : List α) (box : Rect) : Prop where
  proper : ∀ w ∈ ws, (area w).Proper
  inside : ∀ w ∈ ws, (area w).In box
  apart : ws.Pairwise fun w w' => (area w).Apart (area w')

namespace Tiles

theorem nil : Tiles area [] box := ⟨nofun, nofun, List.Pairwise.nil⟩

theorem single {w : α} (hp : (area w).Proper) (hi : (area w).In box) : Tiles area [w] box :=
  ⟨fun _ h => List.mem_singleton.mp h ▸ hp, fun _ h => List.mem_singleton.mp h ▸ hi,
    List.pairwise_singleton _ _⟩

theorem mono (h : Tiles area ws box) (hbox : box.In box') : Tiles area ws box' :=
  ⟨h.proper, fun w hw => (h.inside w hw).trans hbox, h.apart⟩

/-- **Two pages side by side** are one page, where their boxes do not overlap. -/
theorem append (h : Tiles area ws a) (h' : Tiles area ws' b) (hab : a.Apart b) (ha : a.In box)
    (hb : b.In box) : Tiles area (ws ++ ws') box := by
  refine ⟨?_, ?_, List.pairwise_append.mpr ⟨h.apart, h'.apart, ?_⟩⟩
  · exact fun w hw => (List.mem_append.mp hw).elim (h.proper w) (h'.proper w)
  · exact fun w hw => (List.mem_append.mp hw).elim (fun hw => (h.inside w hw).trans ha)
      fun hw => (h'.inside w hw).trans hb
  · exact fun w hw w' hw' => hab.of_in (h.inside w hw) (h'.inside w' hw')

/-- **An item is found** by its corner, as no other one can have the same. -/
theorem find (h : Tiles area ws box) {w : α} (hw : w ∈ ws) :
    ws.find? (fun w' => (area w').x1 = (area w).x1 ∧ (area w').y1 = (area w).y1) = some w := by
  obtain ⟨w', hfound⟩ : ∃ w', ws.find?
      (fun w' => (area w').x1 = (area w).x1 ∧ (area w').y1 = (area w).y1) = some w' := by
    rw [← Option.isSome_iff_exists, List.find?_isSome]
    exact ⟨w, hw, by simp⟩
  have hmem : w' ∈ ws := List.mem_of_find?_eq_some hfound
  have hcorner := List.find?_some hfound
  rw [decide_eq_true_iff] at hcorner
  rw [hfound]
  by_contra hne
  -- another item at this corner would overlap
  refine (h.proper w' hmem).not_apart (h.proper w hw) hcorner.1 hcorner.2 ?_
  have hsymm : Std.Symm fun w w' => (area w).Apart (area w') := by
    refine ⟨fun w w' hapart => ?_⟩
    rcases hapart with h | h | h | h
    · exact Or.inr (Or.inl h)
    · exact Or.inl h
    · exact Or.inr (Or.inr (Or.inr h))
    · exact Or.inr (Or.inr (Or.inl h))
  exact h.apart.forall hmem hw fun heq => hne (congrArg some heq)

end Tiles

end Layout
