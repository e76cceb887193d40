import Mathlib.Tactic
import Mathlib.Data.Int.ModEq
import BoundedFit.Contour.Cursor

/-!
# Moving cursors

The integers act on cursors. Positions are counted and not reduced.
-/

namespace BoundedFit

namespace Cursor

variable (k : Cursor) (i j : Int)

@[simp]
theorem position_add : (k + i).position = k.position + i := rfl

@[simp]
theorem start_add : (k + i).start = k.start := rfl

theorem add_add : k + i + j = k + (i + j) := by
  change Cursor.mk (k.position + i + j) k.start = Cursor.mk (k.position + (i + j)) k.start
  rw [add_assoc]

theorem add_zero : k + (0 : Int) = k := by
  change Cursor.mk (k.position + 0) k.start = k
  rw [Int.add_zero]

theorem sub_eq_add_neg : k - i = k + -i := rfl

theorem add_sub_cancel : k + i - i = k := by
  rw [sub_eq_add_neg, add_add, add_neg_cancel, add_zero]

theorem advance_eq : k.advance i = k + i := rfl

theorem retreat_eq : k.retreat i = k - i := rfl

end Cursor

namespace Contour

variable {ι : Type} {c : Contour ι}

/-! ## Places -/

/-- The position of a cursor on a contour that has items. -/
def place (c : Contour ι) (k : Cursor) : Int :=
  if c.closed then k.position % c.size else k.position

theorem indexOf_eq (hne : c.items ≠ []) (k : Cursor) : c.indexOf k = .ok (c.place k) := by
  unfold indexOf linearIndex place
  split
  · rw [if_neg (by simpa using hne)]
  · rfl

theorem meet_eq (hne : c.items ≠ []) (k l : Cursor) :
    c.meet k l = .ok (decide (c.place k = c.place l)) := by
  unfold meet
  rw [indexOf_eq hne, indexOf_eq hne]
  rfl

theorem meet_iff (hne : c.items ≠ []) {k l : Cursor} :
    c.meet k l = .ok true ↔ c.place k = c.place l := by
  simp [meet_eq hne]

theorem place_eq_iff {k l : Cursor} :
    c.place k = c.place l ↔
      if c.closed then (c.size : Int) ∣ l.position - k.position else k.position = l.position := by
  unfold place
  split
  · exact Int.modEq_iff_dvd
  · rfl

theorem place_add_eq_iff {k l : Cursor} {i : Int} :
    c.place (k + i) = c.place (l + i) ↔ c.place k = c.place l := by
  rw [place_eq_iff, place_eq_iff]
  simp

theorem place_add_eq_self_iff {k : Cursor} {i : Int} :
    c.place (k + i) = c.place k ↔ if c.closed then (c.size : Int) ∣ i else i = 0 := by
  rw [place_eq_iff]
  simp

theorem isDone_add_iff (hclosed : c.closed = true) (position i : Int) :
    c.isDone (Cursor.startingAt position + i) = true ↔ c.size ≤ i.natAbs := by
  simp [isDone, hclosed, Cursor.startingAt]

/-! ## The action -/

/-- Two cursors that no method of theirs tells apart. -/
structure Indistinct (c : Contour ι) (k l : Cursor) : Prop where
  index : c.indexOf k = c.indexOf l
  start : k.start = l.start
  done : c.isDone k = c.isDone l
  value : c.valueOf k = c.valueOf l
  meet : c.meet k l = .ok true
  meet_left : ∀ other, c.meet k other = c.meet l other
  meet_right : ∀ other, c.meet other k = c.meet other l

theorem Indistinct.of_eq (hne : c.items ≠ []) {k l : Cursor} (h : k = l) : c.Indistinct k l := by
  subst h
  exact ⟨rfl, rfl, rfl, rfl, (meet_iff hne).mpr rfl, fun _ => rfl, fun _ => rfl⟩

/-- The laws of moving and comparing cursors. -/
structure Moves (c : Contour ι) : Prop where
  add_zero : ∀ k : Cursor, c.Indistinct (k + (0 : Int)) k
  add_add : ∀ (k : Cursor) (i j : Int), c.Indistinct (k + i + j) (k + (i + j))
  sub : ∀ (k : Cursor) (i : Int), c.Indistinct (k - i) (k + -i)
  add_sub : ∀ (k : Cursor) (i : Int), c.Indistinct (k + i - i) k
  advance : ∀ (k : Cursor) (i : Int), c.Indistinct (k.advance i) (k + i) ∧
    (k.advance i).start = k.start
  retreat : ∀ (k : Cursor) (i : Int), c.Indistinct (k.retreat i) (k - i) ∧
    (k.retreat i).start = k.start
  answers : ∀ k l, ∃ same, c.meet k l = .ok same
  equivalence : Equivalence fun k l => c.meet k l = .ok true
  shift : ∀ (k l : Cursor) (i : Int), c.meet k l = .ok true ↔ c.meet (k + i) (l + i) = .ok true
  stays : ∀ (k : Cursor) (i : Int),
    c.meet (k + i) k = .ok true ↔ if c.closed then (c.size : Int) ∣ i else i = 0
  lap : c.closed = true → ∀ i, ∃ k, c.cursor i = .ok k ∧
    ∀ steps : Int, c.isDone (k + steps) = true ↔ c.size ≤ steps.natAbs

/-- The integers act on the cursors of every contour with items, and the action respects which of them
meet. -/
theorem moves_of_items (hne : c.items ≠ []) : c.Moves := by
  constructor
  case add_zero => exact fun k => .of_eq hne k.add_zero
  case add_add => exact fun k i j => .of_eq hne (k.add_add i j)
  case sub => exact fun k i => .of_eq hne (k.sub_eq_add_neg i)
  case add_sub => exact fun k i => .of_eq hne (k.add_sub_cancel i)
  case advance => exact fun k i => ⟨.of_eq hne (k.advance_eq i), rfl⟩
  case retreat => exact fun k i => ⟨.of_eq hne (k.retreat_eq i), rfl⟩
  case answers => exact fun k l => ⟨_, meet_eq hne k l⟩
  case equivalence =>
    simp only [meet_iff hne]
    exact ⟨fun _ => rfl, fun h => h.symm, fun h h' => h.trans h'⟩
  case shift =>
    intro k l i
    rw [meet_iff hne, meet_iff hne, place_add_eq_iff]
  case stays =>
    intro k i
    rw [meet_iff hne, place_add_eq_self_iff]
  case lap =>
    intro hclosed i
    have hcursor : c.cursor i = .ok (Cursor.startingAt (i % c.size)) := by
      simp [cursor, linearIndex, hclosed, hne, Except.map]
    exact ⟨_, hcursor, fun steps => isDone_add_iff hclosed _ steps⟩

def pentagon : Contour Nat := ⟨[10, 20, 30, 40, 50], true⟩

theorem moves_pentagon :
    pentagon.items ≠ [] ∧ pentagon.Moves ∧
      pentagon.meet ((⟨2, 2⟩ : Cursor) + (5 : Int)) ⟨2, 2⟩ = .ok true ∧
      pentagon.meet ((⟨2, 2⟩ : Cursor) - (1 : Int)) ⟨2, 2⟩ ≠ .ok true ∧
      pentagon.isDone ((⟨2, 2⟩ : Cursor) + (5 : Int)) = true := by
  have hne : pentagon.items ≠ [] := by decide
  have hmoves := moves_of_items hne
  obtain ⟨k, hk, hlap⟩ := hmoves.lap rfl 2
  obtain rfl : ⟨2, 2⟩ = k := Except.ok.inj hk
  refine ⟨hne, hmoves, (hmoves.stays _ 5).mpr (by decide), fun hback => ?_, (hlap 5).mpr (by decide)⟩
  exact absurd ((hmoves.stays _ (-1)).mp hback) (by decide)

end Contour

end BoundedFit
