import BoundedFit.Scalar

/-!
# Bounds on single coordinates

Ordered by coordinate, then value, then side.
-/

namespace BoundedFit

/-- An upper bound keeps a coordinate at or below its value, a lower one at or above. -/
inductive Side where
  | upper
  | lower
  deriving DecidableEq, Repr

namespace Side

/-- The sign that turns a difference into a distance inside the bound. -/
def sign : Side → Int
  | upper => -1
  | lower => 1

def ofSign? (sign : Int) : Option Side :=
  if sign = 1 then some lower else if sign = -1 then some upper else none

/-- Turns the allowed direction of a side into the positive one. -/
def orient {α : Type} [Neg α] : Side → α → α
  | upper, v => -v
  | lower, v => v

theorem ofSign?_sign (s : Side) : ofSign? s.sign = some s := by cases s <;> rfl

end Side

/-- The condition that coordinate `index` is not on the wrong side of `value`. -/
structure Bound (α : Type) where
  index : Nat
  value : α
  side : Side
  deriving Repr

namespace Bound

def map {α β : Type} (f : α → β) (b : Bound α) : Bound β := ⟨b.index, f b.value, b.side⟩

variable {α : Type} [LT α] [LE α] [DecidableLT α] [DecidableLE α]

/-- Equality of bounds, where values are compared as numbers. -/
def same (a b : Bound α) : Bool :=
  a.index == b.index && Scalar.same a.value b.value && a.side == b.side

/-- Strictly before, by coordinate, then value, then side. An upper bound comes before a lower
one. -/
def before (a b : Bound α) : Bool :=
  a.index < b.index || a.index == b.index &&
    (a.value < b.value || Scalar.same a.value b.value && a.side == .upper && b.side == .lower)

def beforeOrSame (a b : Bound α) : Bool := a.before b || a.same b

/-- Sorted by `before`; bounds of which none is before the other keep their order. -/
def sort (bounds : List (Bound α)) : List (Bound α) := bounds.mergeSort fun a b => !b.before a

end Bound

end BoundedFit
