/-!
# Scalars

No law is assumed. Comparisons are used so that what compares with nothing has a definite effect.
-/

namespace BoundedFit

/-- What the library asks of a number type beyond arithmetic and comparison. -/
class Scalar (α : Type) where
  sqrt : α → α
  isFinite : α → Bool

instance : Scalar Float where
  sqrt := Float.sqrt
  isFinite := Float.isFinite

namespace Scalar

variable {α : Type} [Neg α] [Zero α] [LT α] [LE α] [DecidableLT α] [DecidableLE α]

def abs (v : α) : α := if v < 0 then -v else v

/-- Each is at most the other. The two zeros of a double are the same, and a value that compares
with nothing is not the same as itself. -/
def same (u v : α) : Bool := decide (u ≤ v) && decide (v ≤ u)

/-- Whether the value compares with anything. -/
def isComparable (v : α) : Bool := same v v

end Scalar

end BoundedFit
