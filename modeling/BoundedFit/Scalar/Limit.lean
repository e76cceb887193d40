import BoundedFit.Scalar

/-!
# Limits

They compare and are subtracted as doubles are.
-/

namespace BoundedFit

/-- Numbers, both infinities and a value that is no number. -/
inductive Limit (α : Type) where
  | number (v : α)
  | posInfinity
  | negInfinity
  | notANumber
  deriving DecidableEq, Repr

namespace Limit

variable {α : Type}

def neg [Neg α] : Limit α → Limit α
  | number v => number (-v)
  | posInfinity => negInfinity
  | negInfinity => posInfinity
  | notANumber => notANumber

/-- The difference of an infinity and itself is no number. -/
def sub [Sub α] : Limit α → Limit α → Limit α
  | number u, number v => number (u - v)
  | notANumber, _ | _, notANumber => notANumber
  | posInfinity, posInfinity | negInfinity, negInfinity => notANumber
  | posInfinity, _ | _, negInfinity => posInfinity
  | negInfinity, _ | _, posInfinity => negInfinity

/-- What is no number is not less than anything, and nothing is less than it. -/
def Less [LT α] : Limit α → Limit α → Prop
  | number u, number v => u < v
  | negInfinity, number _ | negInfinity, posInfinity | number _, posInfinity => True
  | _, _ => False

def AtMost [LE α] : Limit α → Limit α → Prop
  | number u, number v => u ≤ v
  | notANumber, _ | _, notANumber => False
  | negInfinity, _ | _, posInfinity => True
  | _, _ => False

instance [Zero α] : Zero (Limit α) := ⟨number 0⟩

instance [Neg α] : Neg (Limit α) := ⟨neg⟩

instance [Sub α] : Sub (Limit α) := ⟨sub⟩

instance [LT α] : LT (Limit α) := ⟨Less⟩

instance [LE α] : LE (Limit α) := ⟨AtMost⟩

instance [LT α] [DecidableLT α] : DecidableLT (Limit α)
  | number u, number v => inferInstanceAs (Decidable (u < v))
  | negInfinity, number _ | negInfinity, posInfinity | number _, posInfinity => isTrue trivial
  | notANumber, _ | posInfinity, _ | number _, negInfinity | number _, notANumber
  | negInfinity, negInfinity | negInfinity, notANumber => isFalse id

instance [LE α] [DecidableLE α] : DecidableLE (Limit α)
  | number u, number v => inferInstanceAs (Decidable (u ≤ v))
  | negInfinity, number _ | negInfinity, posInfinity | negInfinity, negInfinity
  | number _, posInfinity | posInfinity, posInfinity => isTrue trivial
  | notANumber, _ | posInfinity, number _ | posInfinity, negInfinity | posInfinity, notANumber
  | number _, negInfinity | number _, notANumber | negInfinity, notANumber => isFalse id

instance [Scalar α] : Scalar (Limit α) where
  sqrt
    | number v => number (Scalar.sqrt v)
    | posInfinity => posInfinity
    | negInfinity | notANumber => notANumber
  isFinite
    | number _ => true
    | posInfinity | negInfinity | notANumber => false

end Limit

end BoundedFit
