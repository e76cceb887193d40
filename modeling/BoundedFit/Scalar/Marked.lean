import BoundedFit.Scalar

/-! # Numbers that remember where they came from -/

namespace BoundedFit

/-- A number with the mark of the reading it was taken from. Numbers of one reading are the same even
if they compare with nothing. -/
structure Marked (α : Type) where
  value : α
  mark : Nat

namespace Marked

variable {α : Type}

instance [LT α] : LT (Marked α) := ⟨fun u v => u.value < v.value⟩

instance [LE α] : LE (Marked α) := ⟨fun u v => u.mark = v.mark ∨ u.value ≤ v.value⟩

instance [LT α] [DecidableLT α] : DecidableLT (Marked α) := fun u v =>
  inferInstanceAs (Decidable (u.value < v.value))

instance [LE α] [DecidableLE α] : DecidableLE (Marked α) := fun u v =>
  inferInstanceAs (Decidable (u.mark = v.mark ∨ u.value ≤ v.value))

theorem same_of_mark_eq [LE α] [DecidableLE α] {u v : Marked α} (h : u.mark = v.mark) :
    Scalar.same u v = true := by
  have huv : u ≤ v := Or.inl h
  have hvu : v ≤ u := Or.inl h.symm
  simp [Scalar.same, huv, hvu]

end Marked

end BoundedFit
