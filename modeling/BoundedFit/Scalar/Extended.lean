import BoundedFit.Scalar

/-!
# Numbers and what is no number

A quotient by zero is no number either.
-/

namespace BoundedFit

/-- Numbers and one value that is no number. It is passed on by every operation and compares with
nothing, not even with itself. -/
inductive Extended (α : Type) where
  | number (v : α)
  | notANumber
  deriving DecidableEq, Repr

namespace Extended

variable {α : Type}

def map (f : α → α) : Extended α → Extended α
  | number v => number (f v)
  | notANumber => notANumber

/-- A result is a number only if both operands are. -/
def combine (f : α → α → α) : Extended α → Extended α → Extended α
  | number u, number v => number (f u v)
  | _, _ => notANumber

/-- Whether both are numbers that compare in this way. -/
def Compare (r : α → α → Prop) : Extended α → Extended α → Prop
  | number u, number v => r u v
  | _, _ => False

instance (r : α → α → Prop) [DecidableRel r] : DecidableRel (Compare r)
  | number u, number v => inferInstanceAs (Decidable (r u v))
  | number _, notANumber => inferInstanceAs (Decidable False)
  | notANumber, _ => inferInstanceAs (Decidable False)

instance [Zero α] : Zero (Extended α) := ⟨number 0⟩

instance [One α] : One (Extended α) := ⟨number 1⟩

instance [OfScientific α] : OfScientific (Extended α) :=
  ⟨fun mantissa negative exponent => number (OfScientific.ofScientific mantissa negative exponent)⟩

instance [Neg α] : Neg (Extended α) := ⟨map (-·)⟩

instance [Add α] : Add (Extended α) := ⟨combine (· + ·)⟩

instance [Sub α] : Sub (Extended α) := ⟨combine (· - ·)⟩

instance [Mul α] : Mul (Extended α) := ⟨combine (· * ·)⟩

instance [Div α] [Zero α] [DecidableEq α] : Div (Extended α) :=
  ⟨fun u v => if v = 0 then notANumber else combine (· / ·) u v⟩

instance [LT α] : LT (Extended α) := ⟨Compare (· < ·)⟩

instance [LE α] : LE (Extended α) := ⟨Compare (· ≤ ·)⟩

instance [LT α] [DecidableLT α] : DecidableLT (Extended α) :=
  inferInstanceAs (DecidableRel (Compare (· < ·)))

instance [LE α] [DecidableLE α] : DecidableLE (Extended α) :=
  inferInstanceAs (DecidableRel (Compare (· ≤ ·)))

instance [Scalar α] : Scalar (Extended α) where
  sqrt := map Scalar.sqrt
  isFinite v := match v with
    | number _ => true
    | notANumber => false

@[simp] theorem number_lt_number [LT α] (u v : α) : number u < number v ↔ u < v := Iff.rfl

@[simp] theorem number_le_number [LE α] (u v : α) : number u ≤ number v ↔ u ≤ v := Iff.rfl

@[simp] theorem not_notANumber_lt [LT α] (v : Extended α) : ¬ notANumber < v := id

@[simp] theorem not_notANumber_le [LE α] (v : Extended α) : ¬ notANumber ≤ v := id

@[simp] theorem not_lt_notANumber [LT α] (v : Extended α) : ¬ v < notANumber := by
  cases v <;> exact id

@[simp] theorem not_le_notANumber [LE α] (v : Extended α) : ¬ v ≤ notANumber := by
  cases v <;> exact id

@[simp] theorem neg_number [Neg α] (v : α) : -number v = number (-v) := rfl

@[simp] theorem neg_notANumber [Neg α] : -(notANumber : Extended α) = notANumber := rfl

@[simp] theorem number_sub_number [Sub α] (u v : α) : number u - number v = number (u - v) := rfl

@[simp] theorem notANumber_sub [Sub α] (v : Extended α) : notANumber - v = notANumber := rfl

@[simp] theorem notANumber_add [Add α] (v : Extended α) : notANumber + v = notANumber := rfl

@[simp] theorem add_notANumber [Add α] (v : Extended α) : v + notANumber = notANumber := by
  cases v <;> rfl

@[simp] theorem notANumber_mul [Mul α] (v : Extended α) : notANumber * v = notANumber := rfl

@[simp] theorem mul_notANumber [Mul α] (v : Extended α) : v * notANumber = notANumber := by
  cases v <;> rfl

theorem zero_eq [Zero α] : (0 : Extended α) = number 0 := rfl

theorem one_eq [One α] : (1 : Extended α) = number 1 := rfl

theorem le_self_iff [LE α] (hrefl : ∀ v : α, v ≤ v) (v : Extended α) :
    v ≤ v ↔ v ≠ notANumber := by
  cases v <;> simp [hrefl]

end Extended

end BoundedFit
