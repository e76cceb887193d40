import BoundedFit.Fault.Basic
import BoundedFit.Linear.Tensor.Basic

/-! # Points and bounds -/

namespace BoundedFit

def coordinate {α : Type} (x : List α) (i : Nat) : Except (Fault α) α :=
  match x[i]? with
  | some v => .ok v
  | none => .error (.noPosition i)

def theOne {α : Type} (t : Tensor α) : Except (Fault α) α :=
  match t.entries with
  | [v] => .ok v
  | [] => .error .unanswered
  | _ => .error .ambiguous

namespace Bound

variable {α : Type}

/-- A bound from an unchecked sign and index; the sign is checked first. -/
def make (index : Int) (value : α) (sign : Int) : Except (Fault α) (Bound α) :=
  match Side.ofSign? sign with
  | none => .error (.invalidSign sign)
  | some side =>
    if index < 0 then .error (.negativeIndex index) else .ok ⟨index.toNat, value, side⟩

def lower (index : Int) (value : α) : Except (Fault α) (Bound α) := make index value Side.lower.sign

def upper (index : Int) (value : α) : Except (Fault α) (Bound α) := make index value Side.upper.sign

variable [Sub α] [Neg α]

/-- The slack of a point whose coordinate is `v`. -/
def gap (b : Bound α) (v : α) : α := b.side.orient (v - b.value)

/-- The signed distance of the coordinate from the value, negative outside. -/
def slack (b : Bound α) (x : List α) : Except (Fault α) α := (coordinate x b.index).map b.gap

/-- How far outside a slack lies: zero unless the slack is negative. -/
def excess [Zero α] [LT α] [DecidableLT α] (slack : α) : α := if 0 < -slack then -slack else 0

def violation [Zero α] [LT α] [DecidableLT α] (b : Bound α) (x : List α) : Except (Fault α) α :=
  (b.slack x).map excess

/-- A value that is no number satisfies nothing. -/
def isSatisfied [LE α] [DecidableLE α] (b : Bound α) (x : List α) (tolerance : α) :
    Except (Fault α) Bool :=
  (b.slack x).map fun slack => -tolerance ≤ slack

end Bound

section Limits

variable {α : Type} [Scalar α]

/-- One bound for each finite limit, by increasing coordinate. -/
def boundsOnSide (side : Side) (limits : List α) : List (Bound α) :=
  (limits.zipIdx.filter fun (value, _) => Scalar.isFinite value).map
    fun (value, index) => ⟨index, value, side⟩

/-- The limit in a row of an array that is no vector. A finite entry of a row is no number. -/
def limitOfRow (v : α) : Except (Fault α) α :=
  if Scalar.isFinite v then .error .notScalar else .ok v

/-- The limits of one side; a single number counts as an array of length one. A row has to have one
entry. -/
def limitEntries : Option (Tensor α) → Except (Fault α) (List α)
  | none => .ok []
  | some limits =>
    match limits.shape with
    | [] | [_] => .ok limits.entries
    | 0 :: _ => .ok []
    | _ :: inner =>
      match volume inner with
      | 0 => .error .unanswered
      | 1 => limits.entries.mapM limitOfRow
      | _ => .error .ambiguous

/-- The shape of an array of limits, where a single number has the shape of an array of length
one. -/
def limitShape (limits : Tensor α) : List Nat := if limits.rank = 0 then [1] else limits.shape

/-- The lower bounds, then the upper bounds. Infinite limits bound nothing. -/
def boundsOfLimits (lower upper : Option (Tensor α)) : Except (Fault α) (List (Bound α)) := do
  if let (some l, some u) := (lower, upper) then
    if limitShape l ≠ limitShape u then throw .limitLengths
  let below ← limitEntries lower
  let above ← limitEntries upper
  return boundsOnSide .lower below ++ boundsOnSide .upper above

end Limits

end BoundedFit
