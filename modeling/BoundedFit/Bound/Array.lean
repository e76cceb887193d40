import BoundedFit.Bound.Slack

/-!
# Bounds at points of any rank

At a vector these are `Bound.slack`, `Bound.violation` and `Bound.isSatisfied`.
-/

namespace BoundedFit

/-- An array of rank zero has no rows at all, but an index that is no word is refused for itself. -/
def Fault.noRow {α : Type} (x : Tensor α) (i : Int) : Fault α :=
  if x.rank = 0 ∧ Word.isSigned i then .rankZero else .noPosition i

/-- What a bound on coordinate `i` looks at, if the point is no vector. -/
def rowAt {α : Type} (x : Tensor α) (i : Nat) : Except (Fault α) (Tensor α) :=
  match x.row? i with
  | some row => .ok row
  | none => .error (.noRow x i)

theorem Fault.noRow_ofVector {α : Type} (x : List α) (i : Int) :
    Fault.noRow (.ofVector x) i = .noPosition i := by
  simp [noRow, Tensor.rank, Tensor.ofVector]

namespace Bound

variable {α : Type} [Sub α] [Neg α]

/-- The slack of each entry of the row that the bound looks at. -/
def slackAt (b : Bound α) (x : Tensor α) : Except (Fault α) (Tensor α) :=
  (rowAt x b.index).map fun row => row.map b.gap

/-- As `violation`, where a slack that violates nothing leaves the number zero. -/
def violationAt [Zero α] [LT α] [DecidableLT α] (b : Bound α) (x : Tensor α) :
    Except (Fault α) (Tensor α) := do
  let slack ← b.slackAt x
  let v ← theOne slack
  return if 0 < -v then slack.map (-·) else .scalar 0

/-- As `isSatisfied`; the row has to have exactly one entry. -/
def isSatisfiedAt [LE α] [DecidableLE α] (b : Bound α) (x : Tensor α) (tolerance : α) :
    Except (Fault α) Bool := do
  let slack ← b.slackAt x
  return decide (-tolerance ≤ (← theOne slack))

theorem slackAt_ofVector (b : Bound α) (x : List α) :
    b.slackAt (.ofVector x) = (b.slack x).map Tensor.scalar := by
  simp only [slackAt, rowAt, Tensor.row?_ofVector, Fault.noRow_ofVector, slack, coordinate]
  cases x[b.index]? <;> rfl

theorem violationAt_ofVector [Zero α] [LT α] [DecidableLT α] (b : Bound α) (x : List α) :
    b.violationAt (.ofVector x) = (b.violation x).map Tensor.scalar := by
  simp only [violationAt, violation, slackAt_ofVector]
  cases b.slack x with
  | error fault => rfl
  | ok v =>
    by_cases h : 0 < -v <;>
      simp [h, excess, theOne, Tensor.scalar, Tensor.map, Except.map, bind,
        Except.bind, pure, Except.pure]

theorem isSatisfiedAt_ofVector [LE α] [DecidableLE α] (b : Bound α) (x : List α) (tolerance : α) :
    b.isSatisfiedAt (.ofVector x) tolerance = b.isSatisfied x tolerance := by
  simp only [isSatisfiedAt, isSatisfied, slackAt_ofVector]
  cases b.slack x <;> rfl

end Bound

end BoundedFit
