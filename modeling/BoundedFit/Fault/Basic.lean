import BoundedFit.Bound.Basic
import BoundedFit.Word

/-!
# What can go wrong

A problem may report a fault of its own.
-/

namespace BoundedFit

/-- A failed computation that is reported with a message of its own. -/
inductive Failure (α : Type) where
  | singular (message : String)
  | infeasible (message : String)
  /-- The point about to be returned lies outside `bound` by `amount`. -/
  | violation (message : String) (bound : Bound α) (amount : α)

inductive Fault.Kind where
  | argument
  | index
  | missing
  /-- The value has the wrong form. -/
  | form
  | overflow
  | memory
  | singular
  | infeasible
  | violation
  deriving DecidableEq, Repr

/-- Every refusal of the library, one constructor for each cause. -/
inductive Fault (α : Type) where
  | invalidSign (sign : Int)
  | negativeIndex (index : Int)
  | limitLengths
  /-- A bound to be taken out of a set that lacks it. -/
  | notActive (bound : Bound α)
  | negativeSize
  | sizeLimit
  /-- An array of `size` bytes that cannot be stored. -/
  | outOfMemory (size : Nat)
  | noCoordinate
  /-- An index that only fits into an unsigned word. -/
  | wordOverflow
  /-- An index that is no word at all. -/
  | indexForm
  | rankZero
  | scalarIndex
  | noAxis
  | lengths
  /-- Several values where a question has to have one answer. -/
  | ambiguous
  /-- No value where a question has to have an answer. -/
  | unanswered
  | notScalar
  | jacobianRank
  | residualLength
  | maskLength
  | negativeDamping (damping : α)
  /-- The matrix of a step has a pivot that is not positive. -/
  | notDefinite
  /-- The matrix or the right-hand side of a step has an entry that is not finite. -/
  | notFinite
  | stateResidualRank
  | stateJacobianRank
  | stateRows (shape : List Nat) (rows : Nat)
  | targetLength
  | pointShape (shape : List Nat) (expected : Int)
  | foreignLinearState
  | foreignFunctionState
  | negativeCap (cap : Int)
  | guessRank
  /-- A bound on a coordinate beyond the end of the guess. -/
  | guessLength (index length : Nat)
  | infeasible (index : Nat) (atLeast atMost : α)
  | violated (bound : Bound α) (amount : α)
  /-- A failure that a problem reports in its own words. -/
  | reported (kind : Fault.Kind) (text : Option String)

namespace Fault

def kind {α : Type} : Fault α → Kind
  | notActive _ => .missing
  | noCoordinate | indexForm | rankZero | scalarIndex | noAxis => .index
  | notScalar | foreignLinearState | foreignFunctionState => .form
  | notDefinite | notFinite => .singular
  | infeasible .. => .infeasible
  | violated .. => .violation
  | wordOverflow => .overflow
  | outOfMemory _ => .memory
  | reported kind _ => kind
  | invalidSign _ | negativeIndex _ | limitLengths | negativeSize | sizeLimit | lengths | ambiguous
  | unanswered | jacobianRank | residualLength | maskLength | negativeDamping _
  | stateResidualRank | stateJacobianRank | stateRows .. | targetLength | pointShape ..
  | negativeCap _ | guessRank | guessLength .. => .argument

def map {α β : Type} (f : α → β) : Fault α → Fault β
  | invalidSign sign => .invalidSign sign
  | negativeIndex index => .negativeIndex index
  | limitLengths => .limitLengths
  | notActive bound => .notActive (bound.map f)
  | negativeSize => .negativeSize
  | sizeLimit => .sizeLimit
  | outOfMemory size => .outOfMemory size
  | noCoordinate => .noCoordinate
  | wordOverflow => .wordOverflow
  | indexForm => .indexForm
  | rankZero => .rankZero
  | scalarIndex => .scalarIndex
  | noAxis => .noAxis
  | lengths => .lengths
  | ambiguous => .ambiguous
  | unanswered => .unanswered
  | notScalar => .notScalar
  | jacobianRank => .jacobianRank
  | residualLength => .residualLength
  | maskLength => .maskLength
  | negativeDamping damping => .negativeDamping (f damping)
  | notDefinite => .notDefinite
  | notFinite => .notFinite
  | stateResidualRank => .stateResidualRank
  | stateJacobianRank => .stateJacobianRank
  | stateRows shape rows => .stateRows shape rows
  | targetLength => .targetLength
  | pointShape shape expected => .pointShape shape expected
  | foreignLinearState => .foreignLinearState
  | foreignFunctionState => .foreignFunctionState
  | negativeCap cap => .negativeCap cap
  | guessRank => .guessRank
  | guessLength index length => .guessLength index length
  | infeasible index atLeast atMost => .infeasible index (f atLeast) (f atMost)
  | violated bound amount => .violated (bound.map f) (f amount)
  | reported kind text => .reported kind text

/-- An index beyond the end, which may be too large for a word. -/
def noPosition {α : Type} (i : Int) : Fault α :=
  if Word.isSigned i then .noCoordinate
  else if Word.isUnsigned i then .wordOverflow
  else .indexForm

end Fault

def Failure.kind {α : Type} : Failure α → Fault.Kind
  | singular _ => .singular
  | infeasible _ => .infeasible
  | violation .. => .violation

end BoundedFit
