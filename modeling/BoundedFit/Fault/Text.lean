import BoundedFit.Bound.Text
import BoundedFit.Decimal.Bytes
import BoundedFit.Fault.Basic
import BoundedFit.Linear.Tensor.Basic

/-! # The text of a fault -/

namespace BoundedFit

/-- Digits shown for a value of a bound and for the amount of a violation. -/
def Failure.precision : Nat := 3

def Failure.message {α : Type} : Failure α → String
  | singular message | infeasible message | violation message _ _ => message

/-- The message, and for a violation the bound and the amount. -/
def Failure.text : Failure Float → String
  | singular message | infeasible message => message
  | violation message bound amount =>
    message ++ " (x[" ++ toString bound.index ++ "] violates bound " ++
      generalText precision bound.value ++ " by " ++ generalText precision amount ++ ")"

namespace Fault

/-- An index beyond the end of an array and lengths that do not fit together have no text. -/
def text? : Fault Float → Option String
  | invalidSign sign => some ("sign must be +1 or -1, not " ++ toString sign ++ ".")
  | negativeIndex index => some ("index must be non-negative, not " ++ toString index ++ ".")
  | limitLengths => some "lb and ub must have the same length."
  | notActive bound => some bound.text
  | negativeSize => some "negative dimensions are not allowed"
  | sizeLimit => some "Maximum allowed dimension exceeded"
  | outOfMemory size =>
    some ("Unable to allocate " ++ Bytes.text size ++ " for an array with shape " ++
      Tensor.shapeText [size] ++ " and data type bool")
  | noCoordinate => none
  | wordOverflow => some "Python int too large to convert to C long"
  | indexForm =>
    some ("only integers, slices (`:`), ellipsis (`...`), numpy.newaxis (`None`) and integer or " ++
      "boolean arrays are valid indices")
  | rankZero => some "too many indices for array: array is 0-dimensional, but 1 were indexed"
  | scalarIndex => some "invalid index to scalar variable."
  | noAxis => some "tuple index out of range"
  | lengths => none
  | ambiguous =>
    some ("The truth value of an array with more than one element is ambiguous. " ++
      "Use a.any() or a.all()")
  | unanswered =>
    some ("The truth value of an empty array is ambiguous. " ++
      "Use `array.size > 0` to check that an array is not empty.")
  | notScalar => some "only 0-dimensional arrays can be converted to Python scalars"
  | jacobianRank => some "J must be a 2D NumPy array."
  | residualLength => some "r must be a vector with one entry per row of J."
  | maskLength => some "free must have one entry for each column of J."
  | negativeDamping damping =>
    some ("damping must be non-negative, not " ++ shortestText damping ++ ".")
  | notDefinite => some "Normal equations are not positive definite; increase damping."
  | notFinite => some "Normal equations contain non-finite values."
  | stateResidualRank => some "residual must be a 1D NumPy array."
  | stateJacobianRank => some "jacobian must be a 2D NumPy array."
  | stateRows shape rows =>
    some ("Dimension mismatch: jacobian.shape=" ++ Tensor.shapeText shape ++ "; expected " ++
      toString rows ++ " rows.")
  | targetLength => some "b must have one entry for each row of A."
  | pointShape shape expected =>
    some ("Dimension mismatch: x.shape=" ++ Tensor.shapeText shape ++ "; expected (" ++
      toString expected ++ ",).")
  | foreignLinearState => some "LinearProblem requires a DenseEvaluationState."
  | foreignFunctionState => some "FunctionProblem requires a DenseEvaluationState."
  | negativeCap cap => some ("max_iterations must be non-negative, not " ++ toString cap ++ ".")
  | guessRank => some "x0 must be a 1D NumPy array."
  | guessLength index length =>
    some ("Constraint on x[" ++ toString index ++ "] but x0 has length " ++ toString length ++ ".")
  | infeasible index atLeast atMost =>
    some ("x[" ++ toString index ++ "] must be at least " ++
      generalText Failure.precision atLeast ++ " and at most " ++
      generalText Failure.precision atMost ++ ".")
  | violated bound amount =>
    some (Failure.violation "Solver produced an infeasible point." bound amount).text
  | reported _ text => text

end Fault

end BoundedFit
