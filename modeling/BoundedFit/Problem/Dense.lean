import BoundedFit.Bound.Slack
import BoundedFit.Problem.Basic
import BoundedFit.State

/-! # Problems with dense states -/

namespace BoundedFit

/-- The state offered to a problem: its own kind, or the state of some other kind of problem. -/
inductive OfferedState (α : Type) where
  | dense (state : DenseState α)
  | foreign

/-- A problem that is evaluated into dense states, as the solver sees it. -/
def Problem.ofDense {α : Type} [Add α] [Sub α] [Mul α] [Div α] [Neg α] [Zero α] [One α]
    [LT α] [DecidableLT α] [Scalar α]
    (evaluate : Tensor α → DenseState α → Except (Fault α) (DenseState α)) :
    Problem α (DenseState α) where
  fresh := DenseState.empty
  evaluate := evaluate
  error := DenseState.error
  residual := DenseState.residual
  jacobian := DenseState.jacobian
  step damping active state :=
    let (delta, rest) := state.step damping active
    ⟨delta, rest, state⟩

/-! ## Linear problems -/

/-- Residual `A x - b`. -/
structure LinearProblem (α : Type) where
  matrix : DenseMatrix α
  target : List α
  length_target : target.length = matrix.height

namespace LinearProblem

variable {α : Type}

def ofArrays (A b : Tensor α) : Except (Fault α) (LinearProblem α) :=
  match A.toMatrix?, b.toVector? with
  | some A, some b => if h : b.length = A.height then .ok ⟨A, b, h⟩ else .error .targetLength
  | _, _ => .error .targetLength

def numVariables (p : LinearProblem α) : Nat := p.matrix.cols

variable [Add α] [Sub α] [Mul α] [Zero α]

def residual (p : LinearProblem α) (x : List α) : List α :=
  List.zipWith (· - ·) (p.matrix.mulVec x) p.target

/-- Why a point that is no vector is refused. A stack of columns that fits the matrix, and whose
product fits the target, is refused only as a residual. -/
def refusal (p : LinearProblem α) (shape : List Nat) : Fault α :=
  match shape.reverse with
  | width :: n :: _ =>
    let rows := p.matrix.height
    if n = p.numVariables ∧ (width = rows ∨ width = 1 ∨ rows = 1) then .stateResidualRank
    else .lengths
  | _ => .lengths

/-- The state at a point; the state before does not matter. -/
def evaluate (p : LinearProblem α) (x : Tensor α) (_ : DenseState α) :
    Except (Fault α) (DenseState α) :=
  match x.toVector? with
  | some v => if v.length = p.numVariables then .ok ⟨p.residual v, p.matrix⟩ else .error .lengths
  | none => .error (p.refusal x.shape)

/-- As `evaluate`, for a state of unchecked kind. -/
def evaluateIn (p : LinearProblem α) (x : Tensor α) :
    OfferedState α → Except (Fault α) (DenseState α)
  | .foreign => .error .foreignLinearState
  | .dense state => p.evaluate x state

def toProblem [Div α] [Neg α] [One α] [LT α] [DecidableLT α] [Scalar α] (p : LinearProblem α) :
    Problem α (DenseState α) := .ofDense p.evaluate

end LinearProblem

/-! ## Function problems -/

/-- Residual and derivative come from two functions. -/
structure FunctionProblem (α : Type) where
  residual : Tensor α → Except (Fault α) (Tensor α)
  jacobian : Tensor α → Except (Fault α) (Tensor α)
  /-- If given, all points but the vectors of this length are refused. -/
  numVariables : Option Int

namespace FunctionProblem

variable {α : Type}

/-- Only a problem that was given its number of variables looks at the shape of a point. -/
def checkShape (p : FunctionProblem α) (shape : List Nat) : Except (Fault α) Unit :=
  match p.numVariables with
  | none => .ok ()
  | some n => if shape.map Int.ofNat = [n] then .ok () else .error (.pointShape shape n)

/-- The state at a point; the residual is asked for first. -/
def evaluate (p : FunctionProblem α) (x : Tensor α) (_ : DenseState α) :
    Except (Fault α) (DenseState α) := do
  p.checkShape x.shape
  let residual ← p.residual x
  let jacobian ← p.jacobian x
  DenseState.ofArrays residual jacobian

/-- As `evaluate`, for a state of unchecked kind. -/
def evaluateIn (p : FunctionProblem α) (x : Tensor α) :
    OfferedState α → Except (Fault α) (DenseState α)
  | .foreign => .error .foreignFunctionState
  | .dense state => p.evaluate x state

def toProblem [Add α] [Sub α] [Mul α] [Div α] [Neg α] [Zero α] [One α] [LT α] [DecidableLT α]
    [Scalar α] (p : FunctionProblem α) : Problem α (DenseState α) := .ofDense p.evaluate

end FunctionProblem

end BoundedFit
