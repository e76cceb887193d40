import BoundedFit.Decimal.Text
import BoundedFit.Solver.Basic

/-!
# Derivative checks

A reported derivative is compared with central differences, column by column.
-/

namespace BoundedFit

/-- A reported derivative beside the central differences of the residual, with the discrepancy as a
whole, for each coordinate and for each residual. -/
structure DerivativeCheck (α : Type) where
  analytic : DenseMatrix α
  numerical : DenseMatrix α
  error : α
  columnErrors : List α
  rowErrors : List α

section Differences

variable {α σ : Type} [Add α] [Sub α] [Div α] [OfScientific α]

/-- Half the distance between the two points of a central difference. -/
def derivativeStep : α := 1e-6

def residualAt (problem : Problem α σ) (x : Tensor α) (state : σ) :
    Except (Fault α) (List α × σ) :=
  (problem.evaluate x state).map fun state => (problem.residual state, state)

/-- A column as it is written into a matrix: a single value fills the whole column. -/
def fitColumn (height : Nat) (column : List α) : Except (Fault α) (List α) :=
  if column.length = height then .ok column
  else
    match column with
    | [v] => .ok (List.replicate height v)
    | _ => .error .lengths

/-- The point with its coordinate `j`, or all that it has there, changed. -/
def movedAt (x : Tensor α) (j : Nat) (f : α → α) : Except (Fault α) (Tensor α) :=
  match x.mapRow? j f with
  | some x => .ok x
  | none => .error (.noRow x j)

/-- Two residuals, a small step up and a small step down, over the distance between them. -/
def centralDifference (problem : Problem α σ) (x : Tensor α) (height j : Nat) (state : σ) :
    Except (Fault α) (List α × σ) := do
  let (plus, state) ← residualAt problem (← movedAt x j (· + derivativeStep)) state
  let (minus, state) ← residualAt problem (← movedAt x j (· - derivativeStep)) state
  match Vec.zipStretched? (· - ·) plus minus with
  | none => throw .lengths
  | some difference =>
    let column ← fitColumn height (difference.map (· / (derivativeStep + derivativeStep)))
    return (column, state)

def centralDifferences (problem : Problem α σ) (x : Tensor α) (height : Nat) :
    List Nat → σ → Except (Fault α) (List (List α))
  | [], _ => .ok []
  | j :: rest, state => do
    let (column, state) ← centralDifference problem x height j state
    let columns ← centralDifferences problem x height rest state
    return column :: columns

end Differences

section Check

variable {α σ : Type} [Add α] [Sub α] [Mul α] [Div α] [Zero α] [OfScientific α] [Scalar α]

def DenseMatrix.ofColumns (height : Nat) (columns : List (List α)) : DenseMatrix α :=
  .ofFn height columns.length fun i j => (columns.getD j []).getD i 0

/-- What separates the two, as a whole, by columns and by rows. -/
def DerivativeCheck.compare (analytic numerical : DenseMatrix α) : DerivativeCheck α :=
  let difference : DenseMatrix α := .ofFn analytic.height analytic.cols fun i j =>
    (numerical.rows.getD i []).getD j 0 - (analytic.rows.getD i []).getD j 0
  { analytic
    numerical
    error := Vec.norm difference.rows.flatten
    columnErrors := difference.columns.map Vec.norm
    rowErrors := difference.rows.map Vec.norm }

/-- Checks the derivative at a point, in a state of its own. -/
def Problem.checkDerivative (problem : Problem α σ) (x : Tensor α) :
    Except (Fault α) (DerivativeCheck α) := do
  let state ← problem.evaluate x problem.fresh
  let analytic := problem.jacobian state
  let columns ←
    centralDifferences problem x analytic.height (List.range analytic.cols) state
  return .compare analytic (.ofColumns analytic.height columns)

/-- Whether the discrepancy is small relative to the derivative, or to one if that is larger. -/
def DerivativeCheck.isAccurate [One α] [LT α] [LE α] [DecidableLT α] [DecidableLE α]
    (check : DerivativeCheck α) (tolerance : α) : Bool :=
  let norm := Vec.norm check.analytic.rows.flatten
  check.error ≤ tolerance * (if 1 < norm then norm else 1)

def DerivativeCheck.standardTolerance : α := 1e-4

end Check

def DerivativeCheck.precision : Nat := 6

/-- The report of a check: the whole discrepancy, then each column, then each row. -/
def DerivativeCheck.report (check : DerivativeCheck Float) : List String :=
  let line (name : String) (v : Float × Nat) : String :=
    "  " ++ name ++ " " ++ toString v.2 ++ " error = " ++ generalText precision v.1
  ("Derivative error = " ++ generalText precision check.error) ::
    (check.columnErrors.zipIdx.map (line "Col") ++ check.rowErrors.zipIdx.map (line "Row"))

end BoundedFit
