import BoundedFit.Solver.Result

/-! # Convergence charts -/

namespace BoundedFit

inductive Marker where
  | circle
  | unmarked
  deriving DecidableEq, Repr

inductive Joining where
  | straight
  /-- Level until the next point, then up or down. -/
  | staircase
  deriving DecidableEq, Repr

structure Series (α : Type) where
  label : String
  marker : Marker
  joining : Joining
  points : List (Nat × Option α)

inductive AxisScale where
  | logarithmic
  deriving DecidableEq, Repr

/-- What is put on the axes, not how it is drawn. -/
structure Chart (α : Type) where
  horizontal : String
  vertical : String
  verticalScale : AxisScale
  series : List (Series α)

def Chart.legend {α : Type} (chart : Chart α) : List String := chart.series.map Series.label

/-- Numbers the values from one on. -/
def numbered {β : Type} (values : List β) : List (Nat × β) :=
  values.zipIdx.map fun (v, i) => (i + 1, v)

/-- The errors against the number of the evaluation, with the least error so far as a staircase. -/
def Result.chart {α : Type} (result : Result α) : Chart α where
  horizontal := "Evaluation"
  vertical := "Sum of Squared Residuals"
  verticalScale := .logarithmic
  series :=
    [⟨"Error", .circle, .straight, numbered (result.errors.map some)⟩,
      ⟨"Best error", .unmarked, .staircase, numbered result.bestErrors⟩]

end BoundedFit
