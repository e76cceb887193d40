import BoundedFit.Solver.Trace

/-!
# Results

The best point is the first one with the least error.
-/

namespace BoundedFit

inductive Status where
  | converged
  | capReached
  deriving DecidableEq, Repr

namespace Status

def code : Status → Nat
  | converged => 0
  | capReached => 1

def message : Status → String
  | converged => "Solver converged to the desired tolerance."
  | capReached => "Solver reached the iteration limit; returning the best point found."

end Status

/-- The best point so far, and its error unless none was below infinity. -/
structure Best (α : Type) where
  point : List α
  error : Option α

/-- The best point of a run, with what led there. -/
structure Result (α : Type) where
  solution : List α
  /-- The error at the solution, unless none was below infinity. -/
  error : Option α
  errors : List α
  /-- After each evaluation, the least error so far. -/
  bestErrors : List (Option α)
  iterations : Nat
  active : List (Bound α)
  status : Status

section Best

variable {α : Type} [Zero α] [LT α] [DecidableLT α] [Scalar α]

/-- What is no number improves on nothing, and the first error has to be below infinity. -/
def improves (error : α) : Option α → Bool
  | none => Scalar.isFinite error || error < 0
  | some best => error < best

def leastError (best : Option α) (error : α) : Option α :=
  if improves error best then some error else best

def Best.update (best : Best α) (visit : List α × α) : Best α :=
  if improves visit.2 best.error then ⟨visit.1, some visit.2⟩ else best

/-- The least error after each of the errors. -/
def runningLeast (best : Option α) : List α → List (Option α)
  | [] => []
  | e :: rest => leastError best e :: runningLeast (leastError best e) rest

end Best

/-- A bound may be violated by this much, relative to one more than its size. -/
def feasibilityTolerance {α : Type} [OfScientific α] : α := 1e-9

def isConverged {α : Type} [LT α] [DecidableLT α] [OfScientific α] : Option α → Bool
  | none => false
  | some error => error < Solver.convergenceTolerance

section Feasibility

variable {α : Type} [Add α] [Sub α] [Mul α] [Neg α] [Zero α] [One α]
  [LT α] [DecidableLT α] [OfScientific α]

/-- Refuses a point that lies outside the bound by more than the tolerance. -/
def Bound.accept (b : Bound α) (x : List α) : Except (Fault α) Unit := do
  let amount ← b.violation x
  if feasibilityTolerance * (1 + Scalar.abs b.value) < amount then throw (.violated b amount)

/-- The first bound that is violated by more than its tolerance is reported. -/
def acceptAll (bounds : List (Bound α)) (x : List α) : Except (Fault α) Unit :=
  bounds.forM fun b => b.accept x

end Feasibility

namespace Solver

variable {α σ : Type} [Add α] [Sub α] [Mul α] [Div α] [Neg α] [Zero α] [One α]
  [LT α] [LE α] [DecidableLT α] [DecidableLE α] [OfScientific α] [Scalar α]

/-- The best of the visited points, starting with the clamped guess. -/
def best (guess : List α) (t : Trace α) : Best α := t.visits.foldl Best.update ⟨guess, none⟩

def summary (solver : Solver α σ) (guess : List α) (t : Trace α) : Result α where
  solution := (best guess t).point
  error := (best guess t).error
  errors := t.errors
  bestErrors := runningLeast none t.errors
  iterations := if t.isSettled then t.visits.length else solver.maxIterations
  active := t.final.active.toList
  status := if t.isSettled || isConverged (best guess t).error then .converged else .capReached

/-- The result of a trace, unless it broke off or its best point is outside a bound. -/
def conclude (solver : Solver α σ) (guess : List α) (t : Trace α) :
    Except (Fault α) (Result α) :=
  match t.fault? with
  | some fault => .error fault
  | none => do
    acceptAll solver.bounds (best guess t).point
    return solver.summary guess t

def traceFrom (solver : Solver α σ) (here : Iterate α) : Trace α :=
  solver.trace solver.maxIterations here solver.problem.fresh

def optimize (solver : Solver α σ) (guess : Tensor α) : Except (Fault α) (Result α) := do
  let here ← solver.start guess
  solver.conclude here.point (solver.traceFrom here)

def solve (solver : Solver α σ) (guess : Tensor α) : Except (Fault α) (List α) :=
  (solver.optimize guess).map Result.solution

end Solver

end BoundedFit
