import BoundedFit.Bound.Array
import BoundedFit.Problem.Basic

/-! # Solvers -/

namespace BoundedFit

/-- The wishes of a caller, unchecked. -/
structure Settings (α : Type) where
  damping : α
  maxIterations : Int
  verbose : Bool

def Settings.standard {α : Type} [One α] : Settings α := ⟨1, 100, false⟩

/-- A problem with bounds, a damping and an iteration cap, all of them checked by `make`. -/
structure Solver (α σ : Type) where
  problem : Problem α σ
  bounds : List (Bound α)
  damping : α
  maxIterations : Nat
  verbose : Bool

/-! ## Bounds that exclude each other -/

section Consistency

variable {α : Type} [LT α] [LE α] [DecidableLT α] [DecidableLE α]

/-- The value that none of the others improves on, the first among equals. A value that compares
with nothing is passed over. -/
def extreme? (improves : α → α → Bool) (values : List α) : Option α :=
  values.foldl (fun best v =>
    match best with
    | none => if Scalar.isComparable v then some v else none
    | some b => if improves v b then some v else some b) none

def valuesOn (bounds : List (Bound α)) (side : Side) (index : Nat) : List α :=
  (bounds.filter fun b => b.side == side && b.index == index).map Bound.value

def highestLower? (bounds : List (Bound α)) (index : Nat) : Option α :=
  extreme? (fun v best => best < v) (valuesOn bounds .lower index)

def lowestUpper? (bounds : List (Bound α)) (index : Nat) : Option α :=
  extreme? (fun v best => v < best) (valuesOn bounds .upper index)

/-- A lower bound above an upper bound of the same coordinate. -/
def conflict? (bounds : List (Bound α)) (index : Nat) : Option (Fault α) :=
  match highestLower? bounds index, lowestUpper? bounds index with
  | some low, some high => if high < low then some (.infeasible index low high) else none
  | _, _ => none

/-- Of several conflicts the one that comes first in the list is named; nothing else depends on that
order. -/
def checkConsistent (bounds : List (Bound α)) : Except (Fault α) Unit :=
  match bounds.findSome? fun b => conflict? bounds b.index with
  | some fault => .error fault
  | none => .ok ()

end Consistency

namespace Solver

variable {α σ : Type}

/-- A damping that compares with nothing is refused as well. -/
def checkDamping [Zero α] [LE α] [DecidableLE α] (damping : α) : Except (Fault α) α :=
  if 0 ≤ damping then .ok damping else .error (.negativeDamping damping)

def checkCap (cap : Int) : Except (Fault α) Nat :=
  if cap < 0 then .error (.negativeCap cap) else .ok cap.toNat

/-- Checks the settings first, then the bounds. -/
def make [Zero α] [LT α] [LE α] [DecidableLT α] [DecidableLE α] (problem : Problem α σ)
    (bounds : List (Bound α)) (settings : Settings α) : Except (Fault α) (Solver α σ) := do
  let damping ← checkDamping settings.damping
  let maxIterations ← checkCap settings.maxIterations
  checkConsistent bounds
  return ⟨problem, bounds, damping, maxIterations, settings.verbose⟩

def withDamping [Zero α] [LE α] [DecidableLE α] (solver : Solver α σ) (damping : α) :
    Except (Fault α) (Solver α σ) :=
  (checkDamping damping).map fun damping => { solver with damping }

def withMaxIterations (solver : Solver α σ) (cap : Int) : Except (Fault α) (Solver α σ) :=
  (checkCap cap).map fun maxIterations => { solver with maxIterations }

end Solver

/-- Whether every bound holds at a point; the first one that does not hold decides. -/
def isFeasible {α : Type} [Sub α] [Neg α] [LE α] [DecidableLE α] (bounds : List (Bound α))
    (x : Tensor α) (tolerance : α) : Except (Fault α) Bool :=
  bounds.allM fun b => b.isSatisfiedAt x tolerance

theorem isFeasible_ofVector {α : Type} [Sub α] [Neg α] [LE α] [DecidableLE α]
    (bounds : List (Bound α)) (x : List α) (tolerance : α) :
    isFeasible bounds (.ofVector x) tolerance =
      bounds.allM fun b => b.isSatisfied x tolerance := by
  simp only [isFeasible, Bound.isSatisfiedAt_ofVector]

end BoundedFit
