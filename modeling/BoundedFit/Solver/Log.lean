import BoundedFit.Decimal.Text
import BoundedFit.Solver.Result

/-! # The log of a run -/

namespace BoundedFit

/-- What a verbose run reports. -/
inductive Event (α : Type) where
  | started (active : Nat)
  | projecting (index : Nat) (scale : α)
  /-- A step was taken; `active` counts the pinned bounds after it, `hit` is the coordinate of the
  bound it stopped on. -/
  | stepped (iteration : Nat) (error : α) (best : Option α) (active : Nat) (hit : Option Nat)
  | converged (iteration : Nat) (error : α)
  | completed (best : Option α)

section Events

variable {α : Type}

def blockEvents : Option (Block α) → List (Event α)
  | none => []
  | some block => [.projecting block.bound.index block.scale]

variable [Zero α] [LT α] [DecidableLT α] [Scalar α]

/-- The events from an iteration on, given the best error before it. -/
def Trace.events (iteration : Nat) (best : Option α) : Trace α → List (Event α)
  | .unevaluated .. => []
  | .stuck _ _ block _ => blockEvents block
  | .settled _ error => [.converged iteration error]
  | .exhausted _ error => [.completed (leastError best error)]
  | .moved _ error block rest =>
    blockEvents block ++
      .stepped iteration error (leastError best error) rest.head.active.size
        (block.map (·.bound.index)) ::
      rest.events (iteration + 1) (leastError best error)

end Events

/-- What a caller sees of a run: the points handed to the problem, the log and the outcome. -/
structure Run (α : Type) where
  points : List (List α)
  log : List (Event α)
  outcome : Except (Fault α) (Result α)

namespace Solver

variable {α σ : Type} [Add α] [Sub α] [Mul α] [Div α] [Neg α] [Zero α] [One α]
  [LT α] [LE α] [DecidableLT α] [DecidableLE α] [OfScientific α] [Scalar α]

/-- The log is read off the trace, so it never changes a result. -/
def run (solver : Solver α σ) (guess : Tensor α) : Run α :=
  match solver.start guess with
  | .error fault => ⟨[], [], .error fault⟩
  | .ok here =>
    let t := solver.traceFrom here
    let log := if solver.verbose then .started here.active.size :: t.events 1 none else []
    ⟨t.points, log, solver.conclude here.point t⟩

theorem outcome_run (solver : Solver α σ) (guess : Tensor α) :
    (solver.run guess).outcome = solver.optimize guess := by
  simp only [run, optimize]
  cases solver.start guess <;> rfl

end Solver

/-! ## Text -/

/-- How the parts of a log are written that differ between runs of the same problem. -/
structure LogStyle where
  scale : Float → String
  /-- The milliseconds that passed. -/
  elapsed : String

namespace Event

def errorPrecision : Nat := 6

def settledPrecision : Nat := 3

/-- A best error; without one, infinity. -/
def bestText : Option Float → String
  | none => "inf"
  | some best => generalText errorPrecision best

/-- With at least two digits. -/
def iterationText (iteration : Nat) : String :=
  if iteration < 10 then "0" ++ toString iteration else toString iteration

def text (style : LogStyle) : Event Float → String
  | started active => "  Starting solver with " ++ toString active ++ " active constraint(s)"
  | projecting index scale =>
    "    Projecting onto bound on x[" ++ toString index ++ "]: min_scale=" ++ style.scale scale
  | stepped iteration error best active hit =>
    let blocked := match hit with
      | none => ""
      | some index => "; hit bound on x[" ++ toString index ++ "]"
    "  " ++ iterationText iteration ++ " error=" ++ generalText errorPrecision error ++
      ", best=" ++ bestText best ++ ", " ++ toString active ++ " active" ++ blocked ++
      "; step calculated in " ++ style.elapsed ++ " ms"
  | converged iteration error =>
    "  " ++ iterationText iteration ++ " Converged with error " ++
      generalText settledPrecision error
  | completed best =>
    "  Solver completed in " ++ style.elapsed ++ " ms with error " ++ bestText best

end Event

end BoundedFit
