import BoundedFit.Solver.Log

/-!
# Runs as they happen

In this order points are evaluated and events reported. What was reported before a failure stays
reported.
-/

namespace BoundedFit

/-- What has become visible of a run: the points handed to the problem so far, and the log. -/
structure Journal (α : Type) where
  points : List (List α)
  log : List (Event α)

def Journal.blank {α : Type} : Journal α := ⟨[], []⟩

/-- A part of a run. What it wrote into the journal stays there if it fails. -/
abbrev Recorded (α : Type) := ExceptT (Fault α) (StateM (Journal α))

/-- The outcome of a part of a run, and the journal after it. -/
def Recorded.runFrom {α β : Type} (part : Recorded α β) (journal : Journal α) :
    Except (Fault α) β × Journal α := part.run.run journal

/-- What a run remembers of its evaluations. -/
structure Ledger (α : Type) where
  best : Best α
  errors : List α
  bestErrors : List (Option α)

/-- Before the first evaluation the guess is the best point. -/
def Ledger.blank {α : Type} (guess : List α) : Ledger α := ⟨⟨guess, none⟩, [], []⟩

/-- Enters a point that was evaluated, with its error. -/
def Ledger.enter {α : Type} [Zero α] [LT α] [DecidableLT α] [Scalar α] (ledger : Ledger α)
    (x : List α) (error : α) : Ledger α :=
  let best := ledger.best.update (x, error)
  ⟨best, ledger.errors ++ [error], ledger.bestErrors ++ [best.error]⟩

namespace Solver

variable {α σ : Type}

/-- Only a verbose solver says anything. -/
def say (solver : Solver α σ) (event : Event α) : Recorded α Unit :=
  if solver.verbose then modify fun journal => { journal with log := journal.log ++ [event] }
  else pure ()

/-- A point is handed to the problem before it is known whether it can be evaluated. -/
def visit (solver : Solver α σ) (x : List α) (state : σ) : Recorded α (α × σ) := do
  modify fun journal => { journal with points := journal.points ++ [x] }
  solver.problem.errorAt x state

section Project

variable [Add α] [Sub α] [Mul α] [Div α] [Neg α] [Zero α] [One α]
  [LT α] [LE α] [DecidableLT α] [DecidableLE α] [OfScientific α]

/-- The bound on which the step stops, reported if there is one. -/
def project (solver : Solver α σ) (x delta : List α) (active : ActiveSet α) :
    Recorded α (Option (Block α)) := do
  let block ← closestBlock solver.bounds x delta active
  if let some stop := block then solver.say (.projecting stop.bound.index stop.scale)
  return block

/-- One step, with the bound that stops it. -/
def step (solver : Solver α σ) (here : Iterate α) (state : σ) :
    Recorded α (Option (Block α) × Iterate α × σ) := do
  let proposal := solver.problem.step solver.damping here.active state
  let delta ← proposal.delta
  let block ← solver.project here.point delta proposal.active
  let next ← Iterate.land ⟨here.point, proposal.active⟩ delta block
  return (block, next, proposal.state)

end Project

variable [Add α] [Sub α] [Mul α] [Div α] [Neg α] [Zero α] [One α]
  [LT α] [LE α] [DecidableLT α] [DecidableLE α] [OfScientific α] [Scalar α]

/-- Checks the best point and puts the result together. -/
def finish (solver : Solver α σ) (ledger : Ledger α) (iterations : Nat) (active : ActiveSet α)
    (status : Status) : Recorded α (Result α) := do
  acceptAll solver.bounds ledger.best.point
  return ⟨ledger.best.point, ledger.best.error, ledger.errors, ledger.bestErrors, iterations,
    active.toList, status⟩

/-- The run from an iterate on, after `done` iterations and with at most `n` more to come. -/
def proceed (solver : Solver α σ) (done : Nat) :
    Nat → Iterate α → σ → Ledger α → Recorded α (Result α)
  | 0, here, state, ledger => do
    let (error, _) ← solver.visit here.point state
    let ledger := ledger.enter here.point error
    solver.say (.completed ledger.best.error)
    let status := if isConverged ledger.best.error then .converged else .capReached
    solver.finish ledger solver.maxIterations here.active status
  | n + 1, here, state, ledger => do
    let (error, state) ← solver.visit here.point state
    let ledger := ledger.enter here.point error
    if error < convergenceTolerance then
      solver.say (.converged (done + 1) error)
      solver.finish ledger (done + 1) here.active .converged
    else
      let (block, next, state) ← solver.step here state
      solver.say (.stepped (done + 1) error ledger.best.error next.active.size
        (block.map (·.bound.index)))
      solver.proceed (done + 1) n next state ledger

/-- The run from a guess, which may be refused. -/
def record (solver : Solver α σ) (guess : Tensor α) : Recorded α (Result α) := do
  let here ← solver.start guess
  solver.say (.started here.active.size)
  solver.proceed 0 solver.maxIterations here solver.problem.fresh (.blank here.point)

/-- A run, told as it happens. -/
def perform (solver : Solver α σ) (guess : Tensor α) : Run α :=
  let (outcome, journal) := (solver.record guess).runFrom .blank
  ⟨journal.points, journal.log, outcome⟩

end Solver

end BoundedFit
