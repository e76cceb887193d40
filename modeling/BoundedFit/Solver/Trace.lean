import BoundedFit.Solver.Basic
import BoundedFit.Solver.Iterate

/-!
# Traces

Result, log and evaluated points are read off the trace of a run.
-/

namespace BoundedFit

/-- What happened from one iterate on. -/
inductive Trace (α : Type) where
  | unevaluated (here : Iterate α) (fault : Fault α)
  /-- No step could be taken; `block` is the bound that would have stopped it. -/
  | stuck (here : Iterate α) (error : α) (block : Option (Block α)) (fault : Fault α)
  | settled (here : Iterate α) (error : α)
  | exhausted (here : Iterate α) (error : α)
  | moved (here : Iterate α) (error : α) (block : Option (Block α)) (rest : Trace α)

namespace Trace

variable {α : Type}

def head : Trace α → Iterate α
  | unevaluated here _ | stuck here .. | settled here _ | exhausted here _ | moved here .. => here

def final : Trace α → Iterate α
  | unevaluated here _ | stuck here .. | settled here _ | exhausted here _ => here
  | moved _ _ _ rest => rest.final

/-- The points in order, with the active set on arrival. -/
def iterates : Trace α → List (Iterate α)
  | unevaluated here _ | stuck here .. | settled here _ | exhausted here _ => [here]
  | moved here _ _ rest => here :: rest.iterates

/-- The evaluated points with their errors. -/
def visits : Trace α → List (List α × α)
  | unevaluated .. => []
  | stuck here error _ _ | settled here error | exhausted here error => [(here.point, error)]
  | moved here error _ rest => (here.point, error) :: rest.visits

def errors (t : Trace α) : List α := t.visits.map Prod.snd

/-- The points handed to the problem. -/
def points (t : Trace α) : List (List α) := t.iterates.map Iterate.point

def fault? : Trace α → Option (Fault α)
  | unevaluated _ fault | stuck _ _ _ fault => some fault
  | settled .. | exhausted .. => none
  | moved _ _ _ rest => rest.fault?

/-- Whether the run ended below the tolerance before the cap. -/
def isSettled : Trace α → Bool
  | settled .. => true
  | unevaluated .. | stuck .. | exhausted .. => false
  | moved _ _ _ rest => rest.isSettled

end Trace

/-- One step: the bound that stops it, and the iterate and state after it. -/
structure Advance (α σ : Type) where
  block : Option (Block α)
  next : Except (Fault α) (Iterate α × σ)

namespace Solver

variable {α σ : Type} [Add α] [Sub α] [Mul α] [Div α] [Neg α] [Zero α] [One α]
  [LT α] [LE α] [DecidableLT α] [DecidableLE α] [OfScientific α]

/-- Errors below this end a run. -/
def convergenceTolerance : α := 1e-8

/-- One step from an iterate whose state is known, with the bound that stopped it. -/
def advance (solver : Solver α σ) (here : Iterate α) (state : σ) : Advance α σ :=
  let proposal := solver.problem.step solver.damping here.active state
  match proposal.delta with
  | .error fault => ⟨none, .error fault⟩
  | .ok delta =>
    match closestBlock solver.bounds here.point delta proposal.active with
    | .error fault => ⟨none, .error fault⟩
    | .ok block =>
      let landed := Iterate.land ⟨here.point, proposal.active⟩ delta block
      ⟨block, landed.map fun next => (next, proposal.state)⟩

/-- The trace of at most `n` steps. The point after the last step is evaluated too. -/
def trace (solver : Solver α σ) : Nat → Iterate α → σ → Trace α
  | 0, here, state =>
    match solver.problem.errorAt here.point state with
    | .error fault => .unevaluated here fault
    | .ok (error, _) => .exhausted here error
  | n + 1, here, state =>
    match solver.problem.errorAt here.point state with
    | .error fault => .unevaluated here fault
    | .ok (error, state) =>
      if error < convergenceTolerance then .settled here error
      else
        let taken := solver.advance here state
        match taken.next with
        | .error fault => .stuck here error taken.block fault
        | .ok (next, state) => .moved here error taken.block (solver.trace n next state)

/-- The guess, refused if it is no vector or lacks a bounded coordinate, moved onto the bounds. -/
def start (solver : Solver α σ) (guess : Tensor α) : Except (Fault α) (Iterate α) :=
  match guess.toVector? with
  | none => .error .guessRank
  | some x =>
    match solver.bounds.find? fun b => x.length ≤ b.index with
    | some b => .error (.guessLength b.index x.length)
    | none => .ok (clamp solver.bounds x)

end Solver

end BoundedFit
