import BoundedFit.Solver.Journal
import BoundedFit.Proofs.Run.Best

/-!
# What a run reports on its way

A run told as it happens is the run that is read off the trace.
-/

namespace BoundedFit

/-- The journal after more points and, in a verbose run, more events. -/
def Journal.extend {α : Type} (journal : Journal α) (verbose : Bool) (points : List (List α))
    (events : List (Event α)) : Journal α :=
  ⟨journal.points ++ points, journal.log ++ if verbose then events else []⟩

namespace Journal

variable {α : Type} (journal : Journal α) (verbose : Bool)

theorem extend_nil : journal.extend verbose [] [] = journal := by
  cases verbose <;> simp [extend]

theorem extend_extend (points points' : List (List α)) (events events' : List (Event α)) :
    (journal.extend verbose points events).extend verbose points' events' =
      journal.extend verbose (points ++ points') (events ++ events') := by
  cases verbose <;> simp [extend]

end Journal

namespace Recorded

variable {α β γ : Type}

theorem runFrom_bind (part : Recorded α β) (rest : β → Recorded α γ) (journal : Journal α) :
    (part >>= rest).runFrom journal =
      match part.runFrom journal with
      | (.ok v, later) => (rest v).runFrom later
      | (.error fault, later) => (.error fault, later) := by
  have hbind : (part >>= rest).runFrom journal =
      match part.runFrom journal with
      | (outcome, later) => (ExceptT.bindCont rest outcome).run later := rfl
  rw [hbind]
  rcases part.runFrom journal with ⟨_ | v, later⟩ <;> rfl

theorem runFrom_liftM (answer : Except (Fault α) β) (journal : Journal α) :
    (liftM answer : Recorded α β).runFrom journal = (answer, journal) := rfl

end Recorded

namespace Solver
open Recorded
variable {α σ : Type}

theorem runFrom_say (solver : Solver α σ) (event : Event α) (journal : Journal α) :
    (solver.say event).runFrom journal = (.ok (), journal.extend solver.verbose [] [event]) := by
  unfold say Journal.extend
  cases solver.verbose with
  | true =>
    rw [if_pos rfl, if_pos rfl, List.append_nil]
    rfl
  | false =>
    rw [if_neg Bool.false_ne_true, if_neg Bool.false_ne_true, List.append_nil, List.append_nil]
    rfl

theorem runFrom_visit (solver : Solver α σ) (x : List α) (state : σ) (journal : Journal α) :
    (solver.visit x state).runFrom journal =
      (solver.problem.errorAt x state, journal.extend solver.verbose [x] []) := by
  have hvisit : (solver.visit x state).runFrom journal =
      (solver.problem.errorAt x state, ⟨journal.points ++ [x], journal.log⟩) := rfl
  simp [hvisit, Journal.extend]

variable [Add α] [Sub α] [Mul α] [Div α] [Neg α] [Zero α] [One α]
  [LT α] [LE α] [DecidableLT α] [DecidableLE α] [OfScientific α] [Scalar α]

omit [Mul α] [Scalar α] in
theorem runFrom_project (solver : Solver α σ) (x delta : List α) (active : ActiveSet α)
    (journal : Journal α) :
    (solver.project x delta active).runFrom journal =
      match closestBlock solver.bounds x delta active with
      | .ok block => (.ok block, journal.extend solver.verbose [] (blockEvents block))
      | .error fault => (.error fault, journal) := by
  unfold project
  rw [runFrom_bind, runFrom_liftM]
  rcases closestBlock solver.bounds x delta active with fault | _ | stop
  · rfl
  · dsimp only [blockEvents]
    rw [Journal.extend_nil]
    rfl
  · dsimp only [blockEvents]
    rw [runFrom_bind, runFrom_say]
    rfl

omit [Scalar α] in
theorem runFrom_step (solver : Solver α σ) (here : Iterate α) (state : σ) (journal : Journal α) :
    (solver.step here state).runFrom journal =
      ((solver.advance here state).next.map fun (next, after) =>
          ((solver.advance here state).block, next, after),
        journal.extend solver.verbose [] (blockEvents (solver.advance here state).block)) := by
  unfold step advance
  dsimp only
  rw [runFrom_bind, runFrom_liftM]
  rcases (solver.problem.step solver.damping here.active state).delta with fault | delta
  · simp [Except.map, blockEvents, Journal.extend_nil]
  · dsimp only
    rw [runFrom_bind, runFrom_project]
    rcases closestBlock solver.bounds here.point delta
      (solver.problem.step solver.damping here.active state).active with fault | block
    · simp [Except.map, blockEvents, Journal.extend_nil]
    · dsimp only
      rw [runFrom_bind, runFrom_liftM]
      rcases Iterate.land ⟨here.point, (solver.problem.step solver.damping here.active state).active⟩
        delta block with fault | next <;> rfl

/-- The result of a trace that is entered after `done` iterations with a ledger. -/
def summaryFrom (solver : Solver α σ) (done : Nat) (ledger : Ledger α) (t : Trace α) : Result α :=
  let best := t.visits.foldl Best.update ledger.best
  { solution := best.point
    error := best.error
    errors := ledger.errors ++ t.errors
    bestErrors := ledger.bestErrors ++ runningLeast ledger.best.error t.errors
    iterations := if t.isSettled then done + t.visits.length else solver.maxIterations
    active := t.final.active.toList
    status := if t.isSettled || isConverged best.error then .converged else .capReached }

def concludeFrom (solver : Solver α σ) (done : Nat) (ledger : Ledger α) (t : Trace α) :
    Except (Fault α) (Result α) :=
  match t.fault? with
  | some fault => .error fault
  | none => (acceptAll solver.bounds (t.visits.foldl Best.update ledger.best).point).map fun _ =>
      solver.summaryFrom done ledger t

/-- The outcome of a run that has nothing left to evaluate. -/
def outcomeFrom (solver : Solver α σ) (ledger : Ledger α) (iterations : Nat) (active : ActiveSet α)
    (status : Status) : Except (Fault α) (Result α) :=
  (acceptAll solver.bounds ledger.best.point).map fun _ =>
    ⟨ledger.best.point, ledger.best.error, ledger.errors, ledger.bestErrors, iterations, active.toList,
      status⟩

omit [Div α] [LE α] [DecidableLE α] [Scalar α] in
theorem runFrom_finish (solver : Solver α σ) (ledger : Ledger α) (iterations : Nat)
    (active : ActiveSet α) (status : Status) (journal : Journal α) :
    (solver.finish ledger iterations active status).runFrom journal =
      (solver.outcomeFrom ledger iterations active status, journal) := by
  unfold finish
  rw [runFrom_bind, runFrom_liftM, outcomeFrom]
  rcases acceptAll solver.bounds ledger.best.point with fault | u <;> rfl

omit [Div α] [LE α] [DecidableLE α] in
theorem concludeFrom_settled (solver : Solver α σ) (done : Nat) (ledger : Ledger α) (here : Iterate α)
    (error : α) :
    solver.concludeFrom done ledger (.settled here error) =
      solver.outcomeFrom (ledger.enter here.point error) (done + 1) here.active .converged := by
  simp [concludeFrom, summaryFrom, outcomeFrom, Ledger.enter, Trace.fault?, Trace.visits,
    Trace.errors, Trace.isSettled, Trace.final, runningLeast, Best.error_update_eq]

omit [Div α] [LE α] [DecidableLE α] in
theorem concludeFrom_exhausted (solver : Solver α σ) (done : Nat) (ledger : Ledger α) (here : Iterate α)
    (error : α) :
    solver.concludeFrom done ledger (.exhausted here error) =
      solver.outcomeFrom (ledger.enter here.point error) solver.maxIterations here.active
        (if isConverged (ledger.enter here.point error).best.error then .converged else .capReached) := by
  simp [concludeFrom, summaryFrom, outcomeFrom, Ledger.enter, Trace.fault?, Trace.visits,
    Trace.errors, Trace.isSettled, Trace.final, runningLeast, Best.error_update_eq]

omit [Div α] [LE α] [DecidableLE α] in
theorem concludeFrom_moved (solver : Solver α σ) (done : Nat) (ledger : Ledger α) (here : Iterate α)
    (error : α) (block : Option (Block α)) (rest : Trace α) :
    solver.concludeFrom done ledger (.moved here error block rest) =
      solver.concludeFrom (done + 1) (ledger.enter here.point error) rest := by
  have hiterations : done + (rest.visits.length + 1) = done + 1 + rest.visits.length := by omega
  simp [concludeFrom, summaryFrom, Ledger.enter, Trace.fault?, Trace.visits, Trace.errors,
    Trace.isSettled, Trace.final, runningLeast, Best.error_update_eq, hiterations]

omit [Scalar α] in
theorem head_trace (solver : Solver α σ) (n : Nat) (here : Iterate α) (state : σ) :
    (solver.trace n here state).head = here := by
  cases n with
  | zero =>
    unfold trace
    split <;> rfl
  | succ n =>
    unfold trace
    split
    · rfl
    · split
      · rfl
      · dsimp only
        split <;> rfl

theorem runFrom_proceed (solver : Solver α σ) (done n : Nat) (here : Iterate α) (state : σ)
    (ledger : Ledger α) (journal : Journal α) :
    (solver.proceed done n here state ledger).runFrom journal =
      (solver.concludeFrom done ledger (solver.trace n here state),
        journal.extend solver.verbose (solver.trace n here state).points
          ((solver.trace n here state).events (done + 1) ledger.best.error)) := by
  induction n generalizing done here state ledger journal with
  | zero =>
    unfold proceed trace
    rw [runFrom_bind, runFrom_visit]
    rcases solver.problem.errorAt here.point state with fault | ⟨error, after⟩
    · rfl
    · dsimp only
      rw [runFrom_bind, runFrom_say]
      dsimp only
      rw [runFrom_finish, Journal.extend_extend, concludeFrom_exhausted, Trace.events,
        ← Best.error_update_eq ledger.best (here.point, error)]
      rfl
  | succ n ih =>
    unfold proceed trace
    rw [runFrom_bind, runFrom_visit]
    rcases solver.problem.errorAt here.point state with fault | ⟨error, after⟩
    · rfl
    · dsimp only
      split
      · rw [runFrom_bind, runFrom_say]
        dsimp only
        rw [runFrom_finish, Journal.extend_extend, concludeFrom_settled]
        rfl
      · rw [runFrom_bind, runFrom_step]
        rcases (solver.advance here after).next with fault | ⟨next, later⟩
        · rw [Journal.extend_extend]
          rfl
        · dsimp only [Except.map]
          rw [runFrom_bind, runFrom_say]
          dsimp only
          rw [ih, concludeFrom_moved, Trace.events, head_trace, Journal.extend_extend,
            Journal.extend_extend, Journal.extend_extend]
          simp [Ledger.enter, Best.error_update_eq, Trace.points, Trace.iterates]

omit [Div α] [LE α] [DecidableLE α] in
theorem concludeFrom_blank (solver : Solver α σ) (guess : List α) (t : Trace α) :
    solver.concludeFrom 0 (.blank guess) t = solver.conclude guess t := by
  have hsummary : solver.summaryFrom 0 (.blank guess) t = solver.summary guess t := by
    unfold summaryFrom
    rw [Nat.zero_add]
    rfl
  unfold concludeFrom conclude
  rw [hsummary]
  change (match t.fault? with
    | some fault => Except.error fault
    | none => (acceptAll solver.bounds (best guess t).point).map fun _ => solver.summary guess t) = _
  rcases t.fault? with _ | fault
  · rcases acceptAll solver.bounds (best guess t).point with fault | u <;> rfl
  · rfl

/-- A run told as it happens is the run read off its trace. -/
theorem perform_eq_run (solver : Solver α σ) (guess : Tensor α) :
    solver.perform guess = solver.run guess := by
  unfold perform record run
  rw [runFrom_bind, runFrom_liftM]
  rcases solver.start guess with fault | here
  · rfl
  · dsimp only
    rw [runFrom_bind, runFrom_say]
    dsimp only
    rw [runFrom_proceed, Journal.extend_extend, concludeFrom_blank]
    simp [Journal.extend, Journal.blank, Ledger.blank, traceFrom]

end Solver

end BoundedFit
