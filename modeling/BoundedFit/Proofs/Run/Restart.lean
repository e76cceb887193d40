import BoundedFit.Problem.Dense
import BoundedFit.Solver.Log
import BoundedFit.Proofs.Clamp
import BoundedFit.Proofs.Linear.Cholesky
import BoundedFit.Proofs.Run.Report

/-!
# Restarts

Started from the solution, a run finds the reported error first.
-/

namespace BoundedFit

/-! ## Exact numbers compare as doubles do -/

theorem FloatOrder.of_isFinite {α : Type} [LinearOrder α] [Zero α] [Scalar α]
    (h : ∀ v : α, Scalar.isFinite v = true) : FloatOrder α where
  lt_iff _ _ := lt_iff_le_not_ge
  le_trans _ _ _ huv hvw := huv.trans hvw
  le_self_of_le u v _ := ⟨le_refl u, le_refl v⟩
  le_total u v _ _ := LinearOrder.le_total u v
  le_self_of_isFinite v _ := le_refl v
  le_of_infinite _ w _ _ hinfinite _ := by simp [h w] at hinfinite
  lt_of_infinite _ w _ _ hinfinite _ := by simp [h w] at hinfinite

instance : FloatOrder ℚ := .of_isFinite fun _ => rfl

instance {α : Type} [Mul α] [Zero α] [LinearOrder α] [Scalar α] [ExactScalar α] : FloatOrder α :=
  .of_isFinite ExactScalar.isFinite_eq

/-! ## Points that satisfy all bounds -/

section Feasible

variable {α : Type} [Sub α] [Neg α] [Zero α] [LT α] [LE α] [Scalar α] [FloatOrder α]

theorem Bound.Holds.exists_gap {b : Bound α} {x : List α} (h : b.Holds x) :
    ∃ v, x[b.index]? = some v ∧ ¬ b.gap v < 0 := by
  obtain ⟨slack, hslack, hnonneg⟩ := h
  unfold Bound.slack coordinate at hslack
  rcases hv : x[b.index]? with _ | v
  · simp [hv, Except.map] at hslack
  · obtain rfl : b.gap v = slack := by simpa [hv, Except.map] using hslack
    exact ⟨v, rfl, fun hneg => FloatOrder.not_le_of_lt hneg hnonneg⟩

variable [DecidableLT α] [DecidableLE α]

theorem Solver.start_of_feasible {σ : Type} {solver : Solver α σ} {x : List α}
    (h : Feasible solver.bounds x) : solver.start (.ofVector x) = .ok ⟨x, .empty⟩ := by
  have hlong : ∀ b ∈ solver.bounds, b.index < x.length := by
    intro b hb
    obtain ⟨v, hv, -⟩ := (h b hb).exists_gap
    exact (List.getElem?_eq_some_iff.mp hv).1
  have hinside : ∀ b ∈ solver.bounds, ¬ b.isViolated x = true := by
    intro b hb
    obtain ⟨v, hv, hin⟩ := (h b hb).exists_gap
    rwa [b.isViolated_of_getElem? hv]
  rw [start_ofVector hlong, clamp, foldl_clampTo_of_not_isViolated hinside]

end Feasible

/-! ## A known error at the first point -/

theorem Solver.error_best_le {α : Type} [Zero α] [LT α] [LE α] [DecidableLT α] [DecidableLE α]
    [Scalar α] [FloatOrder α] {t : Trace α} {x : List α} {e : α} (hbelow : improves e none = true)
    (hhead : t.visits.head? = some (x, e)) (guess : List α) :
    ∃ least, (best guess t).error = some least ∧ least ≤ e := by
  have hmem : e ∈ t.visits.map Prod.snd := List.mem_map_of_mem (List.mem_of_head? hhead)
  have hself := isComparable_iff.mpr (le_self_of_improves_none hbelow)
  have hleast := (isBest_best guess t).least
  rcases herror : (best guess t).error with _ | least
  · rw [herror] at hleast
    obtain ⟨hinfinite, hpos⟩ := hleast e hmem hself
    rcases improves_none_iff.mp hbelow with hfinite | hneg
    · rw [hinfinite] at hfinite
      cases hfinite
    · exact absurd hneg hpos
  · rw [herror] at hleast
    exact ⟨least, rfl, hleast.2.2 e hmem hself⟩

namespace Solver

variable {α σ : Type} [Add α] [Sub α] [Mul α] [Div α] [Neg α] [Zero α] [One α]
  [LT α] [LE α] [DecidableLT α] [DecidableLE α] [OfScientific α] [Scalar α]
  {solver : Solver α σ} {guess : Tensor α} {e : α}

section First

variable {here : Iterate α} {state : σ}
  (heval : solver.problem.errorAt here.point solver.problem.fresh = .ok (e, state))
  (hsmall : e < convergenceTolerance)

include heval hsmall

omit [Scalar α] in
theorem traceFrom_of_lt :
    (solver.traceFrom here).fault? = none ∧ (solver.traceFrom here).points = [here.point] ∧
      (solver.traceFrom here).visits = [(here.point, e)] := by
  unfold traceFrom
  cases solver.maxIterations with
  | zero => simp [trace, heval, Trace.fault?, Trace.points, Trace.iterates, Trace.visits]
  | succ n => simp [trace, heval, hsmall, Trace.fault?, Trace.points, Trace.iterates, Trace.visits]

theorem run_of_lt (hstart : solver.start guess = .ok here) (hbelow : improves e none = true)
    (haccept : acceptAll solver.bounds here.point = .ok ()) :
    (solver.run guess).points = [here.point] ∧
      ∃ result, solver.optimize guess = .ok result ∧ result.errors = [e] ∧
        result.solution = here.point ∧ result.error = some e ∧ result.status = .converged := by
  obtain ⟨hfault, hpoints, hvisits⟩ := traceFrom_of_lt heval hsmall
  have hbest : best here.point (solver.traceFrom here) = ⟨here.point, some e⟩ := by
    simp [best, hvisits, Best.update, hbelow]
  have hoptimize : solver.optimize guess =
      .ok (solver.summary here.point (solver.traceFrom here)) := by
    rw [optimize_of_start hstart, conclude, hfault, hbest, haccept]
    rfl
  refine ⟨?_, _, hoptimize, ?_, ?_, ?_, ?_⟩
  · rw [run, hstart, ← hpoints]
  · rw [summary, Trace.errors, hvisits]
    rfl
  · rw [summary, hbest]
  · rw [summary, hbest]
  · simp [summary, hbest, isConverged, hsmall]

end First

variable [FloatOrder α]

theorem of_optimize_of_error {result : Result α} (h : solver.optimize guess = .ok result)
    (herror : result.error = some e) :
    improves e none = true ∧
      (∃ before state, solver.problem.errorAt result.solution before = .ok (e, state)) ∧
      acceptAll solver.bounds result.solution = .ok () ∧
      (result.status = .converged ↔ e < convergenceTolerance) := by
  obtain ⟨first, hstart⟩ := exists_start_of_optimize h
  obtain ⟨hfault, haccept, rfl⟩ := of_optimize_eq_ok hstart h
  have hbest := isBest_best first.point (solver.traceFrom first)
  replace herror : (best first.point (solver.traceFrom first)).error = some e := herror
  refine ⟨?_, ?_, haccept, ?_⟩
  · have hleast := hbest.least
    rw [herror] at hleast
    exact improves_none_iff.mpr hleast.2.1
  · have hvisit := List.mem_of_find?_eq_some (hbest.find?_of_some e herror)
    obtain ⟨n, hn⟩ := List.mem_iff_getElem?.mp hvisit
    obtain ⟨_, _, before, state, -, -, hpoint, heval⟩ := evaluates_of_getElem? hn
    rw [hpoint] at heval
    exact ⟨before, state, heval⟩
  · rw [status_summary_iff hfault, herror]
    simp

end Solver

/-! ## The second run -/

/-- A point that is evaluated without a fault from one state is so from every other, with the same
error. -/
def Problem.Repeats {α σ : Type} (problem : Problem α σ) : Prop :=
  ∀ x before error state, problem.errorAt x before = .ok (error, state) →
    ∀ other, ∃ state', problem.errorAt x other = .ok (error, state')

theorem Problem.repeats_of_evaluate {α σ : Type} {problem : Problem α σ}
    (h : ∀ x before other, problem.evaluate x before = problem.evaluate x other) :
    problem.Repeats := by
  intro x before error state heval other
  refine ⟨state, ?_⟩
  rwa [Problem.errorAt, h _ other before]

namespace Solver

variable {α σ : Type} [Add α] [Sub α] [Mul α] [Div α] [Neg α] [Zero α] [One α]
  [LT α] [LE α] [DecidableLT α] [DecidableLE α] [OfScientific α] [Scalar α]

/-- What becomes of a run from the solution of `result`, the error there being `e`. -/
structure Resumes (solver : Solver α σ) (result : Result α) (e : α) : Prop where
  start_eq : solver.start (.ofVector result.solution) = .ok ⟨result.solution, .empty⟩
  first_visit : (solver.traceFrom ⟨result.solution, .empty⟩).visits.head? =
    some (result.solution, e)
  first_error : ∀ again, solver.optimize (.ofVector result.solution) = .ok again →
    again.errors.head? = some e
  error_le : ∀ again, solver.optimize (.ofVector result.solution) = .ok again →
    ∃ least, again.error = some least ∧ least ≤ e
  converged : result.status = .converged →
    (solver.run (.ofVector result.solution)).points = [result.solution] ∧
      ∃ again, solver.optimize (.ofVector result.solution) = .ok again ∧ again.errors = [e] ∧
        again.solution = result.solution ∧ again.error = some e ∧ again.status = .converged

/-- A run that is started again from its solution does not end with a larger error, and does not go on
if it had converged. -/
theorem resumes_of_optimize [FloatOrder α] {solver : Solver α σ} {guess : Tensor α}
    {result : Result α} {e : α} (hrepeats : solver.problem.Repeats)
    (hoptimize : solver.optimize guess = .ok result)
    (hfeasible : Feasible solver.bounds result.solution) (herror : result.error = some e) :
    solver.Resumes result e := by
  obtain ⟨hbelow, ⟨before, found, hfound⟩, haccept, hstatus⟩ :=
    of_optimize_of_error hoptimize herror
  obtain ⟨state, heval⟩ := hrepeats _ _ _ _ hfound solver.problem.fresh
  have hstart := start_of_feasible hfeasible
  have hhead : (solver.traceFrom ⟨result.solution, .empty⟩).visits.head? =
      some (result.solution, e) :=
    head?_visits_trace heval solver.maxIterations
  constructor
  case start_eq => exact hstart
  case first_visit => exact hhead
  case first_error =>
    intro again hagain
    obtain ⟨-, -, rfl⟩ := of_optimize_eq_ok hstart hagain
    simp [summary, Trace.errors, hhead]
  case error_le =>
    intro again hagain
    obtain ⟨-, -, rfl⟩ := of_optimize_eq_ok hstart hagain
    exact error_best_le hbelow hhead result.solution
  case converged =>
    exact fun hconverged => run_of_lt heval (hstatus.mp hconverged) hstart hbelow haccept

def nearCorner : LinearProblem ℚ := ⟨.ofFn 2 2 fun i j => if i = j then 1 else 0, [0, 2], rfl⟩

/-- The point of least error lies on both bounds. -/
def towardsCorner : Solver ℚ (DenseState ℚ) :=
  ⟨nearCorner.toProblem, [⟨0, 0, .lower⟩, ⟨1, 2, .upper⟩], 0, 1, false⟩

theorem resumes_towardsCorner :
    ∃ result, towardsCorner.optimize (.ofVector [3, 5]) = .ok result ∧ result.errors = [9, 0] ∧
      result.solution = [0, 2] ∧ result.status = .converged ∧ towardsCorner.Resumes result 0 := by
  have hrun : (towardsCorner.optimize (.ofVector [3, 5])).toOption.map
      (fun result => (result.errors, result.solution, result.error, result.status)) =
      some ([9, 0], [0, 2], some 0, .converged) := by decide +kernel
  rcases hoptimize : towardsCorner.optimize (.ofVector [3, 5]) with fault | result
  · rw [hoptimize] at hrun
    cases hrun
  · rw [hoptimize] at hrun
    simp only [Except.toOption, Option.map_some, Option.some.injEq, Prod.mk.injEq] at hrun
    obtain ⟨herrors, hsolution, herror, hstatus⟩ := hrun
    have hfeasible : Feasible towardsCorner.bounds result.solution := by
      rw [hsolution]
      simp [Feasible, towardsCorner, Bound.holds_iff, Bound.gap, Side.orient]
    have hrepeats : towardsCorner.problem.Repeats := Problem.repeats_of_evaluate fun _ _ _ => rfl
    exact ⟨result, rfl, herrors, hsolution, hstatus,
      resumes_of_optimize hrepeats hoptimize hfeasible herror⟩

end Solver

end BoundedFit
