import BoundedFit.Proofs.Run.Best

/-!
# What a result reports

Numbers only need to compare as doubles do.
-/

namespace BoundedFit

theorem Trace.points_eq_visits {α : Type} {t : Trace α} (h : t.fault? = none) :
    t.points = t.visits.map Prod.fst := by
  induction t with
  | unevaluated here fault => cases h
  | stuck here error block fault => cases h
  | settled here error => rfl
  | exhausted here error => rfl
  | moved here error block rest ih =>
    have hrest : rest.iterates.map Iterate.point = rest.visits.map Prod.fst := ih h
    simp [points, iterates, visits, hrest]

namespace Solver

variable {α σ : Type} [Add α] [Sub α] [Mul α] [Div α] [Neg α] [Zero α] [One α]
  [LT α] [LE α] [DecidableLT α] [DecidableLE α] [OfScientific α]
  {solver : Solver α σ} {first : Iterate α}

/-- Entered after `past` steps, the trace settles before the cap with an error below the tolerance, or
goes on to the evaluation after the last step. -/
def Ends (solver : Solver α σ) (past : Nat) (t : Trace α) : Prop :=
  (t.isSettled = true ∧ past + t.visits.length ≤ solver.maxIterations ∧
      ∃ last, t.visits.getLast? = some last ∧ last.2 < convergenceTolerance) ∨
    (t.isSettled = false ∧ past + t.visits.length = solver.maxIterations + 1)

theorem ends_of_fault_eq_none (h : (solver.traceFrom first).fault? = none) :
    solver.Ends 0 (solver.traceFrom first) := by
  revert h
  refine traceFrom_induction (motive := fun past _ _ t => t.fault? = none → solver.Ends past.length t)
    ?unevaluated ?exhausted ?settled ?stuck ?moved
  case unevaluated =>
    intro past here before fault _ _ hfault
    cases hfault
  case stuck =>
    intro past here before error state fault _ _ _ _ _ hfault
    cases hfault
  case exhausted =>
    intro past here before error state _ hcap _ _
    exact Or.inr ⟨rfl, by rw [hcap]; rfl⟩
  case settled =>
    intro past here before error state _ hlt _ hsmall _
    exact Or.inl ⟨rfl, hlt, _, rfl, hsmall⟩
  case moved =>
    intro past before error s rest _ _ _ _ _ ih hfault
    unfold Ends Trace.visits Trace.isSettled
    rw [List.length_cons]
    rcases ih hfault with ⟨hsettled, hlength, last, hlast, hsmall⟩ | ⟨hsettled, hlength⟩
    · refine Or.inl ⟨hsettled, ?_, last, ?_, hsmall⟩
      · rw [List.length_cons] at hlength
        omega
      · rw [List.getLast?_cons, hlast]
        rfl
    · refine Or.inr ⟨hsettled, ?_⟩
      rw [List.length_cons] at hlength
      omega

theorem not_lt_of_mem_dropLast {e : α} (he : e ∈ (solver.traceFrom first).errors.dropLast) :
    ¬ e < convergenceTolerance := by
  have hchain : (solver.traceFrom first).visits.IsChain fun visit _ =>
      ¬ visit.2 < convergenceTolerance :=
    isChain_visits fun past before s error error' state _ _ _ hlarge _ => hlarge
  rw [Trace.errors, ← List.map_dropLast] at he
  obtain ⟨visit, hvisit, rfl⟩ := List.mem_map.mp he
  obtain ⟨n, hn, rfl⟩ := List.mem_iff_getElem.mp hvisit
  rw [List.length_dropLast] at hn
  rw [List.getElem_dropLast]
  exact List.isChain_iff_getElem.mp hchain n (by omega)

theorem last_of_lt {visit last : List α × α} (h : visit ∈ (solver.traceFrom first).visits)
    (hsmall : visit.2 < convergenceTolerance)
    (hlast : (solver.traceFrom first).visits.getLast? = some last) : visit = last := by
  obtain ⟨visits, hvisits⟩ := List.getLast?_eq_some_iff.mp hlast
  rw [hvisits, List.mem_append, List.mem_singleton] at h
  rcases h with h | h
  · have hdrop : visit.2 ∈ (solver.traceFrom first).errors.dropLast := by
      rw [Trace.errors, hvisits, ← List.map_dropLast, List.dropLast_concat]
      exact List.mem_map_of_mem h
    exact absurd hsmall (not_lt_of_mem_dropLast hdrop)
  · exact h

variable [Scalar α]

/-- The result reports the run from the clamped guess `first`. -/
structure Reports (solver : Solver α σ) (first : Iterate α) (result : Result α) : Prop where
  evaluated : ∀ n visit,
    (solver.traceFrom first).visits[n]? = some visit ↔ solver.Evaluates first n visit
  points_eq : (solver.traceFrom first).points = (solver.traceFrom first).visits.map Prod.fst
  errors_eq : result.errors = (solver.traceFrom first).visits.map Prod.snd
  errors_ne_nil : result.errors ≠ []
  length_bestErrors : result.bestErrors.length = result.errors.length
  least : ∀ j best, result.bestErrors[j]? = some best →
    IsLeastError (result.errors.take (j + 1)) best
  error_eq : result.bestErrors.getLast? = some result.error
  guess_of_none : result.error = none → result.solution = first.point
  first_of_some : ∀ e, result.error = some e →
    (solver.traceFrom first).visits.find? (fun visit => Scalar.same visit.2 e) =
      some (result.solution, e)
  large : ∀ e ∈ result.errors.dropLast, ¬ e < convergenceTolerance
  converged_iff_last : result.status = .converged ↔
    ∃ e, result.errors.getLast? = some e ∧ e < convergenceTolerance
  converged_iff_error : result.status = .converged ↔
    ∃ e, result.error = some e ∧ e < convergenceTolerance
  last_of_converged : result.status = .converged →
    ∃ last, (solver.traceFrom first).visits.getLast? = some last ∧ result.solution = last.1
  iterations_eq :
    ((solver.traceFrom first).isSettled = true ∧ result.iterations = result.errors.length ∧
        result.errors.length ≤ solver.maxIterations) ∨
      ((solver.traceFrom first).isSettled = false ∧ result.iterations = solver.maxIterations ∧
        result.errors.length = solver.maxIterations + 1)

variable [FloatOrder α]

theorem best_eq_last {last : List α × α} {e : α}
    (he : (best first.point (solver.traceFrom first)).error = some e)
    (hsmall : e < convergenceTolerance)
    (hlast : (solver.traceFrom first).visits.getLast? = some last) :
    ((best first.point (solver.traceFrom first)).point, e) = last := by
  have hfirst := (isBest_best first.point (solver.traceFrom first)).find?_of_some e he
  exact last_of_lt (List.mem_of_find?_eq_some hfirst) hsmall hlast

theorem error_best_lt_iff {last : List α × α}
    (hlast : (solver.traceFrom first).visits.getLast? = some last) :
    (∃ e, (best first.point (solver.traceFrom first)).error = some e ∧ e < convergenceTolerance) ↔
      last.2 < convergenceTolerance := by
  constructor
  · rintro ⟨e, he, hsmall⟩
    rwa [← best_eq_last he hsmall hlast]
  · intro hsmall
    obtain ⟨hlastself, htolerance⟩ := FloatOrder.le_self_of_lt hsmall
    have hmem : last.2 ∈ (solver.traceFrom first).visits.map Prod.snd :=
      List.mem_map_of_mem (List.mem_of_getLast? hlast)
    have hbest := (isBest_best first.point (solver.traceFrom first)).least
    rcases herror : (best first.point (solver.traceFrom first)).error with _ | e
    · rw [herror] at hbest
      obtain ⟨hinfinite, hpos⟩ := hbest _ hmem (isComparable_iff.mpr hlastself)
      have hle := FloatOrder.le_of_infinite _ _ htolerance hlastself hinfinite hpos
      exact absurd hle (FloatOrder.not_le_of_lt hsmall)
    · rw [herror] at hbest
      have hle := hbest.2.2 _ hmem (isComparable_iff.mpr hlastself)
      exact ⟨e, rfl, FloatOrder.lt_of_le_of_lt hle hsmall⟩

theorem status_summary_iff (hfault : (solver.traceFrom first).fault? = none) :
    (solver.summary first.point (solver.traceFrom first)).status = .converged ↔
      ∃ e, (best first.point (solver.traceFrom first)).error = some e ∧ e < convergenceTolerance := by
  have hconverged : ∀ error : Option α,
      isConverged error = true ↔ ∃ e, error = some e ∧ e < convergenceTolerance := by
    intro error
    cases error <;> simp [isConverged]
  have hstatus : (solver.summary first.point (solver.traceFrom first)).status = .converged ↔
      (solver.traceFrom first).isSettled = true ∨
        isConverged (best first.point (solver.traceFrom first)).error = true := by
    rw [← Bool.or_eq_true]
    unfold summary
    dsimp only
    split <;> simp_all
  rw [hstatus, hconverged, or_iff_right_iff_imp]
  intro hsettled
  rcases ends_of_fault_eq_none hfault with ⟨-, -, last, hlast, hsmall⟩ | ⟨hnot, -⟩
  · exact (error_best_lt_iff hlast).mpr hsmall
  · rw [hnot] at hsettled
    cases hsettled

theorem reports_of_optimize {guess : Tensor α} {result : Result α}
    (h : solver.optimize guess = .ok result) :
    ∃ first, solver.start guess = .ok first ∧ solver.Reports first result := by
  obtain ⟨first, hstart⟩ := exists_start_of_optimize h
  refine ⟨first, hstart, ?_⟩
  obtain ⟨hfault, -, rfl⟩ := of_optimize_eq_ok hstart h
  obtain ⟨error, hlast⟩ := Trace.getLast?_visits hfault
  have hbest := isBest_best first.point (solver.traceFrom first)
  have hstatus := status_summary_iff hfault
  have hne : (solver.traceFrom first).visits ≠ [] := by
    intro hnil
    rw [hnil] at hlast
    cases hlast
  have hlasterror : (solver.traceFrom first).errors.getLast? = some error := by
    rw [Trace.errors, List.getLast?_map, hlast]
    rfl
  constructor
  case evaluated => exact fun n visit => getElem?_visits_iff
  case points_eq => exact Trace.points_eq_visits hfault
  case errors_eq => rfl
  case errors_ne_nil => exact fun hnil => hne (List.map_eq_nil_iff.mp hnil)
  case length_bestErrors => exact length_runningLeast _ _
  case least =>
    intro j least hj
    have hnone : IsLeastError ([] : List α) none := fun e he => by cases he
    exact isLeastError_runningLeast hnone hj
  case error_eq => exact getLast?_runningLeast ⟨first.point, none⟩ hne
  case guess_of_none => exact hbest.guess_of_none
  case first_of_some => exact hbest.find?_of_some
  case large => exact fun e he => not_lt_of_mem_dropLast he
  -- A run converges exactly if its last error is small: a small error ends the run at once.
  case converged_iff_last =>
    rw [hstatus, error_best_lt_iff hlast]
    simp [summary, hlasterror]
  case converged_iff_error => exact hstatus
  case last_of_converged =>
    intro hconverged
    obtain ⟨e, he, hsmall⟩ := hstatus.mp hconverged
    exact ⟨_, hlast, congrArg Prod.fst (best_eq_last he hsmall hlast)⟩
  -- A settled run stops at its last visit; any other one evaluates a point after its last step.
  case iterations_eq =>
    have hends := ends_of_fault_eq_none hfault
    unfold Ends at hends
    unfold summary Trace.errors
    rw [Nat.zero_add] at hends
    rw [List.length_map]
    rcases hends with ⟨hsettled, hlength, -⟩ | ⟨hsettled, hlength⟩
    · exact Or.inl ⟨hsettled, by simp [hsettled], hlength⟩
    · exact Or.inr ⟨hsettled, by simp [hsettled], hlength⟩

/-- A problem whose errors are no number, infinite, 4, 9 and then nearly zero. -/
def faltering : Problem Float Nat where
  fresh := 0
  evaluate _ count := .ok (count + 1)
  error count := [0 / 0, 1 / 0, 4, 9].getD (count - 1) 1e-9
  residual _ := []
  jacobian _ := .empty
  step _ active count := ⟨.ok [1], active, count⟩

def faltered : Solver Float Nat := ⟨faltering, [], 1, 6, false⟩

theorem reports_faltered :
    ∃ first result, faltered.optimize (.ofVector [0]) = .ok result ∧ faltered.Reports first result ∧
      result.errors = [0 / 0, 1 / 0, 4, 9, 1e-9] ∧
      result.bestErrors = [none, none, some 4, some 4, some 1e-9] ∧
      result.solution = [4] ∧ result.iterations = 5 ∧ result.status = .converged := by
  have hrun : (faltered.optimize (.ofVector [0])).toOption.map
      (fun result => (result.errors, result.bestErrors, result.solution, result.iterations,
        result.status)) =
      some ([0 / 0, 1 / 0, 4, 9, 1e-9], [none, none, some 4, some 4, some 1e-9], [4], 5,
        .converged) := by decide +kernel
  rcases hoptimize : faltered.optimize (.ofVector [0]) with fault | result
  · rw [hoptimize] at hrun
    cases hrun
  · rw [hoptimize] at hrun
    obtain ⟨first, -, hreports⟩ := reports_of_optimize hoptimize
    simp only [Except.toOption, Option.map_some, Option.some.injEq, Prod.mk.injEq] at hrun
    exact ⟨first, result, rfl, hreports, hrun⟩

end Solver

end BoundedFit
