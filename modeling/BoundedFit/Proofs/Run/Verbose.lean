import BoundedFit.Proofs.Run.Feasible
import BoundedFit.Proofs.Run.Journal
import BoundedFit.Proofs.Run.Lines

/-!
# Runs with and without reports

They are the same run.
-/

namespace BoundedFit

section Events

variable {α σ : Type} [Zero α] [LT α] [DecidableLT α] [Scalar α]

/-- The least error found before the steps in `past` were taken, the latest step first. -/
def bestErrorBefore (problem : Problem α σ) (past : List (Stage α σ)) : Option α :=
  past.foldr (fun s best => leastError best (problem.error s.state)) none

/-- What is reported of the steps in `past`, the latest one first. -/
def stepEvents (problem : Problem α σ) : List (Stage α σ) → List (Event α)
  | [] => []
  | s :: past =>
    stepEvents problem past ++ (blockEvents s.block ++
      [.stepped (past.length + 1) (problem.error s.state) (bestErrorBefore problem (s :: past))
        s.next.active.size (s.block.map (·.bound.index))])

omit [Zero α] [LT α] [DecidableLT α] [Scalar α] in
theorem length_blockEvents (block : Option (Block α)) :
    (blockEvents block).length = if block.isSome then 1 else 0 := by
  cases block <;> rfl

theorem length_stepEvents (problem : Problem α σ) (past : List (Stage α σ)) :
    (stepEvents problem past).length =
      past.length + (past.filter fun s => s.block.isSome).length := by
  induction past with
  | nil => rfl
  | cons s past ih =>
    rw [stepEvents, List.length_append, List.length_append, ih, length_blockEvents,
      List.filter_cons, List.length_singleton, List.length_cons]
    split
    · rw [List.length_cons]
      omega
    · omega

theorem Best.error_eq_foldl_leastError (best : Best α) (visits : List (List α × α)) :
    (visits.foldl Best.update best).error = (visits.map Prod.snd).foldl leastError best.error := by
  induction visits generalizing best with
  | nil => rfl
  | cons visit visits ih =>
    rw [List.foldl_cons, ih, Best.error_update_eq, List.map_cons, List.foldl_cons]

end Events

namespace Solver

variable {α σ : Type} [Add α] [Sub α] [Mul α] [Div α] [Neg α] [Zero α] [One α]
  [LT α] [LE α] [DecidableLT α] [DecidableLE α] [OfScientific α]

/-- The same solver, reporting or not. -/
def reporting (solver : Solver α σ) (verbose : Bool) : Solver α σ := { solver with verbose }

omit [Add α] [Sub α] [Mul α] [Div α] [Neg α] [One α] [OfScientific α] in
theorem make_verbose (problem : Problem α σ) (bounds : List (Bound α)) (settings : Settings α)
    (verbose : Bool) :
    make problem bounds { settings with verbose } =
      (make problem bounds settings).map fun solver => solver.reporting verbose := by
  unfold make
  dsimp only
  rcases checkDamping settings.damping with fault | damping
  · rfl
  · rcases checkCap settings.maxIterations with fault | cap
    · rfl
    · rcases checkConsistent bounds with fault | u <;> rfl

theorem trace_reporting (solver : Solver α σ) (verbose : Bool) (n : Nat) (here : Iterate α)
    (state : σ) :
    (solver.reporting verbose).trace n here state = solver.trace n here state := by
  induction n generalizing here state with
  | zero => rfl
  | succ n ih =>
    unfold trace
    simp only [ih]
    rfl

variable [Scalar α]

theorem run_reporting (solver : Solver α σ) (verbose : Bool) (guess : Tensor α) :
    ((solver.reporting verbose).run guess).points = (solver.run guess).points ∧
      ((solver.reporting verbose).run guess).outcome = (solver.run guess).outcome := by
  have hstart : (solver.reporting verbose).start guess = solver.start guess := rfl
  unfold run
  rw [hstart]
  rcases solver.start guess with fault | first
  · exact ⟨rfl, rfl⟩
  · have htrace : (solver.reporting verbose).traceFrom first = solver.traceFrom first :=
      trace_reporting solver verbose solver.maxIterations first solver.problem.fresh
    dsimp only
    rw [htrace]
    exact ⟨rfl, rfl⟩

theorem log_of_not_verbose {solver : Solver α σ} (h : solver.verbose = false) (guess : Tensor α) :
    (solver.run guess).log = [] := by
  unfold run
  rcases solver.start guess with fault | first
  · rfl
  · simp [h]

variable {solver : Solver α σ} {first : Iterate α}

/-- The run from `first` ends at `here` after the steps in `past`, with this error. -/
structure EndsAt (solver : Solver α σ) (first : Iterate α) (past : List (Stage α σ)) (here : Iterate α)
    (error : α) : Prop where
  reached : ∃ before state, solver.Runs first past here before ∧
    solver.problem.errorAt here.point before = .ok (error, state)
  ended : error < convergenceTolerance ∨ past.length = solver.maxIterations

/-- The last event of a run that ends after the steps in `past` with this error. -/
def lastEvent (solver : Solver α σ) (past : List (Stage α σ)) (error : α) : Event α :=
  if past.length < solver.maxIterations then .converged (past.length + 1) error
  else .completed (leastError (bestErrorBefore solver.problem past) error)

/-- What the trace from the iterate after the steps in `past` on shows of the whole run. -/
structure Unfolds (solver : Solver α σ) (past all : List (Stage α σ)) (here : Iterate α) (error : α)
    (t : Trace α) : Prop where
  points_eq : (past.map (·.here.point)).reverse ++ t.points =
    (all.map (·.here.point)).reverse ++ [here.point]
  errors_eq : (past.map fun s => solver.problem.error s.state).reverse ++ t.errors =
    (all.map fun s => solver.problem.error s.state).reverse ++ [error]
  events_eq : stepEvents solver.problem past ++
      t.events (past.length + 1) (bestErrorBefore solver.problem past) =
    stepEvents solver.problem all ++ [solver.lastEvent all error]

theorem exists_endsAt (h : (solver.traceFrom first).fault? = none) :
    ∃ past here error, solver.EndsAt first past here error ∧
      solver.Unfolds [] past here error (solver.traceFrom first) := by
  -- The head is needed in the step: it shows the active set after the step.
  suffices hends : (solver.traceFrom first).head = first ∧ ((solver.traceFrom first).fault? = none →
      ∃ past here error, solver.EndsAt first past here error ∧
        solver.Unfolds [] past here error (solver.traceFrom first)) from hends.2 h
  refine traceFrom_induction (motive := fun past at' _ t => t.head = at' ∧ (t.fault? = none →
      ∃ all here error, solver.EndsAt first all here error ∧ solver.Unfolds past all here error t))
    ?unevaluated ?exhausted ?settled ?stuck ?moved
  case unevaluated =>
    intro past here before fault _ _
    exact ⟨rfl, nofun⟩
  case stuck =>
    intro past here before error state fault _ _ _ _ _
    exact ⟨rfl, nofun⟩
  case exhausted =>
    intro past here before error state hruns hcap heval
    have hends : solver.EndsAt first past here error := ⟨⟨before, state, hruns, heval⟩, Or.inr hcap⟩
    refine ⟨rfl, fun _ => ⟨past, here, error, hends, rfl, rfl, ?_⟩⟩
    rw [lastEvent, if_neg (by omega)]
    rfl
  case settled =>
    intro past here before error state hruns hlt heval hsmall
    have hends : solver.EndsAt first past here error := ⟨⟨before, state, hruns, heval⟩, Or.inl hsmall⟩
    refine ⟨rfl, fun _ => ⟨past, here, error, hends, rfl, rfl, ?_⟩⟩
    rw [lastEvent, if_pos hlt]
    rfl
  case moved =>
    intro past before error s rest hruns hlt heval hlarge hs ⟨hhead, ih⟩
    refine ⟨rfl, fun hfault => ?_⟩
    obtain ⟨all, here, last, hends, hunfolds⟩ := ih hfault
    have herror : solver.problem.error s.state = error := (Problem.errorAt_eq_ok_iff.mp heval).2
    refine ⟨all, here, last, hends, ?_, ?_, ?_⟩
    · rw [← hunfolds.points_eq]
      simp [Trace.points, Trace.iterates]
    · rw [← hunfolds.errors_eq]
      simp [Trace.errors, Trace.visits, herror]
    · rw [← hunfolds.events_eq]
      simp [Trace.events, stepEvents, bestErrorBefore, herror, hhead]

/-- What a run that returns has shown: the points and errors up to the last evaluation, and in its log
the start, what each step reports, and the end. -/
structure Tells (solver : Solver α σ) (first : Iterate α) (past : List (Stage α σ)) (here : Iterate α)
    (error : α) (run : Run α) (result : Result α) : Prop where
  endsAt : solver.EndsAt first past here error
  points_eq : run.points = (past.map (·.here.point)).reverse ++ [here.point]
  errors_eq : result.errors = (past.map fun s => solver.problem.error s.state).reverse ++ [error]
  error_eq : result.error = leastError (bestErrorBefore solver.problem past) error
  log_eq : run.log = .started first.active.size ::
    (stepEvents solver.problem past ++ [solver.lastEvent past error])
  length_log : run.log.length = 2 + past.length + (past.filter fun s => s.block.isSome).length
  count_lines : ∀ line : Event α → String, (∀ event, IsLine (line event)) →
    (Event.printed line run.log).count '\n' =
      2 + past.length + (past.filter fun s => s.block.isSome).length

theorem exists_tells {guess : Tensor α} {result : Result α} (hverbose : solver.verbose = true)
    (h : (solver.run guess).outcome = .ok result) :
    ∃ first past here error, solver.start guess = .ok first ∧
      solver.Tells first past here error (solver.run guess) result := by
  rw [outcome_run] at h
  obtain ⟨first, hstart⟩ := exists_start_of_optimize h
  obtain ⟨hfault, -, rfl⟩ := of_optimize_eq_ok hstart h
  obtain ⟨past, here, error, hends, hpoints, herrors, hevents⟩ := exists_endsAt hfault
  simp only [List.map_nil, List.reverse_nil, List.nil_append] at hpoints herrors hevents
  have hlog : (solver.run guess).log = .started first.active.size ::
      (stepEvents solver.problem past ++ [solver.lastEvent past error]) := by
    rw [run, hstart, ← hevents]
    exact if_pos hverbose
  have hlength : (solver.run guess).log.length =
      2 + past.length + (past.filter fun s => s.block.isSome).length := by
    rw [hlog, List.length_cons, List.length_append, length_stepEvents, List.length_singleton]
    omega
  refine ⟨first, past, here, error, hstart, hends, ?_, herrors, ?_, hlog, hlength, ?_⟩
  · rw [run, hstart]
    exact hpoints
  · unfold summary best
    dsimp only
    rw [Best.error_eq_foldl_leastError, ← Trace.errors, herrors, List.foldl_append, List.foldl_reverse,
      List.foldr_map]
    rfl
  · intro line hline
    rw [Event.count_printed hline, hlength]

/-- With reports or without, a run is the same, and what a verbose run reports tells all of its
steps. -/
theorem only_reports (problem : Problem α σ) (bounds : List (Bound α)) (settings : Settings α)
    (guess : Tensor α) :
    (∃ fault, make problem bounds { settings with verbose := true } = .error fault ∧
        make problem bounds { settings with verbose := false } = .error fault) ∨
      ∃ loud quiet, make problem bounds { settings with verbose := true } = .ok loud ∧
        make problem bounds { settings with verbose := false } = .ok quiet ∧
        loud.run guess = loud.perform guess ∧ quiet.run guess = quiet.perform guess ∧
        (loud.run guess).points = (quiet.run guess).points ∧
        (loud.run guess).outcome = (quiet.run guess).outcome ∧
        (quiet.run guess).log = [] ∧
        ∀ result, (loud.run guess).outcome = .ok result →
          ∃ first past here error, loud.start guess = .ok first ∧
            loud.Tells first past here error (loud.run guess) result := by
  rw [make_verbose problem bounds settings true, make_verbose problem bounds settings false]
  rcases make problem bounds settings with fault | solver
  · exact Or.inl ⟨fault, rfl, rfl⟩
  · obtain ⟨hpoints, houtcome⟩ := run_reporting solver true guess
    obtain ⟨hpoints', houtcome'⟩ := run_reporting solver false guess
    refine Or.inr ⟨solver.reporting true, solver.reporting false, rfl, rfl,
      (perform_eq_run _ guess).symm, (perform_eq_run _ guess).symm, ?_, ?_, ?_, fun result hresult => ?_⟩
    · rw [hpoints, hpoints']
    · rw [houtcome, houtcome']
    · exact log_of_not_verbose rfl guess
    · exact exists_tells rfl hresult

theorem only_reports_boxedClimb :
    ∃ result first past here error,
      ((boxedClimb.reporting true).run (.ofVector [-1, 0])).outcome = .ok result ∧
      (boxedClimb.reporting true).Tells first past here error
        ((boxedClimb.reporting true).run (.ofVector [-1, 0])) result ∧
      result.errors.length = 3 ∧ past.length = 2 ∧
      (past.filter fun s => s.block.isSome).length = 1 := by
  have hmake : make climb boxedClimb.bounds ⟨1, 2, true⟩ = .ok (boxedClimb.reporting true) :=
    make_of_isOk climb (by decide +kernel) (by decide) (by decide)
  have hlog : ((boxedClimb.reporting true).run (.ofVector [-1, 0])).log.length = 5 := by decide +kernel
  have herrors : ((boxedClimb.reporting true).run (.ofVector [-1, 0])).outcome.toOption.map
      (fun result => result.errors.length) = some 3 := by decide +kernel
  rcases only_reports climb boxedClimb.bounds ⟨1, 2, false⟩ (.ofVector [-1, 0]) with
    ⟨fault, hfault, -⟩ | ⟨loud, quiet, hloud, -, -, -, -, -, -, htells⟩
  · rw [hmake] at hfault
    cases hfault
  · rw [hmake] at hloud
    obtain rfl := Except.ok.inj hloud
    rcases houtcome : ((boxedClimb.reporting true).run (.ofVector [-1, 0])).outcome with fault | result
    · rw [houtcome] at herrors
      cases herrors
    · rw [houtcome] at herrors
      obtain ⟨first, past, here, error, -, htold⟩ := htells result houtcome
      have hlength : result.errors.length = 3 := Option.some.inj herrors
      have hpast : past.length = 2 := by
        rw [htold.errors_eq] at hlength
        simpa using hlength
      have hcount := htold.length_log
      exact ⟨result, first, past, here, error, rfl, htold, hlength, hpast, by omega⟩

end Solver

/-! ## Over doubles -/

/-- What a verbose run prints over doubles. -/
theorem Solver.count_printed_run {σ : Type} {solver : Solver Float σ} {guess : Tensor Float}
    {result : Result Float} {style : LogStyle} (hscale : ∀ scale, IsLine (style.scale scale))
    (helapsed : IsLine style.elapsed) (hverbose : solver.verbose = true)
    (h : (solver.run guess).outcome = .ok result) :
    ∃ first past here error, solver.start guess = .ok first ∧ solver.EndsAt first past here error ∧
      (Event.printed (Event.text style) (solver.run guess).log).count '\n' =
        2 + past.length + (past.filter fun s => s.block.isSome).length := by
  obtain ⟨first, past, here, error, hstart, htells⟩ := Solver.exists_tells hverbose h
  exact ⟨first, past, here, error, hstart, htells.endsAt,
    htells.count_lines _ (Event.isLine_text hscale helapsed)⟩

end BoundedFit
