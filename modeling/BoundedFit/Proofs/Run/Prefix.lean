import BoundedFit.Proofs.Run.Report

/-!
# Runs with a smaller cap

The run with a larger cap, cut off.
-/

namespace BoundedFit

/-! ## Cutting a trace off -/

namespace Trace

variable {α : Type}

/-- What a trace shows if the cap is reached after `n` steps. -/
def cut : Nat → Trace α → Trace α
  | _, unevaluated here fault => unevaluated here fault
  | _, exhausted here error => exhausted here error
  | 0, stuck here error _ _ | 0, settled here error | 0, moved here error _ _ => exhausted here error
  | _ + 1, stuck here error block fault => stuck here error block fault
  | _ + 1, settled here error => settled here error
  | n + 1, moved here error block rest => moved here error block (cut n rest)

theorem visits_cut (n : Nat) (t : Trace α) : (t.cut n).visits = t.visits.take (n + 1) := by
  induction t generalizing n with
  | moved here error block rest ih =>
    cases n with
    | zero => simp [cut, visits]
    | succ n => simp [cut, visits, ih]
  | _ => cases n <;> simp [cut, visits]

theorem points_cut (n : Nat) (t : Trace α) : (t.cut n).points = t.points.take (n + 1) := by
  unfold points
  induction t generalizing n with
  | moved here error block rest ih =>
    cases n with
    | zero => simp [cut, iterates]
    | succ n => simp [cut, iterates, ih]
  | _ => cases n <;> simp [cut, iterates]

theorem fault?_cut {t : Trace α} (h : t.fault? = none) (n : Nat) : (t.cut n).fault? = none := by
  induction t generalizing n with
  | unevaluated here fault => cases h
  | stuck here error block fault => cases h
  | settled here error => cases n <;> rfl
  | exhausted here error => cases n <;> rfl
  | moved here error block rest ih =>
    cases n with
    | zero => rfl
    | succ n => exact ih h n

end Trace

namespace Solver

section Cap

variable {α σ : Type} [Add α] [Sub α] [Mul α] [Div α] [Neg α] [Zero α] [One α]
  [LT α] [LE α] [DecidableLT α] [DecidableLE α] [OfScientific α] {solver : Solver α σ}

/-- The same solver with another cap. -/
def capped (solver : Solver α σ) (cap : Nat) : Solver α σ := { solver with maxIterations := cap }

/-- A trace of at most `n` steps is a longer one, cut off. -/
theorem trace_eq_cut {n m : Nat} (h : n ≤ m) (here : Iterate α) (state : σ) :
    solver.trace n here state = (solver.trace m here state).cut n := by
  induction n generalizing m here state with
  | zero =>
    cases m with
    | zero =>
      unfold trace
      split <;> rfl
    | succ m =>
      unfold trace
      split
      · rfl
      · split
        · rfl
        · dsimp only
          split <;> rfl
  | succ n ih =>
    cases m with
    | zero => exact absurd h (Nat.not_succ_le_zero n)
    | succ m =>
      unfold trace
      split
      · rfl
      · split
        · rfl
        · dsimp only
          split
          · rfl
          · rename_i next state' _
            rw [Trace.cut, ← ih (Nat.le_of_succ_le_succ h)]

theorem trace_capped (solver : Solver α σ) (cap n : Nat) (here : Iterate α) (state : σ) :
    (solver.capped cap).trace n here state = solver.trace n here state := by
  induction n generalizing here state with
  | zero => rfl
  | succ n ih =>
    unfold trace
    simp only [ih]
    rfl

theorem traceFrom_capped {cap : Nat} (hcap : cap ≤ solver.maxIterations) (first : Iterate α) :
    (solver.capped cap).traceFrom first = (solver.traceFrom first).cut cap := by
  unfold traceFrom
  rw [trace_capped]
  exact trace_eq_cut hcap first solver.problem.fresh

end Cap

/-! ## Results -/

theorem runningLeast_take {α : Type} [Zero α] [LT α] [DecidableLT α] [Scalar α] (least : Option α)
    (errors : List α) (n : Nat) :
    runningLeast least (errors.take n) = (runningLeast least errors).take n := by
  induction errors generalizing least n with
  | nil => simp [runningLeast]
  | cons e errors ih =>
    cases n with
    | zero => rfl
    | succ n => simp [runningLeast, ih]

theorem kind_acceptAll_ne_singular {α : Type} [Add α] [Sub α] [Mul α] [Neg α] [Zero α] [One α]
    [LT α] [DecidableLT α] [OfScientific α] {bounds : List (Bound α)} {x : List α} {fault : Fault α}
    (h : acceptAll bounds x = .error fault) : fault.kind ≠ .singular := by
  unfold acceptAll at h
  induction bounds with
  | nil => cases h
  | cons b bounds ih =>
    rcases hb : b.accept x with fault' | u
    · simp only [List.forM, hb, bind, Except.bind] at h
      obtain rfl := Except.error.inj h
      unfold Bound.accept Bound.violation Bound.slack coordinate at hb
      split at hb
      · simp only [Except.map, bind, Except.bind] at hb
        split at hb
        · obtain rfl := Except.error.inj hb
          nofun
        · cases hb
      · obtain rfl := Except.error.inj hb
        unfold Fault.noPosition
        split
        · nofun
        · split <;> nofun
    · simp only [List.forM, hb, bind, Except.bind] at h
      exact ih h

/-- One reported error is at most another, where no error stands for infinity. -/
def AtMost {α : Type} [LE α] : Option α → Option α → Prop
  | _, none => True
  | none, some _ => False
  | some e, some e' => e ≤ e'

theorem atMost_of_isLeastError {α : Type} [Zero α] [LT α] [LE α] [DecidableLT α] [DecidableLE α]
    [Scalar α] [FloatOrder α] {fewer errors : List α} (hsub : ∀ e ∈ fewer, e ∈ errors)
    {least other : Option α} (h : IsLeastError errors least) (hother : IsLeastError fewer other) :
    AtMost least other := by
  cases other with
  | none => cases least <;> exact trivial
  | some e =>
    obtain ⟨hmem, hbelow, -⟩ := hother
    have hself := le_self_of_improves_none (improves_none_iff.mpr hbelow)
    have hcomparable := isComparable_iff.mpr hself
    cases least with
    | none =>
      obtain ⟨hinfinite, hpos⟩ := h e (hsub e hmem) hcomparable
      rcases hbelow with hfinite | hneg
      · rw [hinfinite] at hfinite
        cases hfinite
      · exact absurd hneg hpos
    | some m => exact h.2.2 e (hsub e hmem) hcomparable

section Result

variable {α σ : Type} [Add α] [Sub α] [Mul α] [Div α] [Neg α] [Zero α] [One α]
  [LT α] [LE α] [DecidableLT α] [DecidableLE α] [OfScientific α] [Scalar α] {solver : Solver α σ}
  {first : Iterate α} {guess : Tensor α} {result : Result α} {cap : Nat}

theorem acceptAll_of_optimize (hstart : solver.start guess = .ok first)
    (hfault : (solver.traceFrom first).fault? = none) {fault : Fault α}
    (h : solver.optimize guess = .error fault) :
    acceptAll solver.bounds (best first.point (solver.traceFrom first)).point = .error fault := by
  rw [optimize_of_start hstart] at h
  unfold conclude at h
  rw [hfault] at h
  rcases haccept : acceptAll solver.bounds (best first.point (solver.traceFrom first)).point
    with fault' | u
  · rw [haccept] at h
    rw [Except.error.inj h]
  · rw [haccept] at h
    cases h

omit [Scalar α] in
theorem errors_capped (hcap : cap ≤ solver.maxIterations) (first : Iterate α) :
    ((solver.capped cap).traceFrom first).errors =
      (solver.traceFrom first).errors.take (cap + 1) := by
  unfold Trace.errors
  rw [traceFrom_capped hcap, Trace.visits_cut, List.map_take]

/-- If the run returns with a larger cap, with a smaller one it evaluates the first of its points and
reports the first of its errors, or its best point so far is refused. -/
theorem optimize_capped [FloatOrder α] (h : solver.optimize guess = .ok result)
    (hcap : cap ≤ solver.maxIterations) :
    ∃ first, solver.start guess = .ok first ∧ (solver.capped cap).start guess = .ok first ∧
      ((solver.capped cap).traceFrom first).points =
        (solver.traceFrom first).points.take (cap + 1) ∧
      (∀ fault, (solver.capped cap).optimize guess = .error fault →
        acceptAll solver.bounds (best first.point ((solver.capped cap).traceFrom first)).point =
            .error fault ∧
          fault.kind ≠ .singular) ∧
      ∀ other, (solver.capped cap).optimize guess = .ok other →
        other.errors = result.errors.take (cap + 1) ∧
          other.bestErrors = result.bestErrors.take (cap + 1) ∧ AtMost result.error other.error := by
  obtain ⟨first, hstart⟩ := exists_start_of_optimize h
  -- A guess is clamped before the cap matters.
  have hstart' : (solver.capped cap).start guess = .ok first := hstart
  obtain ⟨hfault, -, rfl⟩ := of_optimize_eq_ok hstart h
  have hfault' : ((solver.capped cap).traceFrom first).fault? = none := by
    rw [traceFrom_capped hcap]
    exact Trace.fault?_cut hfault cap
  refine ⟨first, hstart, hstart', ?_, fun fault hrefused => ?_, fun other hother => ?_⟩
  · rw [traceFrom_capped hcap, Trace.points_cut]
  · have haccept := acceptAll_of_optimize hstart' hfault' hrefused
    exact ⟨haccept, kind_acceptAll_ne_singular haccept⟩
  · obtain ⟨-, -, rfl⟩ := of_optimize_eq_ok hstart' hother
    have herrors := errors_capped hcap first
    refine ⟨herrors, ?_, ?_⟩
    · unfold summary
      dsimp only
      rw [herrors, runningLeast_take]
    · refine atMost_of_isLeastError ?_ (isBest_best first.point (solver.traceFrom first)).least
        (isBest_best first.point ((solver.capped cap).traceFrom first)).least
      intro e he
      have he' : e ∈ ((solver.capped cap).traceFrom first).errors := he
      rw [herrors] at he'
      exact List.mem_of_mem_take he'

end Result

theorem optimize_faltered_capped :
    2 ≤ faltered.maxIterations ∧
      ∃ result other, faltered.optimize (.ofVector [0]) = .ok result ∧
        (faltered.capped 2).optimize (.ofVector [0]) = .ok other ∧
        result.errors = [0 / 0, 1 / 0, 4, 9, 1e-9] ∧ other.errors = result.errors.take 3 ∧
        other.bestErrors = result.bestErrors.take 3 ∧ other.error = some 4 ∧
        AtMost result.error other.error := by
  have hcap : 2 ≤ faltered.maxIterations := by decide
  have hrun : (faltered.optimize (.ofVector [0])).toOption.map Result.errors =
      some [0 / 0, 1 / 0, 4, 9, 1e-9] := by decide +kernel
  have hrun' : ((faltered.capped 2).optimize (.ofVector [0])).toOption.map Result.error =
      some (some 4) := by decide +kernel
  rcases hresult : faltered.optimize (.ofVector [0]) with fault | result
  · rw [hresult] at hrun
    cases hrun
  rcases hother : (faltered.capped 2).optimize (.ofVector [0]) with fault | other
  · rw [hother] at hrun'
    cases hrun'
  rw [hresult] at hrun
  rw [hother] at hrun'
  obtain ⟨first, -, -, -, -, hreports⟩ := optimize_capped hresult hcap
  obtain ⟨herrors, hbest, hle⟩ := hreports other hother
  exact ⟨hcap, result, other, rfl, rfl, Option.some.inj hrun, herrors, hbest, Option.some.inj hrun', hle⟩

end Solver

end BoundedFit
