import BoundedFit.Proofs.Block
import BoundedFit.Proofs.Clamp
import BoundedFit.Proofs.Run.Visits
import BoundedFit.Proofs.Step

/-!
# Steps of another length

They go unnoticed only if a length is one.
-/

namespace BoundedFit

/-! ## Lengths along a step -/

theorem ActiveSet.exists_same_index {α : Type} [LE α] [DecidableLE α] {active : ActiveSet α}
    {b : Bound α} (h : active.contains b = true) : ∃ c ∈ active.members, c.index = b.index := by
  obtain ⟨c, hc, hsame⟩ := List.any_eq_true.mp h
  unfold Bound.same at hsame
  simp only [Bool.and_eq_true, beq_iff_eq] at hsame
  exact ⟨c, hc, hsame.1.1.symm⟩

section Land

variable {α : Type} [Add α] [Mul α] [LT α] [LE α] [DecidableLT α] [DecidableLE α]
  {x delta : List α} {active : ActiveSet α} {block : Option (Block α)} {next : Iterate α}

theorem length_land (h : Iterate.land ⟨x, active⟩ delta block = .ok next) :
    (x.length = delta.length ∨ x.length = 1 ∨ delta.length = 1) ∧
      next.point.length = if x.length = 1 then delta.length else x.length := by
  unfold Iterate.land at h
  split at h
  · cases h
  · rename_i point hpoint
    obtain rfl := Except.ok.inj h
    have hlengths := Vec.of_zipStretched?_eq_some hpoint
    rw [length_shorten] at hlengths
    cases block with
    | none => exact hlengths
    | some stop => simpa [Iterate.pin] using hlengths

theorem exists_land (active : ActiveSet α) (block : Option (Block α))
    (h : x.length = delta.length ∨ x.length = 1 ∨ delta.length = 1) :
    ∃ next, Iterate.land ⟨x, active⟩ delta block = .ok next := by
  obtain ⟨point, hpoint⟩ := Vec.exists_zipStretched? (· + ·) (u := x) (v := shorten delta block)
    (by rwa [length_shorten])
  unfold Iterate.land
  rw [hpoint]
  exact ⟨_, rfl⟩

end Land

theorem DenseState.lt_of_step {α : Type} [Add α] [Sub α] [Mul α] [Div α] [Neg α] [Zero α] [One α]
    [LT α] [DecidableLT α] [Scalar α] {s : DenseState α} {damping : α} {active : ActiveSet α}
    {delta : List α} (h : (s.step damping active).1 = .ok delta) :
    ∀ b ∈ active.members, b.index < s.jacobian.cols := by
  rcases step_cases h with ⟨hnil, -, -⟩ | ⟨free, released, hfree, -, -⟩
  · rw [hnil]
    exact List.forall_mem_nil _
  · exact (ActiveSet.of_freeMask_eq_ok hfree).1

/-! ## Stretched steps -/

namespace FunctionProblem

variable {α : Type} {p : FunctionProblem α} {n m : Nat}

/-- A step of length `m` from a point of length `n` is of another length and goes unnoticed: every bound
finds its component, and either the step is stretched, or the point is and the longer one accepted. -/
structure Stretches (p : FunctionProblem α) (bounds : List (Bound α)) (n m : Nat) : Prop where
  ne : m ≠ n
  covered : ∀ b ∈ bounds, b.index < m
  one : m = 1 ∨ n = 1 ∧ p.numVariables = none

theorem checkShape_of_evaluate {x : List α} {before state : DenseState α}
    (h : p.evaluate (.ofVector x) before = .ok state) : p.checkShape [x.length] = .ok () := by
  unfold evaluate at h
  rcases hcheck : p.checkShape (Tensor.ofVector x).shape with fault | u
  · simp [hcheck, bind, Except.bind] at h
  · exact hcheck

theorem eq_or_none_of_checkShape (hn : p.checkShape [n] = .ok ()) (hm : p.checkShape [m] = .ok ()) :
    m = n ∨ p.numVariables = none := by
  unfold checkShape at hn hm
  rcases hvariables : p.numVariables with _ | k
  · exact .inr rfl
  · simp only [hvariables, List.map_cons, List.map_nil, List.cons.injEq, and_true] at hn hm
    split at hn
    · rename_i hn'
      split at hm
      · rename_i hm'
        exact .inl (Int.ofNat.inj (hm'.trans hn'.symm))
      · cases hm
    · cases hn

theorem checkShape_of_none (h : p.numVariables = none) (shape : List Nat) :
    p.checkShape shape = .ok () := by
  simp [checkShape, h]

end FunctionProblem

namespace Solver

variable {α : Type} [Add α] [Sub α] [Mul α] [Div α] [Neg α] [Zero α] [One α]
  [LT α] [LE α] [DecidableLT α] [DecidableLE α] [OfScientific α]

theorem Performs.length_next_eq {σ : Type} {solver : Solver α σ} {before : σ} {s : Stage α σ}
    (hs : solver.Performs before s) :
    (s.here.point.length = s.delta.length ∨ s.here.point.length = 1 ∨ s.delta.length = 1) ∧
      s.next.point.length =
        if s.here.point.length = 1 then s.delta.length else s.here.point.length :=
  length_land hs.landed

variable [Scalar α] {solver : Solver α (DenseState α)} {first here : Iterate α}
  {past : List (Stage α (DenseState α))} {before state : DenseState α}
  {s : Stage α (DenseState α)} {p : FunctionProblem α} {x : List α}

theorem Performs.covered (hproblem : solver.problem = p.toProblem) (hs : solver.Performs before s) :
    s.delta.length = s.state.jacobian.cols ∧ ∀ b ∈ solver.bounds, b.index < s.delta.length := by
  obtain ⟨hstep, -⟩ := hs.step_ofDense hproblem
  have hdelta := congrArg Prod.fst hstep
  obtain ⟨hlength, -, hkept⟩ := DenseState.of_step_eq_ok hdelta
  rw [hstep] at hkept
  refine ⟨hlength, fun b hb => ?_⟩
  by_cases hact : s.kept.contains b = true
  · obtain ⟨c, hc, hindex⟩ := ActiveSet.exists_same_index hact
    rw [hlength, ← hindex]
    exact DenseState.lt_of_step hdelta c (hkept c hc)
  · exact lt_of_closestBlock hs.stopped b hb hact

theorem Runs.covers (hproblem : solver.problem = p.toProblem)
    (hruns : solver.Runs first past here before)
    (hlong : ∀ b ∈ solver.bounds, b.index < first.point.length) :
    ∀ b ∈ solver.bounds, b.index < here.point.length := by
  induction hruns with
  | start => exact hlong
  | step _ _ hs ih =>
    intro b hb
    rw [hs.length_next_eq.2]
    split
    · exact (hs.covered hproblem).2 b hb
    · exact ih b hb

omit [LE α] [DecidableLE α] [OfScientific α] in
theorem checkShape_of_errorAt (hproblem : solver.problem = p.toProblem) {error : α}
    (h : solver.problem.errorAt here.point before = .ok (error, state)) :
    p.checkShape [here.point.length] = .ok () := by
  rw [hproblem] at h
  have heval : p.evaluate (.ofVector here.point) before = .ok state :=
    (Problem.errorAt_eq_ok_iff.mp h).1
  exact FunctionProblem.checkShape_of_evaluate heval

theorem Asks.stretches_or_fault (hproblem : solver.problem = p.toProblem)
    (hasks : solver.Asks first here state) (hne : state.jacobian.cols ≠ here.point.length) :
    p.Stretches solver.bounds here.point.length state.jacobian.cols ∨
      ∃ fault, (solver.traceFrom first).fault? = some fault := by
  rcases hnext : (solver.advance here state).next with fault | ⟨next, after⟩
  · exact .inr ⟨fault, fault_of_advance hasks hnext⟩
  obtain ⟨past, before, hruns, hlt, hcontinues⟩ := hasks
  obtain ⟨s, hs, rfl, rfl, rfl, rfl⟩ := performs_of_advance hcontinues hnext
  rcases heval : solver.problem.errorAt s.next.point s.after with fault | ⟨error, later⟩
  · exact .inr ⟨fault, fault_of_errorAt (hruns.step hlt hs) heval⟩
  left
  obtain ⟨hcols, hcovered⟩ := hs.covered hproblem
  obtain ⟨hlengths, hnextlength⟩ := hs.length_next_eq
  rw [hcols] at hcovered hlengths hnextlength
  refine ⟨hne, hcovered, ?_⟩
  rcases hlengths with h | hone | hone
  · exact absurd h.symm hne
  · -- The point was stretched, so the problem has accepted two lengths.
    rw [if_pos hone] at hnextlength
    obtain ⟨error', heval', -⟩ := hs.continues
    have hhere := checkShape_of_errorAt hproblem heval'
    have haccepted := checkShape_of_errorAt hproblem heval
    rw [hnextlength] at haccepted
    exact .inr ⟨hone, (FunctionProblem.eq_or_none_of_checkShape hhere haccepted).resolve_left hne⟩
  · exact .inl hone

theorem Asks.exists_advance (hproblem : solver.problem = p.toProblem)
    (hlong : ∀ b ∈ solver.bounds, b.index < first.point.length)
    (hasks : solver.Asks first here state)
    (hstretches : p.Stretches solver.bounds here.point.length state.jacobian.cols) {delta : List α}
    (hdelta : (state.step solver.damping here.active).1 = .ok delta) :
    ∃ next, (solver.advance here state).next = .ok (next, state) ∧
      p.checkShape [next.point.length] = .ok () := by
  obtain ⟨past, before, hruns, hlt, error, heval, -⟩ := hasks
  have hlength := (DenseState.of_step_eq_ok hdelta).1
  have hcovers := hruns.covers hproblem hlong
  obtain ⟨block, hblock⟩ := exists_closestBlock (state.step solver.damping here.active).2
    (fun b hb _ => hcovers b hb) (fun b hb _ => hlength ▸ hstretches.covered b hb)
  have hlengths : here.point.length = delta.length ∨ here.point.length = 1 ∨ delta.length = 1 := by
    rw [hlength]
    exact .inr (hstretches.one.symm.imp_left And.left)
  obtain ⟨next, hland⟩ := exists_land (state.step solver.damping here.active).2 block hlengths
  have hadvance : (solver.advance here state).next = .ok (next, state) := by
    unfold advance
    rw [hproblem]
    simp only [FunctionProblem.toProblem, Problem.ofDense, hdelta, hblock, hland, Except.map]
  refine ⟨next, hadvance, ?_⟩
  rw [(length_land hland).2, hlength]
  rcases hstretches.one with hone | ⟨-, hnone⟩
  · rw [if_neg (hone ▸ hstretches.ne.symm)]
    exact checkShape_of_errorAt hproblem heval
  · exact FunctionProblem.checkShape_of_none hnone _

omit [Scalar α] in
theorem Performs.length_next_of_stretches (hs : solver.Performs before s)
    (h : s.delta.length = s.here.point.length ∨
      p.Stretches solver.bounds s.here.point.length s.delta.length ∧
        (s.here.point.length ≠ 1 ∨ p.numVariables ≠ none)) :
    s.next.point.length = s.here.point.length := by
  rw [hs.length_next_eq.2]
  split
  · rename_i hone
    rcases h with h | ⟨hstretches, h⟩
    · exact h
    · rcases hstretches.one with hone' | ⟨-, hnone⟩
      · exact hone'.trans hone.symm
      · exact absurd hnone (h.resolve_left (not_not.mpr hone))
  · rfl

theorem exists_fault_of_asks {guess : Tensor α} (hproblem : solver.problem = p.toProblem)
    (hstart : solver.start guess = .ok first) (hasks : solver.Asks first here state)
    (hne : state.jacobian.cols ≠ here.point.length)
    (hnot : ¬ p.Stretches solver.bounds here.point.length state.jacobian.cols) :
    ∃ fault, solver.optimize guess = .error fault := by
  obtain ⟨fault, hfault⟩ := (hasks.stretches_or_fault hproblem hne).resolve_left hnot
  exact ⟨fault, optimize_of_fault hstart hfault⟩

theorem Takes.length_or_stretches {guess : Tensor α} {result : Result α}
    (hproblem : solver.problem = p.toProblem) (hstart : solver.start guess = .ok first)
    (hresult : solver.optimize guess = .ok result) (htakes : solver.Takes first s) :
    s.delta.length = s.here.point.length ∨
      p.Stretches solver.bounds s.here.point.length s.delta.length := by
  by_cases heq : s.delta.length = s.here.point.length
  · exact .inl heq
  · right
    by_contra hnot
    obtain ⟨past, before, hruns, hlt, hs⟩ := id htakes
    rw [(hs.covered hproblem).1] at heq hnot
    obtain ⟨fault, hfault⟩ := exists_fault_of_asks hproblem hstart htakes.asks heq hnot
    rw [hresult] at hfault
    cases hfault

omit [Scalar α] in
theorem Runs.length_point_of_stretches (hruns : solver.Runs first past here before)
    (htaken : ∀ s, solver.Takes first s → s.delta.length = s.here.point.length ∨
      p.Stretches solver.bounds s.here.point.length s.delta.length)
    (hkept : (∀ s, solver.Takes first s → s.delta.length = s.here.point.length) ∨
      first.point.length ≠ 1 ∨ p.numVariables ≠ none) :
    here.point.length = first.point.length := by
  induction hruns with
  | start => rfl
  | @step past s before hruns hlt hs ih =>
    have htakes : solver.Takes first s := ⟨past, before, hruns, hlt, hs⟩
    rw [← ih] at hkept
    refine (hs.length_next_of_stretches (p := p) ?_).trans ih
    rcases hkept with hall | hkept
    · exact .inl (hall s htakes)
    · exact (htaken s htakes).imp_right fun h => ⟨h, hkept⟩

/-- A run that comes to a step of another length raises unless the step is a stretched one, and takes
it then. -/
theorem lengths_of_start (hproblem : solver.problem = p.toProblem)
    (hstart : solver.start (.ofVector x) = .ok first) :
    (∀ here state, solver.Asks first here state → state.jacobian.cols ≠ here.point.length →
        ¬ p.Stretches solver.bounds here.point.length state.jacobian.cols →
        ∃ fault, solver.optimize (.ofVector x) = .error fault) ∧
      (∀ here state delta, solver.Asks first here state →
        p.Stretches solver.bounds here.point.length state.jacobian.cols →
        (state.step solver.damping here.active).1 = .ok delta →
        ∃ next, (solver.advance here state).next = .ok (next, state) ∧
          p.checkShape [next.point.length] = .ok ()) ∧
      ∀ result, solver.optimize (.ofVector x) = .ok result →
        (∀ s, solver.Takes first s → s.delta.length = s.here.point.length ∨
          p.Stretches solver.bounds s.here.point.length s.delta.length) ∧
        ((∀ s, solver.Takes first s → s.delta.length = s.here.point.length) ∨
            x.length ≠ 1 ∨ p.numVariables ≠ none →
          (∀ y ∈ (solver.traceFrom first).points, y.length = x.length) ∧
            result.solution.length = x.length) := by
  obtain ⟨x', hx, hlong, hfirst⟩ := of_start_eq_ok hstart
  obtain rfl : x = x' := Option.some.inj hx
  have hlength : first.point.length = x.length := hfirst ▸ length_point_clamp solver.bounds x
  refine ⟨?_, ?_, fun result hresult => ?_⟩
  · -- A step that is neither as long as the point nor stretched.
    exact fun here state hasks hne hnot => exists_fault_of_asks hproblem hstart hasks hne hnot
  · -- A stretched step.
    exact fun here state delta hasks hstretches hdelta =>
      hasks.exists_advance hproblem (hlength ▸ hlong) hstretches hdelta
  -- The run returns, so it has taken no other steps than these.
  have htaken : ∀ s, solver.Takes first s → s.delta.length = s.here.point.length ∨
      p.Stretches solver.bounds s.here.point.length s.delta.length :=
    fun s htakes => htakes.length_or_stretches hproblem hstart hresult
  refine ⟨htaken, fun hkept => ?_⟩
  rw [← hlength] at hkept ⊢
  have hall : ∀ y ∈ (solver.traceFrom first).points, y.length = first.point.length := by
    intro y hy
    obtain ⟨it, hit, rfl⟩ := List.mem_map.mp hy
    obtain ⟨past, state, hruns⟩ := runs_of_mem_iterates hit
    exact hruns.length_point_of_stretches htaken hkept
  obtain ⟨-, -, rfl⟩ := of_optimize_eq_ok hstart hresult
  exact ⟨hall, hall _ (best_point_mem solver first)⟩

/-! ## A step that is longer than the point -/

def unitColumns (m : Nat) : Tensor ℚ :=
  ⟨[m, m], (List.range m).flatMap fun i => (List.range m).map fun j => if i = j then 1 else 0, by simp⟩

/-- The distances of the first coordinate from 1, 2 and so on, with a column for each of them. -/
def stairs (m : Nat) : FunctionProblem ℚ where
  residual x := .ok (.ofVector ((List.range m).map fun i => x.entries.headD 0 - (i + 1)))
  jacobian _ := .ok (unitColumns m)
  numVariables := none

def climbStairs (m : Nat) : Solver ℚ (DenseState ℚ) := ⟨(stairs m).toProblem, [], 0, 1, false⟩

theorem asks_climbStairs (m cols : Nat) (guess : List ℚ) (error : ℚ)
    (h : ((climbStairs m).problem.errorAt guess .empty).toOption.map
      (fun found => (found.1, found.2.jacobian.cols)) = some (error, cols))
    (hlarge : ¬ error < convergenceTolerance) :
    ∃ state, (climbStairs m).Asks (clamp [] guess) (clamp [] guess) state ∧
      state.jacobian.cols = cols := by
  rcases heval : (climbStairs m).problem.errorAt guess .empty with fault | ⟨found, state⟩
  · rw [heval] at h
    cases h
  · rw [heval] at h
    obtain ⟨rfl, rfl⟩ := Prod.mk.inj (Option.some.inj h)
    exact ⟨state, ⟨[], _, .start, Nat.zero_lt_one, found, heval, hlarge⟩, rfl⟩

theorem raises_climbStairs :
    (climbStairs 3).start (.ofVector [0, 0]) = .ok (clamp [] [0, 0]) ∧
      (∃ state, (climbStairs 3).Asks (clamp [] [0, 0]) (clamp [] [0, 0]) state ∧
        state.jacobian.cols = 3) ∧
      ∃ fault, (climbStairs 3).optimize (.ofVector [0, 0]) = .error fault := by
  have hstart : (climbStairs 3).start (.ofVector [0, 0]) = .ok (clamp [] [0, 0]) :=
    start_ofVector (List.forall_mem_nil _)
  obtain ⟨state, hasks, hcols⟩ := asks_climbStairs 3 3 [0, 0] 14 (by decide +kernel)
    (by decide +kernel)
  refine ⟨hstart, ⟨state, hasks, hcols⟩, ?_⟩
  refine (lengths_of_start (p := stairs 3) rfl hstart).1 _ state hasks (by rw [hcols]; decide) ?_
  intro hstretches
  rcases hcols ▸ hstretches.one with hone | ⟨hone, -⟩ <;> exact absurd hone (by decide)

theorem longer_climbStairs :
    make (stairs 2).toProblem [] ⟨0, 1, false⟩ = .ok (climbStairs 2) ∧
      (∃ state, (climbStairs 2).Asks (clamp [] [0]) (clamp [] [0]) state ∧
        state.jacobian.cols = 2) ∧
      ((climbStairs 2).optimize (.ofVector [0])).toOption.map Result.solution = some [1, 2] :=
  ⟨make_of_isOk _ (by decide) (by decide) (by decide),
    asks_climbStairs 2 2 [0] 5 (by decide +kernel) (by decide +kernel), by decide +kernel⟩

end Solver

end BoundedFit
