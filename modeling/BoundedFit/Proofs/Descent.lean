import BoundedFit.Proofs.Run.Visits
import BoundedFit.Proofs.Minimum

/-!
# Descent on linear problems

From a feasible point a step is downhill all the way.
-/

namespace BoundedFit

variable {α : Type} [Field α] [LinearOrder α]

/-- The error does not rise from one visit to the next, and falls if the point moves. -/
def Descends (visit next : List α × α) : Prop :=
  next.2 ≤ visit.2 ∧ (next.1 ≠ visit.1 → next.2 < visit.2)

theorem pos_of_moved {x delta : List α} {t : α} (h0 : 0 ≤ t) (hlength : delta.length = x.length)
    (h : List.zipWith (fun v step => v + step * t) x delta ≠ x) :
    0 < t ∧ ∃ a ∈ delta, a ≠ 0 := by
  by_contra hnot
  rw [not_and_or] at hnot
  push Not at hnot
  apply h
  apply List.ext_getElem
  · simp [hlength]
  · intro i _ hi
    rw [List.getElem_zipWith]
    rcases hnot with ht | hzero
    · obtain rfl := le_antisymm ht h0
      rw [mul_zero, add_zero]
    · rw [hzero _ (List.getElem_mem _), zero_mul, add_zero]

variable [Scalar α]

/-! ## The best of falling errors -/

section Best

variable [ExactScalar α]

theorem Best.error_update {best : Best α} {visit : List α × α}
    (h : ∀ e ∈ best.error, visit.2 ≤ e) : (best.update visit).error = some visit.2 := by
  unfold update
  split
  · rfl
  · rename_i hkept
    rcases hbest : best.error with _ | e
    · simp [improves, hbest, ExactScalar.isFinite_eq] at hkept
    · have hle := h e hbest
      simp [improves, hbest] at hkept
      rw [le_antisymm hle hkept]

theorem Best.error_foldl_update {visits : List (List α × α)} (hchain : visits.IsChain Descends)
    {best : Best α} (hbest : ∀ e ∈ best.error, ∀ visit ∈ visits.head?, visit.2 ≤ e)
    {last : List α × α} (hlast : visits.getLast? = some last) :
    (visits.foldl Best.update best).error = some last.2 := by
  induction visits generalizing best with
  | nil => cases hlast
  | cons visit visits ih =>
    have hupdate : (best.update visit).error = some visit.2 :=
      error_update fun e he => hbest e he visit rfl
    rw [List.foldl_cons]
    rcases visits with _ | ⟨next, visits⟩
    · obtain rfl := Option.some.inj hlast
      exact hupdate
    · rw [List.isChain_cons_cons] at hchain
      rw [List.getLast?_cons_cons] at hlast
      refine ih hchain.2 (fun e he v hv => ?_) hlast
      rw [hupdate] at he
      obtain rfl := Option.some.inj he
      obtain rfl := Option.some.inj hv
      exact hchain.1.1

end Best

namespace LinearProblem

variable {p : LinearProblem α} {x : List α} {before state : DenseState α} {error : α}

theorem of_errorAt_eq_ok (h : p.toProblem.errorAt x before = .ok (error, state)) :
    x.length = p.numVariables ∧ state = p.stateAt x ∧ error = p.squaredError x := by
  obtain ⟨heval, rfl⟩ := Problem.errorAt_eq_ok_iff.mp h
  have heval' : p.evaluate (.ofVector x) before = .ok state := heval
  obtain ⟨hlength, rfl⟩ := of_evaluate_eq_ok heval'
  exact ⟨hlength, rfl, rfl⟩

theorem errorAt_eq (hx : x.length = p.numVariables) :
    p.toProblem.errorAt x before = .ok (p.squaredError x, p.stateAt x) := by
  refine Problem.errorAt_eq_ok_iff.mpr ⟨?_, rfl⟩
  have heval : p.evaluate (.ofVector x) before = .ok (p.stateAt x) := by
    unfold evaluate
    simp only [Tensor.toVector?_ofVector, hx, if_true]
    rfl
  exact heval

theorem stepFits {here : Iterate α} {damping : α} {delta : List α}
    (hlength : here.point.length = p.numVariables)
    (h : ((p.stateAt here.point).step damping here.active).1 = .ok delta) :
    StepFits here delta ((p.stateAt here.point).step damping here.active).2 :=
  DenseState.stepFits hlength.symm h

end LinearProblem

namespace Solver

variable [IsStrictOrderedRing α] [ExactScalar α] {solver : Solver α (DenseState α)}
  {p : LinearProblem α}

/-! ## One iteration -/

theorem exists_advance_descends (hproblem : solver.problem = p.toProblem)
    (hdamping : 0 ≤ solver.damping) {here : Iterate α} (hlength : here.point.length = p.numVariables)
    (hfeasible : Feasible solver.bounds here.point) {delta : List α}
    (hdelta : ((p.stateAt here.point).step solver.damping here.active).1 = .ok delta) :
    ∃ next, (solver.advance here (p.stateAt here.point)).next = .ok (next, p.stateAt here.point) ∧
      Descends (here.point, p.squaredError here.point) (next.point, p.squaredError next.point) := by
  obtain ⟨block, next, hclosest, hland, hadvance⟩ :=
    exists_advance hproblem hdelta hlength.symm hfeasible.lt_length
  have hfits := LinearProblem.stepFits hlength hdelta
  have h0 := hclosest.limit_nonneg hfeasible
  have hfall := p.squaredError_add_le hlength hdamping hdelta h0 hclosest.limit_le_one
  rw [← point_land hland hfits.length_eq hclosest] at hfall
  refine ⟨next, by rw [hadvance], ?_, fun hmoved => ?_⟩
  · have hdamped := mul_nonneg hdamping (Vec.dot_self_nonneg delta)
    have himage := Vec.dot_self_nonneg (p.matrix.mulVec delta)
    exact (le_add_of_nonneg_right (mul_nonneg h0 (add_nonneg hdamped himage))).trans hfall
  · dsimp only at hmoved ⊢
    rw [point_land hland hfits.length_eq hclosest] at hmoved
    obtain ⟨hpos, hne⟩ := pos_of_moved h0 hfits.length_eq hmoved
    have hform := DenseState.definite_of_step hdelta delta (hfits.length_eq.trans hlength)
      hfits.pinned hne
    exact (lt_add_of_pos_right _ (mul_pos hpos hform)).trans_le hfall

/-! ## Whole runs -/

theorem isChain_descends (hproblem : solver.problem = p.toProblem) (hdamping : 0 ≤ solver.damping)
    {first : Iterate α}
    (hfeasible : ∀ visit ∈ (solver.traceFrom first).visits, Feasible solver.bounds visit.1) :
    (solver.traceFrom first).visits.IsChain Descends := by
  refine isChain_visits fun past before s error error' state hruns hs heval _ heval' => ?_
  have hvisit : (solver.traceFrom first).visits[past.length]? = some (s.here.point, error) :=
    getElem?_visits_iff.mpr ⟨past, s.here, before, s.state, rfl, hruns, rfl, heval⟩
  have hhere := hfeasible _ (List.mem_of_getElem? hvisit)
  rw [hproblem] at heval heval'
  obtain ⟨hlength, hstate, rfl⟩ := LinearProblem.of_errorAt_eq_ok heval
  obtain ⟨-, -, rfl⟩ := LinearProblem.of_errorAt_eq_ok heval'
  obtain ⟨hstep, -⟩ := hs.step_ofDense hproblem
  rw [hstate] at hstep
  obtain ⟨next, hnext, hdescends⟩ :=
    exists_advance_descends hproblem hdamping hlength hhere (congrArg Prod.fst hstep)
  rw [← hstate, advance_of_performs hs] at hnext
  obtain rfl := congrArg Prod.fst (Except.ok.inj hnext)
  exact hdescends

/-- On a linear problem, an iteration from a feasible point never raises the error, and lowers it if
it moves the point. -/
theorem squaredError_descends (hproblem : solver.problem = p.toProblem)
    (hdamping : 0 ≤ solver.damping) :
    (∀ (here : Iterate α) (delta : List α), here.point.length = p.numVariables →
      Feasible solver.bounds here.point →
      ((p.stateAt here.point).step solver.damping here.active).1 = .ok delta →
      ∃ next, (solver.advance here (p.stateAt here.point)).next = .ok (next, p.stateAt here.point) ∧
        p.squaredError next.point ≤ p.squaredError here.point ∧
        (next.point ≠ here.point → p.squaredError next.point < p.squaredError here.point)) ∧
    ∀ (guess : Tensor α) (first : Iterate α), solver.start guess = .ok first →
      (∀ visit ∈ (solver.traceFrom first).visits, Feasible solver.bounds visit.1) →
      (∀ visit ∈ (solver.traceFrom first).visits, visit.2 = p.squaredError visit.1) ∧
      (solver.traceFrom first).visits.IsChain Descends ∧
      ∀ result, solver.optimize guess = .ok result →
        result.errors = (solver.traceFrom first).visits.map Prod.snd ∧
        ∃ last, (solver.traceFrom first).visits.getLast? = some last ∧
          result.error = some last.2 := by
  refine ⟨fun here delta hlength hhere hdelta => ?_, fun guess first hstart hfeasible => ?_⟩
  · exact exists_advance_descends hproblem hdamping hlength hhere hdelta
  have hchain := isChain_descends hproblem hdamping hfeasible
  refine ⟨fun visit hvisit => ?_, hchain, fun result hresult => ?_⟩
  · obtain ⟨n, hn⟩ := List.mem_iff_getElem?.mp hvisit
    obtain ⟨past, here, before, state, -, -, hpoint, heval⟩ := evaluates_of_getElem? hn
    rw [hproblem, hpoint] at heval
    exact (LinearProblem.of_errorAt_eq_ok heval).2.2
  · obtain ⟨hfault, -, rfl⟩ := of_optimize_eq_ok hstart hresult
    obtain ⟨error, hlast⟩ := Trace.getLast?_visits hfault
    refine ⟨rfl, _, hlast, ?_⟩
    have hnone : ∀ e ∈ (⟨first.point, none⟩ : Best α).error,
        ∀ visit ∈ (solver.traceFrom first).visits.head?, visit.2 ≤ e := fun e he => by cases he
    exact Best.error_foldl_update hchain hnone hlast

theorem squaredError_nearest (u w : ℝ) : nearest.squaredError [u, w] = u * u + (w - 2) * (w - 2) := by
  simp [LinearProblem.squaredError, LinearProblem.stateAt, LinearProblem.residual, DenseState.error,
    nearest, DenseMatrix.mulVec, Vec.dot, Vec.sum]

theorem definite_nearest : nearest.matrix.Definite 0 := by
  rintro v hv ⟨a, ha, hne⟩
  obtain ⟨u, w, rfl⟩ : ∃ u w, v = [u, w] := List.length_eq_two.mp hv
  simp only [nearest, DenseMatrix.mulVec, Vec.dot, Vec.sum]
  norm_num
  rcases List.mem_pair.mp ha with rfl | rfl
  · exact add_pos_of_pos_of_nonneg (mul_self_pos.mpr hne) (mul_self_nonneg w)
  · exact add_pos_of_nonneg_of_pos (mul_self_nonneg u) (mul_self_pos.mpr hne)

theorem step_nearest (u w : ℝ) :
    (nearest.stateAt [u, w]).step 0 .empty = (.ok [-u, 2 - w], .empty) := by
  have hdef : (nearest.stateAt [u, w]).Definite 0 .empty :=
    fun v hv _ hne => definite_nearest v hv hne
  obtain ⟨delta, hdelta⟩ := DenseState.exists_step le_rfl rfl (fun b hb => by cases hb) hdef
  obtain ⟨s, t, rfl⟩ : ∃ s t, delta = [s, t] :=
    List.length_eq_two.mp (DenseState.of_step_eq_ok hdelta).1
  have hs := DenseState.slope_of_step hdelta (i := 0) Nat.two_pos (fun b hb => by cases hb)
  have ht := DenseState.slope_of_step hdelta (i := 1) Nat.one_lt_two (fun b hb => by cases hb)
  simp [LinearProblem.stateAt, nearest, LinearProblem.residual, DenseMatrix.slope,
    DenseMatrix.mulVec, DenseMatrix.transposeMulVec, DenseMatrix.columns, DenseMatrix.column,
    Vec.dot, Vec.sum, List.range_succ] at hs ht
  obtain rfl : s = -u := by linarith
  obtain rfl : t = 2 - w := by linarith
  exact Prod.ext hdelta rfl

noncomputable def nearestFromAbove : Solver ℝ (DenseState ℝ) :=
  ⟨nearest.toProblem, [⟨0, 1, .lower⟩], 0, 1, false⟩

theorem advance_nearestFromAbove :
    nearestFromAbove.advance ⟨[3, 0], .empty⟩ (nearest.stateAt [3, 0]) =
      ⟨some ⟨⟨0, 1, .lower⟩, 2 / 3⟩,
        .ok (⟨[1, 4 / 3], ⟨[⟨0, 1, .lower⟩]⟩⟩, nearest.stateAt [3, 0])⟩ := by
  have hstep := step_nearest 3 0
  rw [sub_zero] at hstep
  have hblock : closestBlock nearestFromAbove.bounds [3, 0] [-3, 2] .empty =
      .ok (some ⟨⟨0, 1, .lower⟩, 2 / 3⟩) := by
    norm_num [nearestFromAbove, closestBlock, closerBlock, ActiveSet.contains, ActiveSet.empty,
      coordinate, bind, Except.bind, Bound.crossing?, Side.orient, Block.limit, pure, Except.pure,
      Scalar.abs, negligibleStep]
  have hland : Iterate.land (α := ℝ) ⟨[3, 0], .empty⟩ [-3, 2] (some ⟨⟨0, 1, .lower⟩, 2 / 3⟩) =
      .ok ⟨[1, 4 / 3], ⟨[⟨0, 1, .lower⟩]⟩⟩ := by
    norm_num [Iterate.land, Vec.zipStretched?, Iterate.pin, shorten, ActiveSet.insert,
      ActiveSet.contains, ActiveSet.empty, ActiveSet.insertSorted]
  have hproposal : nearestFromAbove.problem.step nearestFromAbove.damping .empty
      (nearest.stateAt [3, 0]) = ⟨.ok [-3, 2], .empty, nearest.stateAt [3, 0]⟩ := by
    simp only [nearestFromAbove, LinearProblem.toProblem, Problem.ofDense, hstep]
  unfold advance
  simp only [hproposal, hblock, hland, Except.map]

theorem traceFrom_nearestFromAbove :
    nearestFromAbove.traceFrom ⟨[3, 0], .empty⟩ =
      .moved ⟨[3, 0], .empty⟩ 13 (some ⟨⟨0, 1, .lower⟩, 2 / 3⟩)
        (.exhausted ⟨[1, 4 / 3], ⟨[⟨0, 1, .lower⟩]⟩⟩ (13 / 9)) := by
  have heval (u w error : ℝ) (before : DenseState ℝ) (h : u * u + (w - 2) * (w - 2) = error) :
      nearestFromAbove.problem.errorAt [u, w] before = .ok (error, nearest.stateAt [u, w]) :=
    Problem.errorAt_eq_ok_iff.mpr ⟨rfl, (squaredError_nearest u w).trans h⟩
  have hfirst := fun before => heval 3 0 13 before (by norm_num)
  have hsecond := fun before => heval 1 (4 / 3) (13 / 9) before (by norm_num)
  have hlarge : ¬ (13 : ℝ) < convergenceTolerance := by norm_num [convergenceTolerance]
  have hcap : nearestFromAbove.maxIterations = 1 := rfl
  simp only [traceFrom, hcap, trace, hfirst, hlarge, advance_nearestFromAbove, hsecond, if_false]

theorem descends_nearestFromAbove :
    (nearestFromAbove.traceFrom ⟨[3, 0], .empty⟩).visits.IsChain Descends ∧
      ∃ result, nearestFromAbove.optimize (.ofVector [3, 0]) = .ok result ∧
        result.errors = [13, 13 / 9] ∧ result.error = some (13 / 9) := by
  have hvisits : (nearestFromAbove.traceFrom ⟨[3, 0], .empty⟩).visits =
      [([3, 0], 13), ([1, 4 / 3], 13 / 9)] := by rw [traceFrom_nearestFromAbove]; rfl
  have hfault : (nearestFromAbove.traceFrom ⟨[3, 0], .empty⟩).fault? = none := by
    rw [traceFrom_nearestFromAbove]; rfl
  have hstart : nearestFromAbove.start (.ofVector [3, 0]) = .ok ⟨[3, 0], .empty⟩ := by
    rw [start_ofVector (by simp [nearestFromAbove])]
    norm_num [clamp, nearestFromAbove, Iterate.clampTo, Bound.gap, Side.orient]
  have hfeasible : ∀ visit ∈ (nearestFromAbove.traceFrom ⟨[3, 0], .empty⟩).visits,
      Feasible nearestFromAbove.bounds visit.1 := by
    rw [hvisits]
    norm_num [nearestFromAbove, Feasible, Bound.holds_iff, Bound.gap, Side.orient]
  obtain ⟨-, hrun⟩ := squaredError_descends (rfl : nearestFromAbove.problem = nearest.toProblem) le_rfl
  obtain ⟨-, hchain, hresult⟩ := hrun _ _ hstart hfeasible
  refine ⟨hchain, ?_⟩
  have hbest : (best [3, 0] (nearestFromAbove.traceFrom ⟨[3, 0], .empty⟩)).point = [1, 4 / 3] := by
    unfold best
    rw [hvisits]
    norm_num [Best.update, improves, ExactScalar.isFinite_eq]
  have hoptimize : nearestFromAbove.optimize (.ofVector [3, 0]) =
      .ok (nearestFromAbove.summary [3, 0] (nearestFromAbove.traceFrom ⟨[3, 0], .empty⟩)) := by
    rw [optimize_of_start hstart]
    unfold conclude
    rw [hfault, hbest]
    norm_num [nearestFromAbove, acceptAll, Bound.accept, Bound.violation, Bound.slack, Bound.gap,
      Bound.excess, Side.orient, coordinate, feasibilityTolerance, Except.map, bind, Except.bind,
      pure, Except.pure, Scalar.abs]
  obtain ⟨herrors, last, hlast, herror⟩ := hresult _ hoptimize
  rw [hvisits] at herrors hlast
  obtain rfl := Option.some.inj hlast
  exact ⟨_, hoptimize, herrors, herror⟩

end Solver

end BoundedFit
