import BoundedFit.Proofs.Descent

/-!
# Undamped steps

Taken as a whole, they end where the gradient vanishes at the free coordinates.
-/

namespace BoundedFit

variable {α : Type} [Field α]

namespace LinearProblem

variable {p : LinearProblem α}

theorem gradient_add {x delta : List α} (hx : x.length = p.numVariables)
    (hdelta : delta.length = x.length) :
    (p.stateAt (List.zipWith (· + ·) x delta)).gradient = p.matrix.slope (p.residual x) delta := by
  have hy : (List.zipWith (· + ·) x delta).length = p.numVariables := by simp [hdelta, hx]
  have hway : List.zipWith (· - ·) (List.zipWith (· + ·) x delta) x = delta := by
    apply List.ext_getElem
    · simp [hdelta]
    · intro i _ _
      simp
  have hresidual := p.residual_eq hx hy
  rw [hway] at hresidual
  exact congrArg p.matrix.transposeMulVec (hresidual.trans (List.zipWith_comm_of_comm add_comm))

end LinearProblem

/-- Only the zero vector has the image zero. -/
def DenseMatrix.FullColumnRank (J : DenseMatrix α) : Prop :=
  ∀ v : List α, v.length = J.cols → (∀ u ∈ J.mulVec v, u = 0) → ∀ a ∈ v, a = 0

variable [LinearOrder α] [IsStrictOrderedRing α]

theorem DenseMatrix.definite_zero_iff (J : DenseMatrix α) : J.Definite 0 ↔ J.FullColumnRank := by
  unfold Definite FullColumnRank
  refine forall_congr' fun v => imp_congr_right fun _ => ?_
  rw [zero_mul, zero_add, Vec.imp_dot_self_pos_iff]

/-! ## Points where the gradient vanishes -/

namespace LinearProblem

variable {p : LinearProblem α} {x y : List α}

omit [LinearOrder α] [IsStrictOrderedRing α] in
theorem dot_gradient_eq_zero (hx : x.length = p.numVariables) (hy : y.length = p.numVariables)
    (h : ∀ i < p.matrix.cols, y[i]? = x[i]? ∨ (p.stateAt x).gradient.getD i 0 = 0) :
    Vec.dot (List.zipWith (· - ·) y x) (p.stateAt x).gradient = 0 := by
  have hway : (List.zipWith (· - ·) y x).length = p.matrix.cols := by simp [hx, hy, numVariables]
  have hgradient : (p.stateAt x).gradient.length = p.matrix.cols :=
    p.matrix.length_transposeMulVec _
  rw [Vec.dot_eq_sum hway hgradient]
  apply Finset.sum_eq_zero
  intro i hi
  rcases h i (Finset.mem_range.mp hi) with hsame | hzero
  · have hcomponent : (List.zipWith (· - ·) y x).getD i 0 = 0 := by
      rcases hv : x[i]? with _ | v <;> simp [List.getElem?_zipWith, hsame, hv]
    rw [hcomponent, zero_mul]
  · rw [hzero, mul_zero]

theorem squaredError_le_of_gradient (hx : x.length = p.numVariables)
    (hy : y.length = p.numVariables)
    (h : ∀ i < p.matrix.cols, y[i]? = x[i]? ∨ (p.stateAt x).gradient.getD i 0 = 0) :
    p.squaredError x ≤ p.squaredError y :=
  p.squaredError_le_of_dot_nonneg hx hy (dot_gradient_eq_zero hx hy h).ge

theorem squaredError_lt_of_gradient (hrank : p.matrix.FullColumnRank)
    (hx : x.length = p.numVariables) (hy : y.length = p.numVariables)
    (h : ∀ i < p.matrix.cols, (p.stateAt x).gradient.getD i 0 = 0) (hne : y ≠ x) :
    p.squaredError x < p.squaredError y := by
  have hway : (List.zipWith (· - ·) y x).length = p.matrix.cols := by simp [hx, hy, numVariables]
  have hmoves : ∃ a ∈ List.zipWith (· - ·) y x, a ≠ 0 := by
    by_contra hnone
    push Not at hnone
    apply hne
    apply List.ext_getElem (hy.trans hx.symm)
    intro i hi hi'
    have hzero := hnone _ (List.getElem_mem (by simp [hi, hi'] : i < (List.zipWith (· - ·) y x).length))
    rwa [List.getElem_zipWith, sub_eq_zero] at hzero
  have hpos := p.matrix.definite_zero_iff.mpr hrank _ hway hmoves
  rw [zero_mul, zero_add] at hpos
  rw [p.squaredError_eq hx hy, dot_gradient_eq_zero hx hy fun i hi => Or.inr (h i hi)]
  linarith

end LinearProblem

/-! ## One iteration -/

namespace Solver

variable [Scalar α] [ExactScalar α] {solver : Solver α (DenseState α)} {p : LinearProblem α}
  {here : Iterate α} {delta : List α}

omit [IsStrictOrderedRing α] in
theorem gradient_of_step (hlength : here.point.length = p.numVariables)
    (hdelta : ((p.stateAt here.point).step 0 here.active).1 = .ok delta) {i : Nat}
    (hi : i < p.matrix.cols) (hfree : ∀ b ∈ here.active.members, b.index ≠ i) :
    (p.stateAt (List.zipWith (· + ·) here.point delta)).gradient.getD i 0 = 0 := by
  have hslope := DenseState.slope_of_step hdelta hi hfree
  have hfits := LinearProblem.stepFits hlength hdelta
  rw [LinearProblem.gradient_add hlength hfits.length_eq]
  rwa [zero_mul, zero_add] at hslope

omit [IsStrictOrderedRing α] [ExactScalar α] in
theorem getElem?_of_step (hlength : here.point.length = p.numVariables)
    (hdelta : ((p.stateAt here.point).step 0 here.active).1 = .ok delta) {b : Bound α}
    (hb : b ∈ here.active.members) :
    (List.zipWith (· + ·) here.point delta)[b.index]? = here.point[b.index]? := by
  have hfits := LinearProblem.stepFits hlength hdelta
  rw [List.getElem?_zipWith]
  rcases hv : here.point[b.index]? with _ | v
  · rfl
  · have hlt := (List.getElem?_eq_some_iff.mp hv).1
    rw [getElem?_of_lt (hfits.length_eq ▸ hlt : b.index < delta.length), hfits.pinned b hb]
    simp

omit [ExactScalar α] in
theorem advance_of_block_eq_none (hproblem : solver.problem = p.toProblem)
    (hdamping : solver.damping = 0) (hlength : here.point.length = p.numVariables)
    (hlong : ∀ b ∈ solver.bounds, b.index < here.point.length)
    (hdelta : ((p.stateAt here.point).step 0 here.active).1 = .ok delta)
    (hblock : (solver.advance here (p.stateAt here.point)).block = none) :
    (solver.advance here (p.stateAt here.point)).next =
      .ok (⟨List.zipWith (· + ·) here.point delta, ((p.stateAt here.point).step 0 here.active).2⟩,
        p.stateAt here.point) := by
  have hfits := LinearProblem.stepFits hlength hdelta
  rw [← hdamping] at hdelta ⊢
  obtain ⟨block, next, -, hland, hadvance⟩ := exists_advance hproblem hdelta hlength.symm hlong
  rw [hadvance] at hblock ⊢
  obtain rfl : block = none := hblock
  rw [land_eq hfits.length_eq] at hland
  obtain rfl := Except.ok.inj hland
  rfl

omit [IsStrictOrderedRing α] in
theorem stationary_of_step (hlength : here.point.length = p.numVariables)
    (hdelta : ((p.stateAt here.point).step 0 here.active).1 = .ok delta)
    (hkept : ((p.stateAt here.point).step 0 here.active).2 = here.active) :
    (p.stateAt (List.zipWith (· + ·) here.point delta)).Stationary here.active := by
  refine ⟨fun i hi hfree => gradient_of_step hlength hdelta hi hfree, ?_⟩
  have hfits := LinearProblem.stepFits hlength hdelta
  rw [DenseState.kept_of_step (p.length_residual here.point) hdelta, staying_eq_self_iff] at hkept
  rw [LinearProblem.gradient_add hlength hfits.length_eq]
  exact hkept

/-- After a step that no bound stops, no point with the same pinned coordinates has a lesser error,
and if no bound let go, no feasible point has. -/
theorem exists_advance_least (hproblem : solver.problem = p.toProblem) (hdamping : solver.damping = 0)
    (hlength : here.point.length = p.numVariables)
    (hlong : ∀ b ∈ solver.bounds, b.index < here.point.length) (htight : here.Tight)
    (hdelta : ((p.stateAt here.point).step 0 here.active).1 = .ok delta)
    (hblock : (solver.advance here (p.stateAt here.point)).block = none) :
    ∃ next, (solver.advance here (p.stateAt here.point)).next = .ok (next, p.stateAt here.point) ∧
      next.point.length = p.numVariables ∧
      (∀ b ∈ here.active.members, next.point[b.index]? = here.point[b.index]?) ∧
      (∀ y, y.length = p.numVariables →
        (∀ b ∈ here.active.members, y[b.index]? = here.point[b.index]?) →
        p.squaredError next.point ≤ p.squaredError y) ∧
      (((p.stateAt here.point).step 0 here.active).2 = here.active →
        ∀ y, y.length = p.numVariables → Feasible here.active.members y →
          p.squaredError next.point ≤ p.squaredError y) := by
  have hadvance := advance_of_block_eq_none hproblem hdamping hlength hlong hdelta hblock
  have hfits := LinearProblem.stepFits hlength hdelta
  have hnext : (List.zipWith (· + ·) here.point delta).length = p.numVariables := by
    simp [hfits.length_eq, hlength]
  refine ⟨_, hadvance, hnext, fun b hb => getElem?_of_step hlength hdelta hb, ?_, ?_⟩
  · intro y hy hagree
    apply LinearProblem.squaredError_le_of_gradient hnext hy
    intro i hi
    by_cases hfree : ∀ b ∈ here.active.members, b.index ≠ i
    · exact Or.inr (gradient_of_step hlength hdelta hi hfree)
    · push Not at hfree
      obtain ⟨b, hb, rfl⟩ := hfree
      exact Or.inl ((hagree b hb).trans (getElem?_of_step hlength hdelta hb).symm)
  · intro hkept y hy hfeasible
    have hstationary := stationary_of_step hlength hdelta hkept
    have hpinned : Iterate.Tight ⟨List.zipWith (· + ·) here.point delta, here.active⟩ :=
      fun b hb => (getElem?_of_step hlength hdelta hb).trans (htight b hb)
    refine p.least_of_stationary ?_ ?_ hpinned (fun b hb => hb) hy hfeasible
    · exact hnext
    · exact hstationary

/-! ## Runs without bounds -/

variable {first : Iterate α} {past : List (Stage α (DenseState α))} {state : DenseState α}

omit [Scalar α] [ExactScalar α] in
theorem Runs.members_eq_nil (hbounds : solver.bounds = []) (hfits : solver.EveryStep first StepFits)
    (h : first.active.members = []) (hruns : solver.Runs first past here state) :
    here.active.members = [] := by
  induction hruns with
  | start => exact h
  | @step past s before hruns hlt hs ih =>
    have hfit := hfits.of_performs hruns hlt hs
    rw [List.eq_nil_iff_forall_not_mem] at ih ⊢
    intro b hb
    rcases (hs.mem_active_next hfit b).mp hb with hkept | ⟨stop, hstop, -⟩
    · exact ih b (hfit.kept_subset b hkept)
    · have hmem := (hs.isClosest.met stop hstop).1
      rw [hbounds] at hmem
      cases hmem

omit [IsStrictOrderedRing α] in
theorem Performs.gradient_next (hproblem : solver.problem = p.toProblem)
    (hdamping : solver.damping = 0) (hbounds : solver.bounds = []) {before : DenseState α}
    {s : Stage α (DenseState α)} (hs : solver.Performs before s)
    (hactive : s.here.active.members = []) :
    s.next.point.length = p.numVariables ∧
      ∀ i < p.matrix.cols, (p.stateAt s.next.point).gradient.getD i 0 = 0 := by
  obtain ⟨error, heval, -⟩ := hs.continues
  rw [hproblem] at heval
  obtain ⟨hlength, hstate, -⟩ := LinearProblem.of_errorAt_eq_ok heval
  obtain ⟨hstep, -⟩ := hs.step_ofDense hproblem
  rw [hstate, hdamping] at hstep
  have hdelta := congrArg Prod.fst hstep
  have hfits := LinearProblem.stepFits hlength hdelta
  have hland := hs.landed
  have hstop := hs.stopped
  rw [hbounds] at hstop
  rw [land_eq hfits.length_eq, ← Except.ok.inj hstop] at hland
  have hpoint : List.zipWith (· + ·) s.here.point s.delta = s.next.point :=
    congrArg Iterate.point (Except.ok.inj hland)
  rw [← hpoint]
  refine ⟨by simp [hfits.length_eq, hlength], fun i hi => ?_⟩
  apply gradient_of_step hlength hdelta hi
  intro b hb
  rw [hactive] at hb
  cases hb

theorem fault_eq_none (hproblem : solver.problem = p.toProblem) (hdamping : solver.damping = 0)
    (hbounds : solver.bounds = []) (hrank : p.matrix.FullColumnRank)
    (hlength : first.point.length = p.numVariables) (hactive : first.active.members = []) :
    (solver.traceFrom first).fault? = none := by
  have hfits := everyStep_ofDense hproblem p.hasColumns first
  rcases hfault : (solver.traceFrom first).fault? with _ | fault
  · rfl
  exfalso
  obtain ⟨past, here, before, hruns, hbroken⟩ := fault_of_traceFrom hfault
  have hhere := (hruns.length_point hfits).trans hlength
  rcases hbroken with heval | ⟨state, -, ⟨error, heval, -⟩, hnext⟩
  · rw [hproblem, LinearProblem.errorAt_eq hhere] at heval
    cases heval
  · rw [hproblem] at heval
    obtain ⟨-, rfl, -⟩ := LinearProblem.of_errorAt_eq_ok heval
    have hfree := hruns.members_eq_nil hbounds hfits hactive
    have hdef : (p.stateAt here.point).Definite solver.damping here.active := by
      intro v hv _ hne
      rw [hdamping]
      exact p.matrix.definite_zero_iff.mpr hrank v hv hne
    obtain ⟨delta, hdelta⟩ := DenseState.exists_step hdamping.ge (p.length_residual here.point)
      (by simp [hfree]) hdef
    obtain ⟨block, next, -, -, hadvance⟩ :=
      exists_advance hproblem hdelta hhere.symm (by simp [hbounds])
    rw [hadvance] at hnext
    cases hnext

/-- An undamped step that no bound stops leads to a point of least error among those with the
same pinned coordinates. With full column rank and no bounds, a run evaluates nothing else after
the guess. -/
theorem least_of_undamped (hproblem : solver.problem = p.toProblem) (hdamping : solver.damping = 0) :
    (∀ (here : Iterate α) (delta : List α), here.point.length = p.numVariables →
      Feasible solver.bounds here.point → here.Tight →
      ((p.stateAt here.point).step solver.damping here.active).1 = .ok delta →
      (solver.advance here (p.stateAt here.point)).block = none →
      ∃ next, (solver.advance here (p.stateAt here.point)).next = .ok (next, p.stateAt here.point) ∧
        next.point.length = p.numVariables ∧
        (∀ b ∈ here.active.members, next.point[b.index]? = here.point[b.index]?) ∧
        (∀ y, y.length = p.numVariables →
          (∀ b ∈ here.active.members, y[b.index]? = here.point[b.index]?) →
          p.squaredError next.point ≤ p.squaredError y) ∧
        (((p.stateAt here.point).step solver.damping here.active).2 = here.active →
          Feasible solver.bounds next.point → ∀ y, y.length = p.numVariables →
          Feasible solver.bounds y → Feasible here.active.members y →
          p.squaredError next.point ≤ p.squaredError y)) ∧
    (solver.bounds = [] → p.matrix.FullColumnRank →
      ∀ (guess : Tensor α) (first : Iterate α), solver.start guess = .ok first →
      (∀ x ∈ (solver.traceFrom first).points.tail, x.length = p.numVariables ∧
        ∀ y, y.length = p.numVariables → y ≠ x → p.squaredError x < p.squaredError y) ∧
      (first.point.length = p.numVariables → ∃ result, solver.optimize guess = .ok result)) := by
  constructor
  · -- A step of any iterate, with bounds.
    intro here delta hlength hfeasible htight hdelta hblock
    rw [hdamping] at hdelta ⊢
    obtain ⟨next, hnext, hlong, hpinned, hagree, hleast⟩ := exists_advance_least hproblem hdamping
      hlength hfeasible.lt_length htight hdelta hblock
    exact ⟨next, hnext, hlong, hpinned, hagree, fun hkept _ y hy _ => hleast hkept y hy⟩
  · -- A whole run without bounds: nothing is ever pinned.
    intro hbounds hrank guess first hstart
    have hactive : first.active.members = [] := by
      rcases solver.start_cases guess with ⟨fault, hfault, -⟩ | ⟨x, -, hclamp⟩
      · rw [hfault] at hstart
        cases hstart
      · rw [hclamp, hbounds] at hstart
        obtain rfl := Except.ok.inj hstart
        rfl
    constructor
    · -- Every point but the guess is one that a step leads to.
      intro x hx
      obtain ⟨n, hn⟩ := List.mem_iff_getElem?.mp hx
      rw [List.getElem?_tail, Trace.points, List.getElem?_map, Option.map_eq_some_iff] at hn
      obtain ⟨it, hit, rfl⟩ := hn
      obtain ⟨past, state, hpast, hruns⟩ := runs_of_getElem?_iterates hit
      rcases hruns with _ | @⟨past, s, before, hruns, hlt, hs⟩
      · cases hpast
      · have hfits := everyStep_ofDense hproblem p.hasColumns first
        have hfree := hruns.members_eq_nil hbounds hfits hactive
        obtain ⟨hlength, hgradient⟩ := hs.gradient_next hproblem hdamping hbounds hfree
        exact ⟨hlength, fun y hy =>
          LinearProblem.squaredError_lt_of_gradient hrank hlength hy hgradient⟩
    · -- With full column rank there always is a step.
      intro hlength
      have hfault := fault_eq_none hproblem hdamping hbounds hrank hlength hactive
      rw [optimize_of_start hstart]
      unfold conclude
      rw [hfault, hbounds]
      exact ⟨_, rfl⟩

/-- The nearest problem at a point that the bound pins. -/
def nearestPinned : Iterate ℝ := ⟨[1, 0], ⟨[⟨0, 1, .lower⟩]⟩⟩

theorem step_nearestPinned :
    (nearest.stateAt [1, 0]).step 0 nearestPinned.active = (.ok [0, 2], nearestPinned.active) := by
  have hdef : (nearest.stateAt [1, 0]).Definite 0 nearestPinned.active :=
    fun v hv _ hne => definite_nearest v hv hne
  obtain ⟨delta, hdelta⟩ := DenseState.exists_step le_rfl rfl
    (by simp [nearestPinned, LinearProblem.stateAt, nearest]) hdef
  obtain ⟨hlength, hpinned, -⟩ := DenseState.of_step_eq_ok hdelta
  obtain ⟨s, t, rfl⟩ : ∃ s t, delta = [s, t] := List.length_eq_two.mp hlength
  obtain rfl : s = 0 := hpinned ⟨0, 1, .lower⟩ (List.mem_singleton_self _)
  have ht := DenseState.slope_of_step hdelta (i := 1) Nat.one_lt_two (by simp [nearestPinned])
  have hslope : (nearest.stateAt [1, 0]).jacobian.slope (nearest.stateAt [1, 0]).residual [0, t] =
      [1, t - 2] := by
    simp [LinearProblem.stateAt, nearest, LinearProblem.residual, DenseMatrix.slope,
      DenseMatrix.mulVec, DenseMatrix.transposeMulVec, DenseMatrix.columns, DenseMatrix.column,
      Vec.dot, Vec.sum, List.range_succ]
    ring
  rw [hslope] at ht
  obtain rfl : t = 2 := by simpa [sub_eq_zero] using ht
  refine Prod.ext hdelta ?_
  rw [DenseState.kept_of_step rfl hdelta, hslope, staying_eq_self_iff]
  simp [nearestPinned, Side.orient]

theorem advance_nearestPinned :
    nearestFromAbove.advance nearestPinned (nearest.stateAt [1, 0]) =
      ⟨none, .ok (⟨[1, 2], nearestPinned.active⟩, nearest.stateAt [1, 0])⟩ := by
  have hproposal : nearestFromAbove.problem.step nearestFromAbove.damping nearestPinned.active
      (nearest.stateAt [1, 0]) = ⟨.ok [0, 2], nearestPinned.active, nearest.stateAt [1, 0]⟩ := by
    simp only [nearestFromAbove, LinearProblem.toProblem, Problem.ofDense, step_nearestPinned]
  have hblock : closestBlock nearestFromAbove.bounds nearestPinned.point [0, 2]
      nearestPinned.active = .ok none := by
    norm_num [nearestFromAbove, nearestPinned, closestBlock, closerBlock, ActiveSet.contains,
      Bound.same, Scalar.same, bind, Except.bind, pure, Except.pure]
  have hland : Iterate.land ⟨nearestPinned.point, nearestPinned.active⟩ [0, 2] none =
      .ok ⟨[1, 2], nearestPinned.active⟩ := by
    norm_num [nearestPinned, Iterate.land, Vec.zipStretched?, shorten, Iterate.pin]
  unfold advance
  simp only [hproposal, hblock, hland, Except.map]

noncomputable def nearestUnbounded : Solver ℝ (DenseState ℝ) := ⟨nearest.toProblem, [], 0, 1, false⟩

theorem points_nearestUnbounded :
    (nearestUnbounded.traceFrom ⟨[3, 0], .empty⟩).points = [[3, 0], [0, 2]] := by
  have hlarge : ¬ nearest.squaredError [3, 0] < convergenceTolerance := by
    rw [squaredError_nearest]
    norm_num [convergenceTolerance]
  have hadvance : nearestUnbounded.advance ⟨[3, 0], .empty⟩ (nearest.stateAt [3, 0]) =
      ⟨none, .ok (⟨[0, 2], .empty⟩, nearest.stateAt [3, 0])⟩ := by
    have hstep := step_nearest 3 0
    unfold advance
    norm_num [nearestUnbounded, LinearProblem.toProblem, Problem.ofDense, hstep, closestBlock,
      Iterate.land, shorten, Iterate.pin, Vec.zipStretched?, Except.map, pure, Except.pure]
  have heval (u w : ℝ) (before : DenseState ℝ) : nearestUnbounded.problem.errorAt [u, w] before =
      .ok (nearest.squaredError [u, w], nearest.stateAt [u, w]) := LinearProblem.errorAt_eq rfl
  have hcap : nearestUnbounded.maxIterations = 1 := rfl
  simp only [traceFrom, hcap, trace, heval, hlarge, hadvance, if_false]
  rfl

theorem least_nearest :
    (∀ y, y.length = 2 → Feasible nearestFromAbove.bounds y →
      nearest.squaredError [1, 2] ≤ nearest.squaredError y) ∧
    ∀ y, y.length = 2 → y ≠ [0, 2] → nearest.squaredError [0, 2] < nearest.squaredError y := by
  constructor
  · have hfeasible : ∀ w, Feasible nearestFromAbove.bounds [1, w] := by
      norm_num [nearestFromAbove, Feasible, Bound.holds_iff, Bound.gap, Side.orient]
    have htight : nearestPinned.Tight := by simp [Iterate.Tight, nearestPinned]
    obtain ⟨hiteration, -⟩ :=
      least_of_undamped (rfl : nearestFromAbove.problem = nearest.toProblem) rfl
    obtain ⟨next, hnext, -, -, -, hleast⟩ := hiteration nearestPinned [0, 2] rfl (hfeasible 0) htight
      (congrArg Prod.fst step_nearestPinned) (congrArg Advance.block advance_nearestPinned)
    obtain rfl : ⟨[1, 2], nearestPinned.active⟩ = next :=
      congrArg Prod.fst (Except.ok.inj ((congrArg Advance.next advance_nearestPinned).symm.trans hnext))
    intro y hy hy'
    exact hleast (congrArg Prod.snd step_nearestPinned) (hfeasible 2) y hy hy' hy'
  · obtain ⟨-, hrun⟩ :=
      least_of_undamped (rfl : nearestUnbounded.problem = nearest.toProblem) rfl
    have hrank := nearest.matrix.definite_zero_iff.mp definite_nearest
    have hstart : nearestUnbounded.start (.ofVector [3, 0]) = .ok ⟨[3, 0], .empty⟩ :=
      start_ofVector (by simp [nearestUnbounded])
    obtain ⟨hpoints, -⟩ := hrun rfl hrank _ _ hstart
    rw [points_nearestUnbounded] at hpoints
    exact (hpoints [0, 2] (by simp)).2

end Solver

end BoundedFit
