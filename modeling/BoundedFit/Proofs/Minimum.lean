import BoundedFit.Proofs.Squares

/-!
# Stationary iterates of linear problems are minimisers

By convexity.
-/

namespace BoundedFit

variable {α : Type} [Field α] [LinearOrder α] [IsStrictOrderedRing α] {here : Iterate α}
  {bounds : List (Bound α)}

theorem DenseState.Stationary.dot_nonneg {s : DenseState α} (h : s.Stationary here.active)
    (hcols : s.jacobian.cols = here.point.length) (htight : here.Tight)
    (hactive : ∀ b ∈ here.active.members, b ∈ bounds) {y : List α}
    (hy : y.length = here.point.length) (hfeasible : Feasible bounds y) :
    0 ≤ Vec.dot (List.zipWith (· - ·) y here.point) s.gradient := by
  have hway : (List.zipWith (· - ·) y here.point).length = s.jacobian.cols := by simp [hy, hcols]
  have hgradient : s.gradient.length = s.jacobian.cols := s.jacobian.length_transposeMulVec _
  rw [Vec.dot_eq_sum hway hgradient]
  apply Finset.sum_nonneg
  intro i hi
  have hi' : i < s.jacobian.cols := Finset.mem_range.mp hi
  by_cases hfree : ∀ b ∈ here.active.members, b.index ≠ i
  · rw [h.1 i hi' hfree, mul_zero]
  · push Not at hfree
    obtain ⟨b, hb, rfl⟩ := hfree
    obtain ⟨v, hv, hin⟩ := (b.holds_iff y).mp (hfeasible b (hactive b hb))
    have hcomponent : (List.zipWith (· - ·) y here.point).getD b.index 0 = v - b.value := by
      simp [List.getElem?_zipWith, hv, htight b hb]
    rw [hcomponent]
    exact Side.mul_nonneg_of_orient hin (h.2 b hb)

theorem LinearProblem.least_of_stationary (p : LinearProblem α)
    (hlength : here.point.length = p.numVariables)
    (h : (⟨p.residual here.point, p.matrix⟩ : DenseState α).Stationary here.active)
    (htight : here.Tight) (hactive : ∀ b ∈ here.active.members, b ∈ bounds) {y : List α}
    (hy : y.length = p.numVariables) (hfeasible : Feasible bounds y) :
    Vec.dot (p.residual here.point) (p.residual here.point) ≤
      Vec.dot (p.residual y) (p.residual y) := by
  apply p.squaredError_le_of_dot_nonneg hlength hy
  exact h.dot_nonneg hlength.symm htight hactive (hy.trans hlength.symm) hfeasible

namespace Solver

variable [Scalar α] [ExactScalar α] {solver : Solver α (DenseState α)}
  {evaluate : Tensor α → DenseState α → Except (Fault α) (DenseState α)} {s : DenseState α}

/-- An iteration changes nothing exactly at a stationary iterate, and for a linear problem only at a
feasible point of least error. -/
theorem advance_eq_self_iff (hproblem : solver.problem = .ofDense evaluate)
    (hdamping : 0 ≤ solver.damping) (hrows : s.residual.length = s.jacobian.height)
    (hcols : s.jacobian.cols = here.point.length) (hdef : s.Definite solver.damping here.active)
    (htight : here.Tight) (hfeasible : Feasible solver.bounds here.point) :
    ∃ next, (solver.advance here s).next = .ok (next, s) ∧
      (next = here ↔ s.Stationary here.active) ∧
      ∀ p : LinearProblem α, p.evaluate (.ofVector here.point) .empty = .ok s →
        (∀ b ∈ here.active.members, b ∈ solver.bounds) → next = here →
        ∀ y, y.length = p.numVariables → Feasible solver.bounds y →
          Vec.dot (p.residual here.point) (p.residual here.point) ≤
            Vec.dot (p.residual y) (p.residual y) := by
  have hin : ∀ b ∈ here.active.members, b.index < here.point.length :=
    fun b hb => (List.getElem?_eq_some_iff.mp (htight b hb)).1
  have hlong : ∀ b ∈ solver.bounds, b.index < here.point.length := by
    intro b hb
    obtain ⟨v, hv, -⟩ := (b.holds_iff _).mp (hfeasible b hb)
    exact (List.getElem?_eq_some_iff.mp hv).1
  obtain ⟨next, hadvance, hiff⟩ :=
    exists_advance_eq_self_iff hproblem hdamping hrows hcols hdef hin hlong
  refine ⟨next, hadvance, hiff, ?_⟩
  intro p heval hactive hsame y hy hfeasible'
  obtain ⟨hlength, rfl⟩ := LinearProblem.of_evaluate_eq_ok heval
  exact p.least_of_stationary hlength (hiff.mp hsame) htight hactive hy hfeasible'

/-- The distance of two coordinates from 0 and 2. -/
def nearest : LinearProblem ℝ := ⟨⟨2, [[1, 0], [0, 1]], by simp⟩, [0, 2], rfl⟩

noncomputable def nearestAboveOne : Solver ℝ (DenseState ℝ) :=
  ⟨nearest.toProblem, [⟨0, 1, .lower⟩], 1, 10, false⟩

/-- The nearest point, pinned by the bound. -/
def resting : Iterate ℝ := ⟨[1, 2], ⟨[⟨0, 1, .lower⟩]⟩⟩

noncomputable def restingState : DenseState ℝ := ⟨nearest.residual [1, 2], nearest.matrix⟩

theorem definite_resting : restingState.Definite 1 resting.active := by
  rintro v hv hpinned ⟨a, ha, hne⟩
  obtain ⟨u, w, rfl⟩ : ∃ u w, v = [u, w] := List.length_eq_two.mp hv
  obtain rfl : u = 0 := hpinned ⟨0, 1, .lower⟩ (List.mem_singleton_self _)
  have hw : w ≠ 0 := by
    rintro rfl
    simp at ha
    exact hne ha
  simp [restingState, nearest, DenseMatrix.mulVec, Vec.dot, Vec.sum]
  positivity

theorem stationary_resting : restingState.Stationary resting.active := by
  have hgradient : restingState.gradient = [1, 0] := by
    simp [DenseState.gradient, restingState, nearest, LinearProblem.residual, DenseMatrix.mulVec,
      DenseMatrix.transposeMulVec, DenseMatrix.columns, DenseMatrix.column, Vec.dot, Vec.sum,
      List.range_succ]
  unfold DenseState.Stationary
  rw [hgradient]
  constructor
  · intro i hi hfree
    have hne : 0 ≠ i := hfree ⟨0, 1, .lower⟩ (List.mem_singleton_self _)
    have hone : i = 1 := by
      have : i < 2 := hi
      omega
    rw [hone]
    rfl
  · intro b hb
    obtain rfl := List.mem_singleton.mp hb
    exact zero_le_one

theorem advance_resting :
    ∃ next, (nearestAboveOne.advance resting restingState).next = .ok (next, restingState) ∧
      next = resting ∧
      ∀ y, y.length = 2 → Feasible nearestAboveOne.bounds y →
        Vec.dot (nearest.residual [1, 2]) (nearest.residual [1, 2]) ≤
          Vec.dot (nearest.residual y) (nearest.residual y) := by
  have hproblem : nearestAboveOne.problem = .ofDense nearest.evaluate := rfl
  have htight : resting.Tight := by
    intro b hb
    obtain rfl := List.mem_singleton.mp hb
    rfl
  have hfeasible : Feasible nearestAboveOne.bounds resting.point := by
    intro b hb
    obtain rfl := List.mem_singleton.mp hb
    refine (Bound.holds_iff _ _).mpr ⟨1, rfl, ?_⟩
    exact (Bound.gap_value (⟨0, 1, .lower⟩ : Bound ℝ)).ge
  obtain ⟨next, hadvance, hiff, hleast⟩ := advance_eq_self_iff hproblem zero_le_one rfl rfl
    definite_resting htight hfeasible
  have hsame := hiff.mpr stationary_resting
  exact ⟨next, hadvance, hsame, hleast nearest rfl (fun b hb => hb) hsame⟩

end Solver

end BoundedFit
