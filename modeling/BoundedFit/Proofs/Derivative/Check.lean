import BoundedFit.Problem.Dense
import BoundedFit.Proofs.Derivative.Norms
import BoundedFit.Proofs.Derivative.Quadratic

/-!
# Derivative checks of quadratic residuals

The columns of a check are difference quotients, and for these residuals the derivatives.
-/

namespace BoundedFit

open MvPolynomial

theorem Tensor.mapRow?_ofVector {α : Type} {x : List α} {j : Nat} (hj : j < x.length) (f : α → α) :
    (ofVector x).mapRow? j f = some (ofVector (x.modify j f)) := by
  unfold mapRow? ofVector
  simp only [hj, if_true, Option.some.injEq, Tensor.mk.injEq, List.length_modify, true_and]
  apply List.ext_getElem
  · simp
  · intro i _ _
    simp [List.getElem_modify, eq_comm]

theorem fitColumn_of_length_eq {α : Type} {height : Nat} {column : List α}
    (h : column.length = height) : fitColumn height column = .ok column := by
  unfold fitColumn
  exact if_pos h

/-! ## The columns that a check collects -/

section Columns

variable {α σ : Type}

/-- Whatever was evaluated before, vectors of length `n` get the residual `r` and the derivative `K`. -/
def Problem.Yields (problem : Problem α σ) (n : Nat) (r : List α → List α)
    (K : List α → DenseMatrix α) : Prop :=
  ∀ y, y.length = n → ∀ before, ∃ state, problem.evaluate (.ofVector y) before = .ok state ∧
    problem.residual state = r y ∧ problem.jacobian state = K y

variable [Add α] [Sub α] [Div α] [OfScientific α]

/-- The difference quotients of `r` along coordinate `j`. -/
def quotients (r : List α → List α) (x : List α) (j : Nat) : List α :=
  (List.zipWith (· - ·) (r (x.modify j (· + derivativeStep)))
    (r (x.modify j (· - derivativeStep)))).map (· / (derivativeStep + derivativeStep))

variable {problem : Problem α σ} {n m : Nat} {r : List α → List α} {K : List α → DenseMatrix α}
  {x : List α}

theorem Problem.Yields.centralDifference (h : problem.Yields n r K)
    (hr : ∀ y, y.length = n → (r y).length = m) (hx : x.length = n) {j : Nat} (hj : j < n)
    (before : σ) :
    ∃ after, centralDifference problem (.ofVector x) m j before = .ok (quotients r x j, after) := by
  have hup : (x.modify j (· + derivativeStep)).length = n := by simp [hx]
  have hdown : (x.modify j (· - derivativeStep)).length = n := by simp [hx]
  obtain ⟨up, heval, hupr, -⟩ := h _ hup before
  obtain ⟨down, heval', hdownr, -⟩ := h _ hdown up
  have hlengths : (r (x.modify j (· + derivativeStep))).length =
      (r (x.modify j (· - derivativeStep))).length := (hr _ hup).trans (hr _ hdown).symm
  have hfits : (quotients r x j).length = m := by simp [quotients, hr _ hup, hr _ hdown]
  refine ⟨down, ?_⟩
  unfold BoundedFit.centralDifference residualAt movedAt
  rw [Tensor.mapRow?_ofVector (hx ▸ hj), Tensor.mapRow?_ofVector (hx ▸ hj)]
  simp only [heval, heval', hupr, hdownr, bind, Except.bind, Except.map, pure, Except.pure,
    Vec.zipStretched?_of_length_eq _ hlengths]
  unfold quotients at hfits ⊢
  rw [fitColumn_of_length_eq hfits]

theorem Problem.Yields.centralDifferences (h : problem.Yields n r K)
    (hr : ∀ y, y.length = n → (r y).length = m) (hx : x.length = n) {js : List Nat}
    (hjs : ∀ j ∈ js, j < n) (before : σ) :
    centralDifferences problem (.ofVector x) m js before = .ok (js.map (quotients r x)) := by
  induction js generalizing before with
  | nil => rfl
  | cons j js ih =>
    rw [List.forall_mem_cons] at hjs
    obtain ⟨after, hcolumn⟩ := h.centralDifference hr hx hjs.1 before
    unfold BoundedFit.centralDifferences
    rw [hcolumn]
    simp only [bind, Except.bind, ih hjs.2 after]
    rfl

end Columns

theorem Problem.Yields.checkDerivative {α σ : Type} [Add α] [Sub α] [Mul α] [Div α] [Zero α]
    [OfScientific α] [Scalar α] {problem : Problem α σ} {n : Nat} {r : List α → List α}
    {K : List α → DenseMatrix α} (h : problem.Yields n r K)
    (hK : ∀ y, y.length = n → (K y).height = (r y).length ∧ (K y).cols = n) {x : List α}
    (hr : ∀ y, y.length = n → (r y).length = (r x).length) (hx : x.length = n) :
    problem.checkDerivative (.ofVector x) = .ok (.compare (K x)
      (.ofColumns (r x).length ((List.range n).map (quotients r x)))) := by
  obtain ⟨state, heval, -, hstate⟩ := h x hx problem.fresh
  obtain ⟨hheight, hcols⟩ := hK x hx
  have hrange : ∀ j ∈ List.range n, j < n := fun j hj => List.mem_range.mp hj
  have hcolumns := h.centralDifferences hr hx hrange state
  unfold Problem.checkDerivative
  simp only [heval, hstate, hheight, hcols, hcolumns, bind, Except.bind]
  rfl

/-! ## Quadratic residuals -/

section Quadratic

variable {α : Type} [Field α] [LinearOrder α] [IsStrictOrderedRing α] {n : Nat}
  {fs : List (MvPolynomial (Fin n) α)} {x : List α}

theorem derivativeStep_pos : 0 < (derivativeStep : α) := by
  unfold derivativeStep
  norm_num

theorem quotients_valuesOf (hfs : QuadraticInEach fs) (hx : x.length = n) (j : Fin n) :
    quotients (valuesOf fs) x j = fs.map fun f => eval (assign n x) (pderiv j f) := by
  have hne : (derivativeStep + derivativeStep : α) ≠ 0 :=
    (add_pos derivativeStep_pos derivativeStep_pos).ne'
  unfold quotients valuesOf
  rw [assign_modify hx, assign_modify hx, List.zipWith_map, List.zipWith_self, List.map_map]
  apply List.map_congr_left
  intro f hf
  dsimp only [Function.comp]
  rw [eval_update_sub_eval_update (hfs f hf j), mul_div_cancel_left₀ _ hne]

theorem ofColumns_quotients (hfs : QuadraticInEach fs) (hx : x.length = n) :
    DenseMatrix.ofColumns (valuesOf fs x).length ((List.range n).map (quotients (valuesOf fs) x)) =
      jacobianOf fs x := by
  have hlength : (valuesOf fs x).length = fs.length := by simp [valuesOf]
  have hheight : (jacobianOf fs x).height = fs.length := by simp [DenseMatrix.height, jacobianOf]
  rw [DenseMatrix.ofColumns, List.length_map, List.length_range, hlength]
  symm
  apply DenseMatrix.ext_entry
  · rw [hheight]
    simp [DenseMatrix.height, DenseMatrix.ofFn]
  · rfl
  · intro i hi j hj
    rw [hheight] at hi
    replace hj : j < n := hj
    have hcolumn := quotients_valuesOf hfs hx ⟨j, hj⟩
    rw [DenseMatrix.entry_ofFn _ hi hj]
    simp only at hcolumn
    simp [DenseMatrix.entry, jacobianOf, hi, hj, hcolumn]

theorem Problem.Yields.measures [Scalar α] [ExactRoots α] {σ : Type} {problem : Problem α σ}
    {K : List α → DenseMatrix α} (h : problem.Yields n (valuesOf fs) K)
    (hK : ∀ y, y.length = n → (K y).height = fs.length ∧ (K y).cols = n)
    (hfs : QuadraticInEach fs) (hx : x.length = n) :
    ∃ check, problem.checkDerivative (.ofVector x) = .ok check ∧
      check.Measures (K x) (jacobianOf fs x) := by
  have hlength : ∀ y, (valuesOf fs y).length = fs.length := fun y => List.length_map _
  have hcheck := h.checkDerivative (by simpa only [hlength] using hK)
    (fun y _ => (hlength y).trans (hlength x).symm) hx
  rw [ofColumns_quotients hfs hx] at hcheck
  obtain ⟨hheight, hcols⟩ := hK x hx
  refine ⟨_, hcheck, DerivativeCheck.measures_compare ?_ hcols⟩
  rw [hheight, DenseMatrix.height, jacobianOf, List.length_map]

end Quadratic

/-! ## Function problems and linear problems -/

namespace FunctionProblem

variable {α : Type} [Field α] [LinearOrder α] [Scalar α] {n : Nat}

/-- The functions of the problem answer every vector of length `n` with the values of the polynomials
and with the matrix `K`, which has a row for each of them. -/
structure Answers (p : FunctionProblem α) (fs : List (MvPolynomial (Fin n) α))
    (K : List α → DenseMatrix α) : Prop where
  accepts : p.checkShape [n] = .ok ()
  residual_eq : ∀ y, y.length = n →
    ∃ t, p.residual (.ofVector y) = .ok t ∧ t.toVector? = some (valuesOf fs y)
  jacobian_eq : ∀ y, y.length = n →
    ∃ t, p.jacobian (.ofVector y) = .ok t ∧ t.toMatrix? = some (K y)
  size_eq : ∀ y, y.length = n → (K y).height = fs.length ∧ (K y).cols = n

theorem Answers.yields {p : FunctionProblem α} {fs : List (MvPolynomial (Fin n) α)}
    {K : List α → DenseMatrix α} (h : p.Answers fs K) :
    p.toProblem.Yields n (valuesOf fs) K := by
  intro y hy before
  obtain ⟨residual, hresidual, hvector⟩ := h.residual_eq y hy
  obtain ⟨jacobian, hjacobian, hmatrix⟩ := h.jacobian_eq y hy
  have haccepts : p.checkShape (Tensor.ofVector y).shape = .ok () := by
    rw [← h.accepts, ← hy]
    rfl
  have hrows : (K y).height = (valuesOf fs y).length := by
    rw [(h.size_eq y hy).1, valuesOf, List.length_map]
  refine ⟨⟨valuesOf fs y, K y⟩, ?_, rfl, rfl⟩
  change p.evaluate (.ofVector y) before = _
  unfold evaluate
  simp only [haccepts, hresidual, hjacobian, bind, Except.bind]
  unfold DenseState.ofArrays
  simp only [hvector, hmatrix, if_pos hrows]

end FunctionProblem

namespace LinearProblem

variable {α : Type} [Field α] (p : LinearProblem α)

/-- The component of the residual that a row and its target give. -/
noncomputable def component {n : Nat} (row : List α) (b : α) : MvPolynomial (Fin n) α :=
  ∑ j : Fin n, C (row.getD j 0) * X j - C b

noncomputable def polynomials : List (MvPolynomial (Fin p.numVariables) α) :=
  List.zipWith component p.matrix.rows p.target

theorem degreeOf_component_le {n : Nat} (row : List α) (b : α) (j : Fin n) :
    (component row b).degreeOf j ≤ 1 := by
  refine (degreeOf_sub_le j _ _).trans (max_le ?_ ?_)
  · refine (degreeOf_sum_le j _ _).trans (Finset.sup_le fun i _ => ?_)
    refine (degreeOf_C_mul_le _ j _).trans ?_
    rw [degreeOf_X]
    split <;> simp
  · rw [degreeOf_C]
    exact Nat.zero_le 1

theorem eval_component {n : Nat} {row x : List α} (hrow : row.length = n) (hx : x.length = n) (b : α) :
    eval (assign n x) (component row b) = Vec.dot row x - b := by
  rw [Vec.dot_eq_sum hrow hx, Finset.sum_range]
  simp [component, assign]

theorem eval_pderiv_component {n : Nat} (row x : List α) (b : α) (j : Fin n) :
    eval (assign n x) (pderiv j (component row b)) = row.getD j 0 := by
  simp [component, pderiv_X, Pi.single_apply]

theorem quadraticInEach_polynomials : QuadraticInEach p.polynomials := by
  intro f hf j
  unfold polynomials at hf
  obtain ⟨i, hi, rfl⟩ := List.mem_iff_getElem.mp hf
  rw [List.getElem_zipWith]
  exact (degreeOf_component_le _ _ j).trans one_le_two

theorem valuesOf_polynomials {x : List α} (hx : x.length = p.numVariables) :
    valuesOf p.polynomials x = p.residual x := by
  apply List.ext_getElem
  · simp [valuesOf, polynomials, residual, DenseMatrix.mulVec]
  · intro i _ _
    have hrow : ∀ h : i < p.matrix.rows.length, p.matrix.rows[i].length = p.numVariables :=
      fun h => p.matrix.length_of_mem _ (List.getElem_mem h)
    simp [valuesOf, polynomials, residual, DenseMatrix.mulVec, eval_component (hrow _) hx]

theorem jacobianOf_polynomials (x : List α) : jacobianOf p.polynomials x = p.matrix := by
  have hlength : p.polynomials.length = p.matrix.rows.length := by
    simp [polynomials, p.length_target, DenseMatrix.height]
  apply DenseMatrix.ext_entry
  · simp [DenseMatrix.height, jacobianOf, hlength]
  · rfl
  · intro i hi j hj
    replace hj : j < p.numVariables := hj
    have hi' : i < p.matrix.rows.length := by
      simpa [DenseMatrix.height, jacobianOf, hlength] using hi
    have htarget : i < p.target.length := by rwa [p.length_target]
    simp [DenseMatrix.entry, jacobianOf, polynomials, eval_pderiv_component, hi', hj, htarget]

variable [LinearOrder α] [Scalar α]

theorem yields : p.toProblem.Yields p.numVariables (valuesOf p.polynomials) fun _ => p.matrix := by
  intro y hy before
  refine ⟨⟨p.residual y, p.matrix⟩, ?_, (p.valuesOf_polynomials hy).symm, rfl⟩
  exact if_pos hy

end LinearProblem

section Exact

variable {α : Type} [Field α] [LinearOrder α] [IsStrictOrderedRing α] [Scalar α] [ExactRoots α]

/-- With exact roots, the check of a problem whose residuals are quadratic in each variable compares
the reported derivative with the true one. -/
theorem checkDerivative_measures :
    (∀ {n : Nat} (p : FunctionProblem α) (fs : List (MvPolynomial (Fin n) α))
      (K : List α → DenseMatrix α), p.Answers fs K → QuadraticInEach fs → ∀ x, x.length = n →
        ∃ check, p.toProblem.checkDerivative (.ofVector x) = .ok check ∧
          check.Measures (K x) (jacobianOf fs x)) ∧
      ∀ (p : LinearProblem α) (x : List α), x.length = p.numVariables →
        ∃ check, p.toProblem.checkDerivative (.ofVector x) = .ok check ∧
          check.Measures p.matrix p.matrix := by
  refine ⟨?function, ?linear⟩
  case function =>
    intro n p fs K hanswers hfs x hx
    exact hanswers.yields.measures hanswers.size_eq hfs hx
  case linear =>
    intro p x hx
    have hsize : p.matrix.height = p.polynomials.length := by
      rw [LinearProblem.polynomials, List.length_zipWith, p.length_target]
      exact (min_self _).symm
    have h := p.yields.measures (fun _ _ => ⟨hsize, rfl⟩) p.quadraticInEach_polynomials hx
    rwa [p.jacobianOf_polynomials] at h

end Exact

/-! ## A wrong entry -/

noncomputable def bent : List (MvPolynomial (Fin 2) ℝ) := [X 0 ^ 2 * X 1, X 1]

/-- The reported derivative of `bent`, which leaves out the upper right entry. -/
def bentReport (y : List ℝ) : DenseMatrix ℝ :=
  .ofFn 2 2 fun i j =>
    if i = j then if i = 0 then y.getD 0 0 * (y.getD 1 0 + y.getD 1 0) else 1 else 0

def bentProblem : FunctionProblem ℝ where
  residual x :=
    match x.toVector? with
    | some [a, b] => .ok (.ofVector [a ^ 2 * b, b])
    | _ => .error .lengths
  jacobian x :=
    match x.toVector? with
    | some [a, b] => .ok ⟨[2, 2], [a * (b + b), 0, 0, 1], rfl⟩
    | _ => .error .lengths
  numVariables := some 2

theorem quadraticInEach_bent : QuadraticInEach bent := by
  intro f hf j
  simp only [bent, List.mem_cons, List.not_mem_nil, or_false] at hf
  rcases hf with rfl | rfl
  · have hpower := degreeOf_pow_le j (X 0 : MvPolynomial (Fin 2) ℝ) 2
    refine (degreeOf_mul_le j _ _).trans ((Nat.add_le_add_right hpower _).trans ?_)
    rw [degreeOf_X, degreeOf_X]
    fin_cases j <;> simp
  · rw [degreeOf_X]
    split <;> simp

theorem answers_bent : bentProblem.Answers bent bentReport := by
  constructor
  case accepts => rfl
  case size_eq => exact fun y hy => ⟨rfl, rfl⟩
  case residual_eq =>
    intro y hy
    obtain ⟨a, b, rfl⟩ := List.length_eq_two.mp hy
    exact ⟨_, rfl, by simp [bent, valuesOf, assign, Tensor.toVector?_ofVector]⟩
  case jacobian_eq =>
    intro y hy
    obtain ⟨a, b, rfl⟩ := List.length_eq_two.mp hy
    refine ⟨_, rfl, ?_⟩
    simp [bentReport, Tensor.toMatrix?, Tensor.pieces, DenseMatrix.ofFn, List.range_succ]

theorem measures_bent :
    ∃ check, bentProblem.toProblem.checkDerivative (.ofVector [1, 2]) = .ok check ∧
      check.Measures (bentReport [1, 2]) (jacobianOf bent [1, 2]) ∧
      check.analytic.rows = [[4, 0], [0, 1]] ∧ check.numerical.rows = [[4, 1], [0, 1]] ∧
      check.isAccurate 0 = false := by
  obtain ⟨check, hcheck, hmeasures⟩ := checkDerivative_measures.1 bentProblem bent bentReport
    answers_bent quadraticInEach_bent [1, 2] rfl
  have hanalytic : (bentReport [1, 2]).rows = [[4, 0], [0, 1]] := by
    simp [bentReport, DenseMatrix.ofFn, List.range_succ]
    norm_num
  have hnumerical : (jacobianOf bent [1, 2]).rows = [[4, 1], [0, 1]] := by
    simp [jacobianOf, bent, assign, pderiv_X]
    norm_num
  have hdiffer : bentReport [1, 2] ≠ jacobianOf bent [1, 2] := by
    intro hsame
    rw [← hsame, hanalytic] at hnumerical
    norm_num at hnumerical
  refine ⟨check, hcheck, hmeasures, ?_, ?_, ?_⟩
  · rw [hmeasures.analytic_eq, hanalytic]
  · rw [hmeasures.numerical_eq, hnumerical]
  · rw [Bool.eq_false_iff]
    exact mt hmeasures.isAccurate_zero.mp hdiffer

end BoundedFit
