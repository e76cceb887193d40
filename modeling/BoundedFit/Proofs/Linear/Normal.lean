import BoundedFit.Proofs.Linear.Cholesky

/-!
# Normal equations

There is a step exactly if the normal matrix is positive definite.
-/

namespace BoundedFit

namespace Vec

variable {α : Type} [CommRing α]

theorem dot_eq_sum {n : Nat} {u v : List α} (hu : u.length = n) (hv : v.length = n) :
    dot u v = ∑ i ∈ Finset.range n, u.getD i 0 * v.getD i 0 := by
  rw [← dot_ofFn, ← hu, ← eq_ofFn u 0, hu, ← hv, ← eq_ofFn v 0]

theorem dot_add {n : Nat} {u v w : List α} (hu : u.length = n) (hv : v.length = n)
    (hw : w.length = n) : dot u (List.zipWith (· + ·) v w) = dot u v + dot u w := by
  rw [eq_ofFn u 0, eq_ofFn v 0, eq_ofFn w 0, hu, hv, hw, zipWith_ofFn, dot_ofFn, dot_ofFn, dot_ofFn]
  simp only [mul_add, Finset.sum_add_distrib]

theorem dot_eq_zero {u v : List α} (hlength : u.length = v.length)
    (h : ∀ i, u.getD i 0 * v.getD i 0 = 0) : dot u v = 0 := by
  rw [dot_eq_sum hlength rfl]
  exact Finset.sum_eq_zero fun i _ => h i

end Vec

namespace DenseMatrix

variable {α : Type} [Field α] (J : DenseMatrix α)

theorem dot_transposeMulVec {v u : List α} (hv : v.length = J.cols) (hu : u.length = J.height) :
    Vec.dot v (J.transposeMulVec u) = Vec.dot (J.mulVec v) u := by
  rw [Vec.eq_ofFn v 0, Vec.eq_ofFn u 0, hv, hu, transposeMulVec_ofFn, mulVec_ofFn, Vec.dot_ofFn,
    Vec.dot_ofFn]
  simp only [Finset.mul_sum, Finset.sum_mul]
  rw [Finset.sum_comm]
  apply Finset.sum_congr rfl
  intro i _
  apply Finset.sum_congr rfl
  intro j _
  ring

/-- The gradient of half the linearised objective after the step `delta`. -/
def slope (r delta : List α) : List α :=
  J.transposeMulVec (List.zipWith (· + ·) (J.mulVec delta) r)

theorem length_slope (r delta : List α) : (J.slope r delta).length = J.cols :=
  J.length_transposeMulVec _

theorem foretold_of_zero {r delta : List α} (hr : r.length = J.height) (hdelta : delta.length = J.cols)
    (h : ∀ i, delta.getD i 0 = 0) : List.zipWith (· + ·) (J.mulVec delta) r = r := by
  have himage : J.mulVec delta = Vec.ofFn J.height fun _ => 0 := by
    rw [Vec.eq_ofFn delta 0, hdelta, mulVec_ofFn]
    simp only [h, mul_zero, Finset.sum_const_zero]
  rw [himage, Vec.eq_ofFn r 0, hr, Vec.zipWith_ofFn]
  simp

theorem normalEntry_comm (damping : α) (i j : Nat) :
    J.normalEntry damping i j = J.normalEntry damping j i := by
  unfold normalEntry
  simp only [eq_comm, mul_comm]

theorem sum_normalEntry (damping : α) (x : Nat → α) {i : Nat} (hi : i < J.cols) :
    ∑ j ∈ Finset.range J.cols, J.normalEntry damping i j * x j =
      damping * x i + ∑ k ∈ Finset.range J.height,
        J.entry k i * ∑ j ∈ Finset.range J.cols, J.entry k j * x j := by
  unfold normalEntry
  simp only [add_mul, Finset.sum_add_distrib]
  congr 1
  · simp [hi]
  · simp only [Finset.sum_mul, Finset.mul_sum]
    rw [Finset.sum_comm]
    apply Finset.sum_congr rfl
    intro k _
    apply Finset.sum_congr rfl
    intro j _
    ring

theorem quadratic_normalEntry (damping : α) (x : Nat → α) :
    Cholesky.quadratic J.cols (J.normalEntry damping) x =
      damping * Vec.dot (Vec.ofFn J.cols x) (Vec.ofFn J.cols x) +
        Vec.dot (J.mulVec (Vec.ofFn J.cols x)) (J.mulVec (Vec.ofFn J.cols x)) := by
  have hrows : Cholesky.quadratic J.cols (J.normalEntry damping) x =
      ∑ i ∈ Finset.range J.cols, x i * (damping * x i + ∑ k ∈ Finset.range J.height,
        J.entry k i * ∑ j ∈ Finset.range J.cols, J.entry k j * x j) := by
    unfold Cholesky.quadratic
    apply Finset.sum_congr rfl
    intro i hi
    rw [J.sum_normalEntry damping x (Finset.mem_range.mp hi)]
  rw [hrows, ← J.dot_transposeMulVec (Vec.length_ofFn _ _) (J.length_mulVec _), mulVec_ofFn,
    transposeMulVec_ofFn, Vec.dot_ofFn, Vec.dot_ofFn]
  simp only [mul_add, Finset.sum_add_distrib, Finset.mul_sum]
  congr 1
  apply Finset.sum_congr rfl
  intro i _
  ring

variable [LinearOrder α]

/-- The normal matrix is positive definite. -/
def Definite (damping : α) : Prop :=
  ∀ v : List α, v.length = J.cols → (∃ a ∈ v, a ≠ 0) →
    0 < damping * Vec.dot v v + Vec.dot (J.mulVec v) (J.mulVec v)

theorem positive_of_definite {damping : α} (h : J.Definite damping) :
    Cholesky.Positive J.cols (J.normalEntry damping) := by
  intro x ⟨i, hi, hx⟩
  rw [quadratic_normalEntry]
  apply h
  · simp
  · exact ⟨x i, List.mem_map_of_mem (List.mem_range.mpr hi), hx⟩

theorem definite_of_positive {damping : α} (h : Cholesky.Positive J.cols (J.normalEntry damping)) :
    J.Definite damping := by
  intro v hv ⟨a, ha, hne⟩
  obtain ⟨i, hi, rfl⟩ := List.mem_iff_getElem.mp ha
  have hform := h (v.getD · 0) ⟨i, hv ▸ hi, by simpa [hi] using hne⟩
  have hentries : Vec.ofFn J.cols (v.getD · 0) = v := by rw [← hv, ← Vec.eq_ofFn v 0]
  rwa [quadratic_normalEntry, hentries] at hform

end DenseMatrix

/-! ## Damped steps -/

section Solve

variable {α : Type} [Add α] [Sub α] [Mul α] [Div α] [Neg α] [Zero α] [One α]
  [LT α] [DecidableLT α] [Scalar α] {J : DenseMatrix α} {r delta : List α}
  {damping : α}

theorem of_dampedStep_eq_ok (h : dampedStep J r damping = .ok delta) :
    r.length = J.height ∧ ¬ damping < 0 ∧
      ∃ factor, Cholesky.factor? J.cols (normalMatrix J damping) = some factor ∧
        delta = Cholesky.solve factor (normalRhs J r) := by
  unfold dampedStep at h
  split at h
  · cases h
  rename_i hr
  split at h
  · cases h
  rename_i hdamping
  split at h
  · cases h
  split at h
  · cases h
  · rename_i factor hfactor
    split at h
    · exact ⟨not_not.mp hr, hdamping, factor, hfactor, (Except.ok.inj h).symm⟩
    · cases h

theorem length_dampedStep (h : dampedStep J r damping = .ok delta) : delta.length = J.cols := by
  obtain ⟨-, -, factor, hfactor, rfl⟩ := of_dampedStep_eq_ok h
  rw [normalMatrix_eq_table] at hfactor
  apply Cholesky.length_solve hfactor
  unfold normalRhs
  rw [List.length_map, DenseMatrix.length_transposeMulVec]

end Solve

section Exact

variable {α : Type} [Field α] [LinearOrder α] [Scalar α] [ExactScalar α] {J : DenseMatrix α}
  {r delta : List α} {damping : α}

theorem slope_of_dampedStep (h : dampedStep J r damping = .ok delta) {i : Nat} (hi : i < J.cols) :
    damping * delta.getD i 0 + (J.slope r delta).getD i 0 = 0 := by
  obtain ⟨hr, -, factor, hfactor, hdelta⟩ := of_dampedStep_eq_ok h
  have hr' : r = Vec.ofFn J.height (r.getD · 0) := hr ▸ Vec.eq_ofFn r 0
  rw [normalMatrix_eq] at hfactor
  obtain ⟨x, hx, hrows⟩ := Cholesky.solve_spec (J.normalEntry_comm damping) hfactor
    fun j => -∑ i ∈ Finset.range J.height, J.entry i j * r.getD i 0
  rw [hr', normalRhs_eq, hx] at hdelta
  have hrow := hrows i hi
  rw [J.sum_normalEntry damping x hi] at hrow
  unfold DenseMatrix.slope
  rw [hdelta, DenseMatrix.mulVec_ofFn, hr', Vec.zipWith_ofFn, DenseMatrix.transposeMulVec_ofFn,
    Vec.getD_ofFn _ _ hi, Vec.getD_ofFn _ _ hi]
  simp only [mul_add, Finset.sum_add_distrib]
  linear_combination hrow

theorem definite_of_dampedStep [IsStrictOrderedRing α] (h : dampedStep J r damping = .ok delta) :
    J.Definite damping := by
  obtain ⟨-, -, factor, hfactor, -⟩ := of_dampedStep_eq_ok h
  rw [normalMatrix_eq] at hfactor
  exact J.definite_of_positive (Cholesky.positive_of_factor? (J.normalEntry_comm damping) hfactor)

theorem exists_dampedStep (hdamping : 0 ≤ damping) (hr : r.length = J.height)
    (h : J.Definite damping) : ∃ delta, dampedStep J r damping = .ok delta := by
  obtain ⟨factor, hfactor⟩ :=
    Cholesky.exists_factor? (J.normalEntry_comm damping) (J.positive_of_definite h)
  unfold dampedStep
  rw [if_neg (not_not.mpr hr), if_neg (not_lt.mpr hdamping), normalMatrix_eq, hfactor]
  simp [ExactScalar.isFinite_eq]

end Exact

end BoundedFit
