import BoundedFit.Solver.Derivative
import BoundedFit.Proofs.Linear.Objective
import BoundedFit.Proofs.Linear.Cholesky

/-!
# What a comparison of two matrices measures

With exact roots, Euclidean lengths.
-/

namespace BoundedFit

/-- Roots of numbers that are not negative are exact, and not negative. -/
class ExactRoots (α : Type) [Mul α] [Zero α] [LE α] [Scalar α] : Prop where
  sqrt_nonneg : ∀ v : α, 0 ≤ v → 0 ≤ Scalar.sqrt v
  sqrt_mul_self : ∀ v : α, 0 ≤ v → Scalar.sqrt v * Scalar.sqrt v = v

instance : ExactRoots ℝ where
  sqrt_nonneg v _ := Real.sqrt_nonneg v
  sqrt_mul_self _ h := Real.mul_self_sqrt h

/-! ## Matrices that are given by their entries -/

namespace DenseMatrix

variable {α : Type} [Zero α]

theorem ext_entry {A B : DenseMatrix α} (hheight : A.height = B.height) (hcols : A.cols = B.cols)
    (h : ∀ i < A.height, ∀ j < A.cols, A.entry i j = B.entry i j) : A = B := by
  have hrows : A.rows = B.rows := by
    rw [A.rows_eq, B.rows_eq, ← hheight, ← hcols]
    exact Vec.ofFn_congr fun i hi => Vec.ofFn_congr fun j hj => h i hi j hj
  cases A
  cases B
  simp_all

theorem entry_ofFn {height cols i j : Nat} (f : Nat → Nat → α) (hi : i < height) (hj : j < cols) :
    (ofFn height cols f).entry i j = f i j := by
  simp [entry, ofFn, hi, hj]

theorem columns_ofFn (height cols : Nat) (f : Nat → Nat → α) :
    (ofFn height cols f).columns = Vec.ofFn cols fun j => Vec.ofFn height fun i => f i j := by
  apply Vec.ofFn_congr
  intro j hj
  have hheight : (ofFn height cols f).height = height := by simp [DenseMatrix.height, ofFn]
  rw [column_eq _ hj, hheight]
  exact Vec.ofFn_congr fun i hi => entry_ofFn f hi hj

end DenseMatrix

/-! ## Lengths -/

section Roots

variable {α : Type} [Field α] [LinearOrder α]

/-- `v` is the square root of `s`. -/
def IsRoot (v s : α) : Prop := 0 ≤ v ∧ v ^ 2 = s

namespace Vec

omit [LinearOrder α] in
theorem sum_squares_ofFn (n : Nat) (f : Nat → α) :
    ((ofFn n f).map (· ^ 2)).sum = ∑ i ∈ Finset.range n, f i ^ 2 := by
  rw [map_ofFn, List.sum_eq_foldl]
  exact sum_ofFn n _

variable [IsStrictOrderedRing α] [Scalar α] [ExactRoots α]

theorem isRoot_norm (u : List α) : IsRoot (norm u) (u.map (· ^ 2)).sum := by
  have hnonneg := dot_self_nonneg u
  refine ⟨ExactRoots.sqrt_nonneg _ hnonneg, ?_⟩
  rw [norm, sq, ExactRoots.sqrt_mul_self _ hnonneg, dot, List.zipWith_self, sum,
    ← List.sum_eq_foldl]
  simp only [sq]

theorem isRoot_norm_ofFn (n : Nat) (f : Nat → α) :
    IsRoot (norm (ofFn n f)) (∑ i ∈ Finset.range n, f i ^ 2) := by
  rw [← sum_squares_ofFn]
  exact isRoot_norm _

theorem norm_flatten_sq (rows : List (List α)) :
    norm rows.flatten ^ 2 = ((rows.map norm).map (· ^ 2)).sum := by
  rw [(isRoot_norm _).2, List.map_flatten, List.sum_flatten, List.map_map, List.map_map]
  congr 1
  apply List.map_congr_left
  intro row _
  exact (isRoot_norm row).2.symm

end Vec

end Roots

/-! ## Comparisons -/

section Compare

variable {α : Type} [Field α] [LinearOrder α] [Scalar α]

/-- The check compares these two matrices, and its errors are the lengths of the columns and rows of
their difference. -/
structure DerivativeCheck.Measures (check : DerivativeCheck α) (reported derivative : DenseMatrix α) :
    Prop where
  analytic_eq : check.analytic = reported
  numerical_eq : check.numerical = derivative
  length_columnErrors : check.columnErrors.length = derivative.cols
  isRoot_columnErrors : ∀ j v, check.columnErrors[j]? = some v →
    IsRoot v (∑ i ∈ Finset.range derivative.height, (derivative.entry i j - reported.entry i j) ^ 2)
  length_rowErrors : check.rowErrors.length = derivative.height
  isRoot_rowErrors : ∀ i v, check.rowErrors[i]? = some v →
    IsRoot v (∑ j ∈ Finset.range derivative.cols, (derivative.entry i j - reported.entry i j) ^ 2)
  isRoot_error_columns : IsRoot check.error (check.columnErrors.map (· ^ 2)).sum
  isRoot_error_rows : IsRoot check.error (check.rowErrors.map (· ^ 2)).sum
  isAccurate_zero : check.isAccurate 0 = true ↔ reported = derivative

namespace DerivativeCheck

variable (reported derivative : DenseMatrix α)

omit [LinearOrder α] in
theorem rowErrors_compare : (compare reported derivative).rowErrors =
    Vec.ofFn reported.height fun i => Vec.norm (Vec.ofFn reported.cols fun j =>
      derivative.entry i j - reported.entry i j) :=
  Vec.map_ofFn _ _ _

omit [LinearOrder α] in
theorem columnErrors_compare : (compare reported derivative).columnErrors =
    Vec.ofFn reported.cols fun j => Vec.norm (Vec.ofFn reported.height fun i =>
      derivative.entry i j - reported.entry i j) := by
  have hcolumns := DenseMatrix.columns_ofFn reported.height reported.cols fun i j =>
    derivative.entry i j - reported.entry i j
  rw [← Vec.map_ofFn, ← hcolumns]
  rfl

variable [IsStrictOrderedRing α] [ExactRoots α]

theorem sum_rowErrors_compare : ((compare reported derivative).rowErrors.map (· ^ 2)).sum =
    ∑ i ∈ Finset.range reported.height, ∑ j ∈ Finset.range reported.cols,
      (derivative.entry i j - reported.entry i j) ^ 2 := by
  rw [rowErrors_compare, Vec.sum_squares_ofFn]
  exact Finset.sum_congr rfl fun i _ => (Vec.isRoot_norm_ofFn _ _).2

theorem sum_columnErrors_compare : ((compare reported derivative).columnErrors.map (· ^ 2)).sum =
    ((compare reported derivative).rowErrors.map (· ^ 2)).sum := by
  rw [sum_rowErrors_compare, Finset.sum_comm, columnErrors_compare, Vec.sum_squares_ofFn]
  exact Finset.sum_congr rfl fun j _ => (Vec.isRoot_norm_ofFn _ _).2

theorem isRoot_error_compare : IsRoot (compare reported derivative).error
    ((compare reported derivative).rowErrors.map (· ^ 2)).sum :=
  ⟨(Vec.isRoot_norm _).1, Vec.norm_flatten_sq _⟩

variable {reported derivative}

theorem error_compare_eq_zero_iff (hheight : reported.height = derivative.height)
    (hcols : reported.cols = derivative.cols) :
    (compare reported derivative).error = 0 ↔ reported = derivative := by
  rw [← sq_eq_zero_iff, (isRoot_error_compare _ _).2, sum_rowErrors_compare]
  constructor
  · intro hzero
    apply DenseMatrix.ext_entry hheight hcols
    intro i hi j hj
    rw [Finset.sum_eq_zero_iff_of_nonneg fun i _ => Finset.sum_nonneg fun j _ => sq_nonneg _] at hzero
    have hrow := hzero i (Finset.mem_range.mpr hi)
    rw [Finset.sum_eq_zero_iff_of_nonneg fun j _ => sq_nonneg _] at hrow
    have hentry := hrow j (Finset.mem_range.mpr hj)
    exact (sub_eq_zero.mp (sq_eq_zero_iff.mp hentry)).symm
  · rintro rfl
    simp

theorem measures_compare (hheight : reported.height = derivative.height)
    (hcols : reported.cols = derivative.cols) :
    (compare reported derivative).Measures reported derivative := by
  have herror := isRoot_error_compare reported derivative
  constructor
  case analytic_eq => rfl
  case numerical_eq => rfl
  case length_columnErrors => rw [columnErrors_compare, Vec.length_ofFn, hcols]
  case length_rowErrors => rw [rowErrors_compare, Vec.length_ofFn, hheight]
  case isRoot_columnErrors =>
    intro j v hv
    rw [columnErrors_compare] at hv
    have hj : j < reported.cols := by simpa using (List.getElem?_eq_some_iff.mp hv).1
    rw [Vec.getElem?_ofFn _ hj] at hv
    obtain rfl := Option.some.inj hv
    rw [← hheight]
    exact Vec.isRoot_norm_ofFn _ _
  case isRoot_rowErrors =>
    intro i v hv
    rw [rowErrors_compare] at hv
    have hi : i < reported.height := by simpa using (List.getElem?_eq_some_iff.mp hv).1
    rw [Vec.getElem?_ofFn _ hi] at hv
    obtain rfl := Option.some.inj hv
    rw [← hcols]
    exact Vec.isRoot_norm_ofFn _ _
  case isRoot_error_rows => exact herror
  case isRoot_error_columns => rwa [sum_columnErrors_compare]
  case isAccurate_zero =>
    rw [← error_compare_eq_zero_iff hheight hcols]
    simp only [isAccurate, zero_mul, decide_eq_true_eq]
    exact ⟨fun h => h.antisymm herror.1, le_of_eq⟩

end DerivativeCheck

end Compare

end BoundedFit
