import Mathlib.Tactic
import Mathlib.Algebra.BigOperators.Group.Finset.Basic
import Mathlib.Algebra.BigOperators.Ring.Finset
import BoundedFit.Step.Damped

/-!
# Vectors and matrices by their entries

In this form products are sums over ranges.
-/

namespace BoundedFit

/-- The vector of length `n` with the entries `f i`. -/
def Vec.ofFn {α : Type} (n : Nat) (f : Nat → α) : List α := (List.range n).map f

/-- The square matrix with the entries `f i j`, as the list of its rows. -/
def table {α : Type} (n : Nat) (f : Nat → Nat → α) : List (List α) :=
  Vec.ofFn n fun i => Vec.ofFn n (f i)

namespace Vec

section Lists

variable {α β γ : Type}

@[simp] theorem length_ofFn (n : Nat) (f : Nat → α) : (ofFn n f).length = n := by simp [ofFn]

theorem ofFn_succ (n : Nat) (f : Nat → α) : ofFn (n + 1) f = f 0 :: ofFn n fun i => f (i + 1) := by
  simp [ofFn, List.range_succ_eq_map, Function.comp_def]

theorem getElem?_ofFn {n i : Nat} (f : Nat → α) (h : i < n) : (ofFn n f)[i]? = some (f i) := by
  simp [ofFn, h]

theorem getD_ofFn {n i : Nat} (f : Nat → α) (d : α) (h : i < n) : (ofFn n f).getD i d = f i := by
  simp [getElem?_ofFn f h]

theorem ofFn_congr {n : Nat} {f g : Nat → α} (h : ∀ i < n, f i = g i) : ofFn n f = ofFn n g := by
  unfold ofFn
  apply List.map_congr_left
  intro i hi
  exact h i (List.mem_range.mp hi)

theorem map_ofFn (n : Nat) (f : Nat → α) (g : α → β) : (ofFn n f).map g = ofFn n fun i => g (f i) := by
  simp [ofFn, Function.comp_def]

theorem zipWith_ofFn (n : Nat) (f : Nat → α) (g : Nat → β) (op : α → β → γ) :
    List.zipWith op (ofFn n f) (ofFn n g) = ofFn n fun i => op (f i) (g i) := by
  simp [ofFn, List.zipWith_map, List.zipWith_self]

theorem map_zipIdx_ofFn (n : Nat) (f : Nat → α) (g : α × Nat → β) :
    (ofFn n f).zipIdx.map g = ofFn n fun i => g (f i, i) := by
  unfold ofFn
  apply List.ext_getElem
  · simp
  · intro i _ _
    simp

theorem eq_ofFn (v : List α) (d : α) : v = ofFn v.length fun i => v.getD i d := by
  unfold ofFn
  apply List.ext_getElem
  · simp
  · intro i hi _
    simp [hi]

theorem getD_zeros [Zero α] (n i : Nat) : (List.replicate n (0 : α)).getD i 0 = 0 := by
  by_cases hi : i < n <;> simp [hi]

end Lists

variable {α : Type} [CommRing α]

theorem sum_ofFn (n : Nat) (f : Nat → α) : sum (ofFn n f) = ∑ i ∈ Finset.range n, f i := by
  unfold sum ofFn
  rw [← List.sum_eq_foldl]
  induction n with
  | zero => simp
  | succ n ih => rw [List.range_succ, List.map_append, List.sum_append, ih, Finset.sum_range_succ]; simp

theorem dot_ofFn (n : Nat) (f g : Nat → α) :
    dot (ofFn n f) (ofFn n g) = ∑ i ∈ Finset.range n, f i * g i := by
  unfold dot
  rw [zipWith_ofFn, sum_ofFn]

theorem dot_cons (a b : α) (u v : List α) : dot (a :: u) (b :: v) = a * b + dot u v := by
  unfold dot sum
  rw [List.zipWith_cons_cons, ← List.sum_eq_foldl, ← List.sum_eq_foldl, List.sum_cons]

theorem dot_nil_right (u : List α) : dot u [] = 0 := by simp [dot, sum]

theorem dot_comm (u v : List α) : dot u v = dot v u := by
  unfold dot
  rw [List.zipWith_comm]
  simp only [mul_comm]

end Vec

/-! ## Matrices -/

namespace DenseMatrix

variable {α : Type}

def entry [Zero α] (J : DenseMatrix α) (i j : Nat) : α := (J.rows.getD i []).getD j 0

section Entries

variable [Zero α] (J : DenseMatrix α)

theorem rows_eq : J.rows = Vec.ofFn J.height fun i => Vec.ofFn J.cols (J.entry i) := by
  rw [Vec.eq_ofFn J.rows []]
  apply Vec.ofFn_congr
  intro i hi
  have hrow : (J.rows.getD i []).length = J.cols := by
    apply J.length_of_mem
    simp [hi]
  conv_lhs => rw [Vec.eq_ofFn (J.rows.getD i []) 0, hrow]
  rfl

theorem column_eq {j : Nat} (hj : j < J.cols) :
    J.column j = Vec.ofFn J.height fun i => J.entry i j := by
  unfold column
  rw [rows_eq, Vec.map_ofFn]
  apply Vec.ofFn_congr
  intro i _
  exact Vec.getD_ofFn _ _ hj

theorem columns_eq : J.columns = Vec.ofFn J.cols J.column := rfl

end Entries

variable [CommRing α] (J : DenseMatrix α)

theorem mulVec_ofFn (x : Nat → α) :
    J.mulVec (Vec.ofFn J.cols x) =
      Vec.ofFn J.height fun i => ∑ j ∈ Finset.range J.cols, J.entry i j * x j := by
  unfold mulVec
  conv_lhs => rw [rows_eq]
  rw [Vec.map_ofFn]
  apply Vec.ofFn_congr
  intro i _
  exact Vec.dot_ofFn _ _ _

theorem transposeMulVec_ofFn (u : Nat → α) :
    J.transposeMulVec (Vec.ofFn J.height u) =
      Vec.ofFn J.cols fun j => ∑ i ∈ Finset.range J.height, J.entry i j * u i := by
  unfold transposeMulVec
  rw [columns_eq, Vec.map_ofFn]
  apply Vec.ofFn_congr
  intro j hj
  rw [column_eq J hj, Vec.dot_ofFn]

end DenseMatrix

section Normal

theorem normalMatrix_eq_table {α : Type} [Add α] [Mul α] [Zero α] [One α] (J : DenseMatrix α)
    (damping : α) : normalMatrix J damping = table J.cols fun i j =>
      damping * (if i = j then 1 else 0) + Vec.dot (J.column i) (J.column j) := by
  unfold normalMatrix
  rw [DenseMatrix.columns_eq, Vec.map_zipIdx_ofFn]
  simp only [Vec.map_zipIdx_ofFn]
  rfl

variable {α : Type} [Field α] (J : DenseMatrix α)

def DenseMatrix.normalEntry (damping : α) (i j : Nat) : α :=
  damping * (if i = j then 1 else 0) + ∑ k ∈ Finset.range J.height, J.entry k i * J.entry k j

theorem normalMatrix_eq (damping : α) :
    normalMatrix J damping = table J.cols (J.normalEntry damping) := by
  rw [normalMatrix_eq_table]
  apply Vec.ofFn_congr
  intro i hi
  apply Vec.ofFn_congr
  intro j hj
  dsimp only
  unfold DenseMatrix.normalEntry
  rw [J.column_eq hi, J.column_eq hj, Vec.dot_ofFn]

theorem normalRhs_eq (r : Nat → α) :
    normalRhs J (Vec.ofFn J.height r) =
      Vec.ofFn J.cols fun j => -∑ i ∈ Finset.range J.height, J.entry i j * r i := by
  unfold normalRhs
  rw [DenseMatrix.transposeMulVec_ofFn, Vec.map_ofFn]

end Normal

end BoundedFit
