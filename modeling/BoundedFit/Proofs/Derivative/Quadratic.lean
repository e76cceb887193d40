import Mathlib.Algebra.MvPolynomial.Degrees
import Mathlib.Algebra.MvPolynomial.PDeriv
import Mathlib.Tactic
import BoundedFit.Linear.Matrix

/-!
# Residuals that are quadratic in each variable

The slope of a chord of a parabola is the derivative at its middle.
-/

namespace BoundedFit

open MvPolynomial

/-! ## One polynomial -/

section Polynomial

variable {α : Type} [CommRing α] {n : Nat}

/-- The power of the other variables in a monomial. -/
def cofactor (m : Fin n →₀ Nat) (x : Fin n → α) (j : Fin n) : α :=
  ∏ i ∈ Finset.univ.erase j, x i ^ m i

theorem eval_update_monomial (m : Fin n →₀ Nat) (c : α) (x : Fin n → α) (j : Fin n) (t : α) :
    eval (Function.update x j t) (monomial m c) = c * (t ^ m j * cofactor m x j) := by
  rw [eval_monomial, Finsupp.prod_fintype _ _ fun i => pow_zero _,
    ← Finset.mul_prod_erase _ _ (Finset.mem_univ j), Function.update_self]
  congr 2
  apply Finset.prod_congr rfl
  intro i hi
  rw [Function.update_of_ne (Finset.ne_of_mem_erase hi)]

theorem eval_pderiv_monomial (m : Fin n →₀ Nat) (c : α) (x : Fin n → α) (j : Fin n) :
    eval x (pderiv j (monomial m c)) = c * m j * (x j ^ (m j - 1) * cofactor m x j) := by
  have hcofactor : cofactor (m - Finsupp.single j 1) x j = cofactor m x j := by
    apply Finset.prod_congr rfl
    intro i hi
    simp [Finset.ne_of_mem_erase hi]
  have h := eval_update_monomial (m - Finsupp.single j 1) (c * m j) x j (x j)
  rw [Function.update_eq_self] at h
  rw [pderiv_monomial, h, hcofactor]
  simp

/-- Along a variable of degree at most two, the difference between two opposite steps is the
derivative times the distance. -/
theorem eval_update_sub_eval_update {f : MvPolynomial (Fin n) α} {j : Fin n} (hf : f.degreeOf j ≤ 2)
    (x : Fin n → α) (h : α) :
    eval (Function.update x j (x j + h)) f - eval (Function.update x j (x j - h)) f =
      (h + h) * eval x (pderiv j f) := by
  conv_lhs => rw [← f.support_sum_monomial_coeff]
  conv_rhs => rw [← f.support_sum_monomial_coeff]
  simp only [map_sum]
  rw [← Finset.sum_sub_distrib, Finset.mul_sum]
  apply Finset.sum_congr rfl
  intro m hm
  have hdegree : m j ≤ 2 := degreeOf_le_iff.mp hf m hm
  rw [eval_update_monomial, eval_update_monomial, eval_pderiv_monomial]
  interval_cases m j
  · simp
  · push_cast
    ring
  · push_cast
    ring

end Polynomial

/-! ## Lists of polynomials -/

section Lists

variable {α : Type} [CommRing α] {n : Nat}

/-- A point given as a list, as an assignment to the variables. -/
def assign (n : Nat) (x : List α) (j : Fin n) : α := x.getD j 0

noncomputable def valuesOf (fs : List (MvPolynomial (Fin n) α)) (x : List α) : List α :=
  fs.map fun f => eval (assign n x) f

/-- The partial derivatives of the polynomials, a row for each polynomial. -/
noncomputable def jacobianOf (fs : List (MvPolynomial (Fin n) α)) (x : List α) : DenseMatrix α where
  cols := n
  rows := fs.map fun f => List.ofFn fun j => eval (assign n x) (pderiv j f)
  length_of_mem := by simp

def QuadraticInEach (fs : List (MvPolynomial (Fin n) α)) : Prop :=
  ∀ f ∈ fs, ∀ j, f.degreeOf j ≤ 2

theorem assign_modify {x : List α} (hx : x.length = n) (j : Fin n) (f : α → α) :
    assign n (x.modify j f) = Function.update (assign n x) j (f (assign n x j)) := by
  funext i
  have hi : (i : Nat) < x.length := by omega
  by_cases hij : i = j
  · subst hij
    simp [assign, hi]
  · have hne : (j : Nat) ≠ i := fun h => hij (Fin.ext h.symm)
    simp [assign, hi, hij, hne]

end Lists

end BoundedFit
