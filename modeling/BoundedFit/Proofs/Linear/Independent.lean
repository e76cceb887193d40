import Mathlib.LinearAlgebra.LinearIndependent.Defs
import BoundedFit.Proofs.Linear.Table

/-! # Independent columns -/

namespace BoundedFit.DenseMatrix

variable {α : Type} [Field α]

/-- The columns at the free coordinates are linearly independent. -/
def IndependentOn (J : DenseMatrix α) (free : Nat → Prop) : Prop :=
  LinearIndepOn α (fun (j : Nat) (i : Fin J.height) => J.entry i j) {j | j < J.cols ∧ free j}

variable {J : DenseMatrix α} {free : Nat → Prop}

theorem forall_mem_mulVec (x : Nat → α) :
    (∀ u ∈ J.mulVec (Vec.ofFn J.cols x), u = 0) ↔
      ∀ i < J.height, ∑ j ∈ Finset.range J.cols, J.entry i j * x j = 0 := by
  rw [mulVec_ofFn]
  unfold Vec.ofFn
  simp only [List.forall_mem_map, List.mem_range]

theorem sum_columns_eq_zero_iff [DecidablePred free] {x : Nat → α} (hx : ∀ j, ¬ free j → x j = 0) :
    ∑ j ∈ (Finset.range J.cols).filter free, x j • (fun i : Fin J.height => J.entry i j) = 0 ↔
      ∀ i < J.height, ∑ j ∈ Finset.range J.cols, J.entry i j * x j = 0 := by
  have hentry : ∀ i : Nat, ∑ j ∈ (Finset.range J.cols).filter free, x j * J.entry i j =
      ∑ j ∈ Finset.range J.cols, J.entry i j * x j := by
    intro i
    rw [Finset.sum_filter]
    apply Finset.sum_congr rfl
    intro j _
    split
    · exact mul_comm _ _
    · rename_i hfree
      rw [hx j hfree, mul_zero]
  simp only [funext_iff, Finset.sum_apply, Pi.smul_apply, smul_eq_mul, Pi.zero_apply, hentry]
  exact ⟨fun h i hi => h ⟨i, hi⟩, fun h i => h i i.isLt⟩

theorem independentOn_iff_coefficients :
    J.IndependentOn free ↔ ∀ x : Nat → α, (∀ j, ¬ free j → x j = 0) →
      (∀ i < J.height, ∑ j ∈ Finset.range J.cols, J.entry i j * x j = 0) → ∀ j < J.cols, x j = 0 := by
  classical
  have hset : {j | j < J.cols ∧ free j} = ↑((Finset.range J.cols).filter free) := by
    ext j
    simp
  unfold IndependentOn
  rw [hset, linearIndepOn_finset_iff]
  constructor
  · intro h x hx himage j hj
    by_cases hfree : free j
    · exact h x ((sum_columns_eq_zero_iff hx).mpr himage) j (by simp [hj, hfree])
    · exact hx j hfree
  · intro h f hf j hj
    obtain ⟨hlt, hfree⟩ := Finset.mem_filter.mp hj
    -- The coefficients at pinned coordinates do not matter, so they are taken to be zero.
    have hsame : ∑ j ∈ (Finset.range J.cols).filter free,
        (if free j then f j else 0) • (fun i : Fin J.height => J.entry i j) = 0 := by
      rw [← hf]
      apply Finset.sum_congr rfl
      intro k hk
      rw [if_pos (Finset.mem_filter.mp hk).2]
    have hzero := h (fun j => if free j then f j else 0) (fun k hk => if_neg hk)
      ((sum_columns_eq_zero_iff fun k hk => if_neg hk).mp hsame) j (Finset.mem_range.mp hlt)
    simpa [hfree] using hzero

theorem independentOn_iff :
    J.IndependentOn free ↔ ∀ v : List α, v.length = J.cols → (∀ i, ¬ free i → v.getD i 0 = 0) →
      (∀ u ∈ J.mulVec v, u = 0) → ∀ a ∈ v, a = 0 := by
  rw [independentOn_iff_coefficients]
  constructor
  · intro h v hv hpinned himage a ha
    obtain ⟨j, hj, rfl⟩ := List.mem_iff_getElem.mp ha
    rw [Vec.eq_ofFn v 0, hv, forall_mem_mulVec] at himage
    simpa [hj] using h (v.getD · 0) hpinned himage j (hv ▸ hj)
  · intro h x hx himage j hj
    refine h (Vec.ofFn J.cols x) (Vec.length_ofFn _ _) (fun i hi => ?_)
      ((forall_mem_mulVec x).mpr himage) _ (List.mem_map_of_mem (List.mem_range.mpr hj))
    by_cases hlt : i < J.cols
    · rw [Vec.getD_ofFn x 0 hlt, hx i hi]
    · simp [hlt]

end BoundedFit.DenseMatrix
