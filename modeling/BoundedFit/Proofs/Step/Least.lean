import BoundedFit.Proofs.Linear.Independent
import BoundedFit.Proofs.Linear.Objective
import BoundedFit.Proofs.Step.Unique

/-! # Steps of least damped error -/

namespace BoundedFit

variable {α : Type} [Field α] {J : DenseMatrix α} {r delta : List α} {damping : α}
  {free : Nat → Prop}

/-! ## Normal equations -/

/-- The equations `(damping · I + Jᵀ J) delta = -Jᵀ r`, one for each coordinate. -/
structure SolvesNormal (J : DenseMatrix α) (r : List α) (damping : α) (delta : List α) : Prop where
  length_eq : delta.length = J.cols
  row : ∀ i < J.cols, damping * delta.getD i 0 + (J.transposeMulVec (J.mulVec delta)).getD i 0 =
    -(J.transposeMulVec r).getD i 0

theorem DenseMatrix.getD_slope_eq_add (hr : r.length = J.height) {i : Nat} (hi : i < J.cols) :
    (J.slope r delta).getD i 0 =
      (J.transposeMulVec (J.mulVec delta)).getD i 0 + (J.transposeMulVec r).getD i 0 := by
  have himage : i < (J.transposeMulVec (J.mulVec delta)).length := by
    rwa [J.length_transposeMulVec]
  have hrhs : i < (J.transposeMulVec r).length := by rwa [J.length_transposeMulVec]
  unfold slope
  rw [J.transposeMulVec_add (J.length_mulVec delta) hr]
  simp [List.getElem?_zipWith, List.getElem?_eq_getElem himage, List.getElem?_eq_getElem hrhs]

theorem solvesNormal_iff (hr : r.length = J.height) :
    SolvesNormal J r damping delta ↔ IsStep J r damping (fun _ => True) delta := by
  constructor
  · intro h
    refine ⟨h.length_eq, fun i hi => absurd trivial hi, fun i hi _ => ?_⟩
    rw [DenseMatrix.getD_slope_eq_add hr hi]
    linear_combination h.row i hi
  · intro h
    refine ⟨h.length_eq, fun i hi => ?_⟩
    have hslope := h.slope i hi trivial
    rw [DenseMatrix.getD_slope_eq_add hr hi] at hslope
    linear_combination hslope

theorem IsStep.dot_slope (h : IsStep J r damping free delta) {w : List α} (hw : w.length = J.cols)
    (hpinned : ∀ i, ¬ free i → w.getD i 0 = 0) :
    damping * Vec.dot w delta + Vec.dot w (J.slope r delta) = 0 := by
  rw [Vec.dot_eq_sum hw h.length_eq, Vec.dot_eq_sum hw (J.length_slope r delta), Finset.mul_sum,
    ← Finset.sum_add_distrib]
  apply Finset.sum_eq_zero
  intro i hi
  by_cases hfree : free i
  · linear_combination w.getD i 0 * h.slope i (Finset.mem_range.mp hi) hfree
  · rw [hpinned i hfree]
    ring

variable [LinearOrder α] [IsStrictOrderedRing α]

/-! ## The least damped error -/

theorem IsStep.dampedError_lt (hr : r.length = J.height) (hdef : J.DefiniteOn damping free)
    (h : IsStep J r damping free delta) {d : List α} (hd : d.length = J.cols)
    (hpinned : ∀ i, ¬ free i → d.getD i 0 = 0) (hne : d ≠ delta) :
    J.dampedError r damping delta < J.dampedError r damping d := by
  have hdelta := h.length_eq
  obtain ⟨w, hw, rfl, hway⟩ := Vec.exists_way hdelta hd
  have hpinned' : ∀ i, ¬ free i → w.getD i 0 = 0 := by
    intro i hi
    rw [hway i, hpinned i hi, h.pinned i hi, sub_zero]
  have hmoves := Vec.exists_ne_zero_of_add_ne (hw.trans hdelta.symm) hne
  rw [J.dampedError_add hr hdelta hw, h.dot_slope hw hpinned']
  linarith [hdef w hw hpinned' hmoves]

theorem DenseMatrix.definiteOn_zero_iff : J.DefiniteOn 0 free ↔ J.IndependentOn free := by
  rw [independentOn_iff]
  unfold DefiniteOn
  refine forall_congr' fun v => imp_congr_right fun _ => imp_congr_right fun _ => ?_
  rw [zero_mul, zero_add, Vec.imp_dot_self_pos_iff]

theorem DenseMatrix.definiteOn_of_pos (hdamping : 0 < damping) : J.DefiniteOn damping free := by
  intro v _ _ hne
  have hself : 0 < Vec.dot v v := Vec.dot_self_pos_iff.mpr hne
  linarith [mul_pos hdamping hself, Vec.dot_self_nonneg (J.mulVec v)]

theorem DenseMatrix.definiteOn_iff (hdamping : 0 ≤ damping) :
    J.DefiniteOn damping free ↔ damping ≠ 0 ∨ J.IndependentOn free := by
  rcases hdamping.eq_or_lt with rfl | hpos
  · rw [definiteOn_zero_iff, ne_eq, eq_self, not_true, false_or]
  · exact iff_of_true (definiteOn_of_pos hpos) (Or.inl hpos.ne')

/-! ## Answers -/

namespace Solved

variable {result : Except (Fault α) (List α)}

theorem singular_iff (hdamping : 0 ≤ damping) (h : Solved J r damping free result) :
    (∃ fault, result = .error fault ∧ fault.kind = .singular) ↔
      damping = 0 ∧ ¬ J.IndependentOn free := by
  have hiff : ¬ J.DefiniteOn damping free ↔ damping = 0 ∧ ¬ J.IndependentOn free := by
    rw [DenseMatrix.definiteOn_iff hdamping]
    tauto
  rw [← hiff]
  cases h with
  | step hdef _ => exact iff_of_false (by rintro ⟨_, ⟨⟩, -⟩) (not_not.mpr hdef)
  | refused hdef => exact iff_of_true ⟨_, rfl, rfl⟩ hdef

theorem exists_step (hdamping : 0 ≤ damping) (h : Solved J r damping free result)
    (hfree : damping ≠ 0 ∨ J.IndependentOn free) :
    ∃ delta, result = .ok delta ∧ J.DefiniteOn damping free ∧ IsStep J r damping free delta := by
  rw [← DenseMatrix.definiteOn_iff hdamping] at hfree
  cases h with
  | step _ hstep => exact ⟨_, rfl, hfree, hstep⟩
  | refused hdef => exact absurd hfree hdef

end Solved

section Agree

variable {free' : Nat → Prop}

omit [LinearOrder α] [IsStrictOrderedRing α] in
theorem pinned_of_agree (hagree : ∀ i < J.cols, free i ↔ free' i) {v : List α}
    (hv : v.length = J.cols) (hpinned : ∀ i, ¬ free i → v.getD i 0 = 0) (i : Nat) (hi : ¬ free' i) :
    v.getD i 0 = 0 := by
  by_cases hlt : i < J.cols
  · exact hpinned i fun hfree => hi ((hagree i hlt).mp hfree)
  · simp [hv, hlt]

omit [IsStrictOrderedRing α] in
theorem DenseMatrix.definiteOn_of_agree (hagree : ∀ i < J.cols, free i ↔ free' i)
    (h : J.DefiniteOn damping free) : J.DefiniteOn damping free' := by
  intro v hv hpinned hne
  exact h v hv (pinned_of_agree (fun i hi => (hagree i hi).symm) hv hpinned) hne

omit [LinearOrder α] [IsStrictOrderedRing α] in
theorem IsStep.of_agree (hagree : ∀ i < J.cols, free i ↔ free' i)
    (h : IsStep J r damping free delta) : IsStep J r damping free' delta :=
  ⟨h.length_eq, pinned_of_agree hagree h.length_eq h.pinned,
    fun i hi hfree => h.slope i hi ((hagree i hi).mpr hfree)⟩

omit [IsStrictOrderedRing α] in
theorem Solved.of_agree {result : Except (Fault α) (List α)} (hagree : ∀ i < J.cols, free i ↔ free' i)
    (h : Solved J r damping free result) : Solved J r damping free' result := by
  cases h with
  | step hdef hstep =>
    exact .step (DenseMatrix.definiteOn_of_agree hagree hdef) (hstep.of_agree hagree)
  | refused hnot =>
    have hback := fun i hi => (hagree i hi).symm
    exact .refused fun hdef => hnot (DenseMatrix.definiteOn_of_agree hback hdef)

omit [IsStrictOrderedRing α] in
theorem Solved.eq_of_agree {result result' : Except (Fault α) (List α)} (hr : r.length = J.height)
    (hagree : ∀ i < J.cols, free i ↔ free' i) (h : Solved J r damping free result)
    (h' : Solved J r damping free' result') : result' = result := by
  simpa [Except.map_id] using (h.of_agree hagree).eq_map hr Iff.rfl (f := id) (fun _ hstep => hstep) h'

end Agree

variable [Scalar α] [ExactScalar α]

/-- The damped step is the one solution of the normal equations and the one vector of least damped error.
There is none exactly if there is no damping and the columns are linearly dependent. -/
theorem dampedStep_least (hr : r.length = J.height) (hdamping : 0 ≤ damping) :
    ((∃ fault, dampedStep J r damping = .error fault ∧ fault.kind = .singular) ↔
      damping = 0 ∧ ¬ J.IndependentOn fun _ => True) ∧
    (damping ≠ 0 ∨ (J.IndependentOn fun _ => True) →
      ∃ delta, dampedStep J r damping = .ok delta ∧
        (∀ d, SolvesNormal J r damping d ↔ d = delta) ∧
        ∀ d, d.length = J.cols → d ≠ delta →
          J.dampedError r damping delta < J.dampedError r damping d) := by
  have hsolved := solved_dampedStep (J := J) (r := r) hr hdamping
  refine ⟨hsolved.singular_iff hdamping, fun hfree => ?_⟩
  obtain ⟨delta, hdelta, hdef, hstep⟩ := hsolved.exists_step hdamping hfree
  refine ⟨delta, hdelta, fun d => ?_, fun d hd hne => ?_⟩
  · rw [solvesNormal_iff hr]
    constructor
    · intro hd
      exact hd.unique hr hdef hstep
    · rintro rfl
      exact hstep
  · exact hstep.dampedError_lt hr hdef hd (fun i hi => absurd trivial hi) hne

/-- A single row, so that any two columns are dependent. -/
def wide : DenseMatrix ℝ := ⟨3, [[1, 2, 2].map Nat.cast], by simp⟩

theorem dampedError_wide (damping a b c : ℝ) :
    wide.dampedError [10] damping [a, b, c] =
      (a + 2 * b + 2 * c + 10) ^ 2 + damping * (a ^ 2 + b ^ 2 + c ^ 2) := by
  simp [wide, DenseMatrix.dampedError, DenseMatrix.linearisedError, DenseMatrix.mulVec, Vec.dot,
    Vec.sum]
  ring

theorem solvesNormal_wide : SolvesNormal wide [10] 1 [-1, -2, -2] := by
  refine ⟨rfl, fun i hi => ?_⟩
  have hlt : i < 3 := hi
  interval_cases i <;>
    norm_num [wide, DenseMatrix.mulVec, DenseMatrix.transposeMulVec, DenseMatrix.columns,
      DenseMatrix.column, Vec.dot, Vec.sum, List.range_succ]

theorem not_independentOn_wide : ¬ wide.IndependentOn fun i => i < 2 := by
  rw [DenseMatrix.independentOn_iff]
  intro h
  have hzero := h [2, -1, 0] rfl (fun i hi => ?_) ?_ 2 (by simp)
  · norm_num at hzero
  · obtain ⟨k, rfl⟩ := Nat.exists_eq_add_of_le (not_lt.mp hi)
    rcases k with _ | k <;> simp [add_comm]
  · norm_num [wide, DenseMatrix.mulVec, Vec.dot, Vec.sum]

theorem dampedStep_wide :
    dampedStep wide [10] 1 = .ok [-1, -2, -2] ∧
      (∀ d, d.length = 3 → d ≠ [-1, -2, -2] → 10 < wide.dampedError [10] 1 d) ∧
      ∃ fault, dampedStep wide [10] 0 = .error fault ∧ fault.kind = .singular := by
  have hdependent : ¬ wide.IndependentOn fun _ => True :=
    fun h => not_independentOn_wide (h.mono fun i hi => ⟨hi.1, trivial⟩)
  obtain ⟨-, hstep⟩ := dampedStep_least (J := wide) (r := [10]) rfl zero_le_one
  obtain ⟨delta, hdelta, hsolves, hleast⟩ := hstep (Or.inl one_ne_zero)
  obtain rfl := (hsolves _).mp solvesNormal_wide
  refine ⟨hdelta, fun d hd hne => ?_, ?_⟩
  · have hlt := hleast d hd hne
    rw [dampedError_wide] at hlt
    linarith
  · exact (dampedStep_least (J := wide) (r := [10]) rfl le_rfl).1.mpr ⟨rfl, hdependent⟩

/-- The restricted step has the least damped error of all vectors that are zero at the pinned
coordinates. With every coordinate free, it is the damped step. -/
theorem restrictedStep_least {mask : List Bool} (hr : r.length = J.height) (hdamping : 0 ≤ damping)
    (hmask : mask.length = J.cols) :
    ((∃ fault, restrictedStep J r damping mask = .error fault ∧ fault.kind = .singular) ↔
      damping = 0 ∧ ¬ J.IndependentOn fun i => mask[i]? = some true) ∧
    (damping ≠ 0 ∨ (J.IndependentOn fun i => mask[i]? = some true) →
      ∃ delta, restrictedStep J r damping mask = .ok delta ∧ delta.length = J.cols ∧
        (∀ i : Nat, mask[i]? = some false → delta[i]? = some 0) ∧
        (∀ i : Nat, mask[i]? = some true →
          (J.slope r delta).getD i 0 + damping * delta.getD i 0 = 0) ∧
        ∀ d, d.length = J.cols → (∀ i : Nat, mask[i]? = some false → d[i]? = some 0) → d ≠ delta →
          J.dampedError r damping delta < J.dampedError r damping d) ∧
    ((∀ b ∈ mask, b = true) → restrictedStep J r damping mask = dampedStep J r damping) := by
  have hsolved := solved_restrictedStep (J := J) (r := r) hr hdamping hmask
  refine ⟨hsolved.singular_iff hdamping, fun hfree => ?_, fun hall => ?_⟩
  · obtain ⟨delta, hdelta, hdef, hstep⟩ := hsolved.exists_step hdamping hfree
    have hlength := hstep.length_eq
    refine ⟨delta, hdelta, hlength, fun i hi => ?_, fun i hi => ?_, fun d hd hpinned hne => ?_⟩
    · have hlt : i < delta.length := hlength ▸ hmask ▸ (List.getElem?_eq_some_iff.mp hi).1
      have hzero := hstep.pinned i (by simp [hi])
      simpa [hlt] using hzero
    · have hlt : i < J.cols := hmask ▸ (List.getElem?_eq_some_iff.mp hi).1
      rw [add_comm, hstep.slope i hlt hi]
    · refine hstep.dampedError_lt hr hdef hd (fun i hi => ?_) hne
      exact pinned_of_mask hmask hd (fun j hj => by simp [hpinned j hj]) i hi
  · refine (solved_dampedStep hr hdamping).eq_of_agree hr (fun i hi => iff_of_true trivial ?_) hsolved
    have hlt : i < mask.length := hmask ▸ hi
    rw [List.getElem?_eq_getElem hlt, hall _ (List.getElem_mem hlt)]

theorem independentOn_wide : wide.IndependentOn fun i => [true, false, false][i]? = some true := by
  rw [DenseMatrix.independentOn_iff]
  intro v hv hpinned himage
  obtain ⟨a, b, c, rfl⟩ := List.length_eq_three.mp hv
  obtain rfl : b = 0 := hpinned 1 (by simp)
  obtain rfl : c = 0 := hpinned 2 (by simp)
  have ha : a = 0 := by simpa [wide, DenseMatrix.mulVec, Vec.dot, Vec.sum] using himage
  simp [ha]

theorem restrictedStep_wide :
    restrictedStep wide [10] 0 [true, false, false] = .ok [-10, 0, 0] ∧
      (∃ fault, restrictedStep wide [10] 0 [true, true, false] = .error fault ∧
        fault.kind = .singular) ∧
      restrictedStep wide [10] 1 [true, true, true] = dampedStep wide [10] 1 := by
  refine ⟨?_, ?_, ?_⟩
  · have hmask : [true, false, false].length = wide.cols := rfl
    obtain ⟨-, hstep, -⟩ := restrictedStep_least (J := wide) (r := [10]) rfl le_rfl hmask
    obtain ⟨delta, hdelta, hlength, hpinned, hslope, -⟩ := hstep (Or.inr independentOn_wide)
    obtain ⟨a, b, c, rfl⟩ := List.length_eq_three.mp hlength
    obtain rfl : b = 0 := by simpa using hpinned 1 rfl
    obtain rfl : c = 0 := by simpa using hpinned 2 rfl
    have ha := hslope 0 rfl
    simp [wide, DenseMatrix.slope, DenseMatrix.mulVec, DenseMatrix.transposeMulVec,
      DenseMatrix.columns, DenseMatrix.column, Vec.dot, Vec.sum, List.range_succ] at ha
    obtain rfl : a = -10 := by linarith
    exact hdelta
  · refine (restrictedStep_least (J := wide) (r := [10]) rfl le_rfl rfl).1.mpr ⟨rfl, fun h => ?_⟩
    refine not_independentOn_wide (h.mono ?_)
    rintro i ⟨hi, hlt⟩
    have hlt : i < 2 := hlt
    interval_cases i <;> exact ⟨hi, rfl⟩
  · have hmask : [true, true, true].length = wide.cols := rfl
    obtain ⟨-, -, hall⟩ := restrictedStep_least (J := wide) (r := [10]) rfl zero_le_one hmask
    exact hall (by simp)

end BoundedFit
