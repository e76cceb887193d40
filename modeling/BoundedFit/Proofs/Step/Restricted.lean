import BoundedFit.Proofs.Linear.Normal
import BoundedFit.Proofs.Step

/-! # Steps over the free coordinates -/

namespace BoundedFit

variable {α : Type} [Field α]

theorem slope_select (J : DenseMatrix α) (free : List Bool) (h : free.length = J.cols)
    (r step : List α) :
    (J.select free h).slope r step = DenseMatrix.keep free (J.slope r (scatter free step)) := by
  unfold DenseMatrix.slope
  rw [DenseMatrix.transposeMulVec_select, mulVec_select]

theorem gradientAt_eq {J : DenseMatrix α} {r delta : List α} (hdelta : delta.length = J.cols)
    (hr : r.length = J.height) : gradientAt J r delta = .ok (J.slope r delta) :=
  gradientAt_of_lengths hdelta hr

variable [LinearOrder α]

/-- The bounds that stay pinned after a step with the gradient `g`. -/
def staying (active : ActiveSet α) (g : List α) : ActiveSet α := active.filter fun b => !b.letsGo g

theorem release_eq {J : DenseMatrix α} {r delta : List α} {active : ActiveSet α}
    (hdelta : delta.length = J.cols)
    (hr : r.length = J.height) (hin : ∀ b ∈ active.members, b.index < J.cols) :
    release J r delta active = (.ok (active.members.filter (Bound.letsGo (J.slope r delta))),
      staying active (J.slope r delta)) := release_of_lengths hdelta hr hin

/-- The normal matrix is positive definite on the vectors that are zero at pinned coordinates. -/
def DenseState.Definite (s : DenseState α) (damping : α) (active : ActiveSet α) : Prop :=
  ∀ v : List α, v.length = s.jacobian.cols → (∀ b ∈ active.members, v.getD b.index 0 = 0) →
    (∃ a ∈ v, a ≠ 0) →
    0 < damping * Vec.dot v v + Vec.dot (s.jacobian.mulVec v) (s.jacobian.mulVec v)

theorem definite_select {J : DenseMatrix α} {damping : α} {free : List Bool}
    (hlength : free.length = J.cols)
    (h : ∀ v : List α, v.length = J.cols → (∀ i, free[i]? = some false → v.getD i 0 = 0) →
      (∃ a ∈ v, a ≠ 0) → 0 < damping * Vec.dot v v + Vec.dot (J.mulVec v) (J.mulVec v)) :
    (J.select free hlength).Definite damping := by
  intro v hv hne
  have hkeep : DenseMatrix.keep free (scatter free v) = v := keep_scatter hv
  have hscatter : (scatter free v).length = J.cols := (length_scatter free v).trans hlength
  obtain ⟨a, ha, hne⟩ := hne
  have hpos := h (scatter free v) hscatter (fun i hi => getD_scatter_of_pinned free v hi)
    ⟨a, DenseMatrix.mem_of_mem_keep (hkeep.symm ▸ ha), hne⟩
  rw [dot_scatter free (length_scatter free v), hkeep] at hpos
  rwa [mulVec_select]

omit [LinearOrder α] in
theorem exists_free_of_ne_zero {free : List Bool} {v : List α} (hv : v.length = free.length)
    (hpinned : ∀ i, free[i]? = some false → v.getD i 0 = 0) (hne : ∃ a ∈ v, a ≠ 0) :
    ∃ (i : Nat) (a : α), free[i]? = some true ∧ v[i]? = some a ∧ a ≠ 0 := by
  obtain ⟨a, ha, hne⟩ := hne
  obtain ⟨i, hi, rfl⟩ := List.mem_iff_getElem.mp ha
  refine ⟨i, v[i], ?_, List.getElem?_eq_getElem hi, hne⟩
  rcases hb : free[i]? with _ | _ | _
  · simp at hb
    omega
  · have hzero := hpinned i hb
    simp [hi] at hzero
    exact absurd hzero hne
  · rfl

theorem definite_of_select {J : DenseMatrix α} {damping : α} {free : List Bool}
    {hlength : free.length = J.cols} (h : (J.select free hlength).Definite damping) {v : List α}
    (hv : v.length = J.cols) (hpinned : ∀ i, free[i]? = some false → v.getD i 0 = 0)
    (hne : ∃ a ∈ v, a ≠ 0) :
    0 < damping * Vec.dot v v + Vec.dot (J.mulVec v) (J.mulVec v) := by
  have hv' : v.length = free.length := hv.trans hlength.symm
  obtain ⟨i, a, hfree, ha, hne⟩ := exists_free_of_ne_zero hv' hpinned hne
  have hform := h _ (DenseMatrix.length_keep free v hv') ⟨a, DenseMatrix.mem_keep hfree ha, hne⟩
  rwa [mulVec_select, ← dot_scatter free hv', scatter_keep hv' hpinned] at hform

variable [Scalar α] [ExactScalar α]

theorem slope_of_restrictedStep {J : DenseMatrix α} {r delta : List α} {damping : α}
    {free : List Bool} (h : restrictedStep J r damping free = .ok delta) {i : Nat}
    (hi : free[i]? = some true) : damping * delta.getD i 0 + (J.slope r delta).getD i 0 = 0 := by
  unfold restrictedStep at h
  split at h
  · rename_i hlength
    split at h
    · rcases hstep : dampedStep (J.select free hlength) r damping with fault | step
      · rw [hstep] at h
        cases h
      rw [hstep] at h
      obtain rfl := Except.ok.inj h
      have hcount : step.length = free.count true := length_dampedStep hstep
      have hslope : (J.slope r (scatter free step)).length = free.length := by
        rw [J.length_slope, hlength]
      apply forall_free (P := fun u g => damping * u + g = 0) hcount hslope _ hi
      intro k hk
      rw [← slope_select J free hlength]
      rw [hcount] at hk
      exact slope_of_dampedStep hstep hk
    · rename_i hnone
      exact absurd (List.any_eq_true.mpr ⟨true, List.mem_of_getElem? hi, rfl⟩) hnone
  · cases h

theorem definite_of_restrictedStep [IsStrictOrderedRing α] {J : DenseMatrix α} {r delta : List α}
    {damping : α} {free : List Bool} (h : restrictedStep J r damping free = .ok delta) {v : List α}
    (hv : v.length = J.cols) (hpinned : ∀ i, free[i]? = some false → v.getD i 0 = 0)
    (hne : ∃ a ∈ v, a ≠ 0) :
    0 < damping * Vec.dot v v + Vec.dot (J.mulVec v) (J.mulVec v) := by
  unfold restrictedStep at h
  split at h
  · rename_i hlength
    split at h
    · rcases hstep : dampedStep (J.select free hlength) r damping with fault | step
      · rw [hstep] at h
        cases h
      · exact definite_of_select (definite_of_dampedStep hstep) hv hpinned hne
    · rename_i hnone
      obtain ⟨i, a, hfree, -⟩ := exists_free_of_ne_zero (hv.trans hlength.symm) hpinned hne
      exact absurd (List.any_eq_true.mpr ⟨true, List.mem_of_getElem? hfree, rfl⟩) hnone
  · cases h

theorem exists_restrictedStep {J : DenseMatrix α} {r : List α} {damping : α} {free : List Bool}
    (hdamping : 0 ≤ damping) (hr : r.length = J.height) (hlength : free.length = J.cols)
    (h : (J.select free hlength).Definite damping) :
    ∃ delta, restrictedStep J r damping free = .ok delta := by
  unfold restrictedStep
  rw [dif_pos hlength]
  split
  · have hheight : r.length = (J.select free hlength).height :=
      hr.trans (J.height_select free hlength).symm
    obtain ⟨step, hstep⟩ := exists_dampedStep hdamping hheight h
    exact ⟨scatter free step, by rw [hstep]; rfl⟩
  · exact ⟨_, rfl⟩

namespace DenseState

variable {s : DenseState α} {damping : α} {active : ActiveSet α} {delta : List α}

omit [Scalar α] [ExactScalar α] in
theorem staying_of_members_eq_nil (h : active.members = []) (g : List α) :
    staying active g = active := by
  unfold staying ActiveSet.filter
  rw [h, List.filter_nil, ← h]

omit [ExactScalar α] in
theorem kept_of_step (hrows : s.residual.length = s.jacobian.height)
    (h : (s.step damping active).1 = .ok delta) :
    (s.step damping active).2 = staying active (s.jacobian.slope s.residual delta) := by
  rcases step_cases h with ⟨hnil, -, hkept⟩ | ⟨free, released, -, hsolved, hrelease⟩
  · rw [hkept, staying_of_members_eq_nil hnil]
  · obtain ⟨gradient, hgradient, -, hkept⟩ := of_release_eq_ok hrelease
    rw [gradientAt_eq (of_restrictedStep_eq_ok hsolved).1 hrows] at hgradient
    rw [hkept, ← Except.ok.inj hgradient]
    rfl

theorem slope_of_step (h : (s.step damping active).1 = .ok delta) {i : Nat}
    (hi : i < s.jacobian.cols) (hfree : ∀ b ∈ active.members, b.index ≠ i) :
    damping * delta.getD i 0 + (s.jacobian.slope s.residual delta).getD i 0 = 0 := by
  rcases step_cases h with ⟨-, hsolved, -⟩ | ⟨free, -, hmask, hsolved, -⟩
  · exact slope_of_dampedStep hsolved hi
  · exact slope_of_restrictedStep hsolved (ActiveSet.getElem?_freeMask_of_forall hmask hi hfree)

omit [ExactScalar α] in
theorem getD_of_step (h : (s.step damping active).1 = .ok delta) {i : Nat}
    (hi : ¬ (i < s.jacobian.cols ∧ ∀ b ∈ active.members, b.index ≠ i)) : delta.getD i 0 = 0 := by
  obtain ⟨hlength, hpinned, -⟩ := of_step_eq_ok h
  by_cases hlt : i < s.jacobian.cols
  · obtain ⟨b, hb, rfl⟩ : ∃ b ∈ active.members, b.index = i := by
      by_contra hnone
      push Not at hnone
      exact hi ⟨hlt, hnone⟩
    exact hpinned b hb
  · rw [← hlength] at hlt
    simp [hlt]

theorem dot_image_of_step (hrows : s.residual.length = s.jacobian.height)
    (h : (s.step damping active).1 = .ok delta) :
    Vec.dot (s.jacobian.mulVec delta) s.residual =
      -(damping * Vec.dot delta delta +
        Vec.dot (s.jacobian.mulVec delta) (s.jacobian.mulVec delta)) := by
  have hdelta := (of_step_eq_ok h).1
  have hslope := s.jacobian.length_slope s.residual delta
  have himage := s.jacobian.length_mulVec delta
  have hdamped : damping * Vec.dot delta delta +
      Vec.dot delta (s.jacobian.slope s.residual delta) = 0 := by
    rw [Vec.dot_eq_sum hdelta hdelta, Vec.dot_eq_sum hdelta hslope, Finset.mul_sum,
      ← Finset.sum_add_distrib]
    apply Finset.sum_eq_zero
    intro i _
    by_cases hi : i < s.jacobian.cols ∧ ∀ b ∈ active.members, b.index ≠ i
    · linear_combination delta.getD i 0 * slope_of_step h hi.1 hi.2
    · rw [getD_of_step h hi]
      ring
  have hsum : (List.zipWith (· + ·) (s.jacobian.mulVec delta) s.residual).length =
      s.jacobian.height := by simp [himage, hrows]
  rw [DenseMatrix.slope, s.jacobian.dot_transposeMulVec hdelta hsum,
    Vec.dot_add himage himage hrows] at hdamped
  linear_combination hdamped

theorem definite_of_step [IsStrictOrderedRing α] (h : (s.step damping active).1 = .ok delta) :
    s.Definite damping active := by
  intro v hv hpinned hne
  rcases step_cases h with ⟨-, hsolved, -⟩ | ⟨free, -, hmask, hsolved, -⟩
  · exact definite_of_dampedStep hsolved v hv hne
  · refine definite_of_restrictedStep hsolved hv (fun i hi => ?_) hne
    obtain ⟨b, hb, rfl⟩ := ActiveSet.exists_mem_of_getElem?_freeMask hmask hi
    exact hpinned b hb

theorem exists_step (hdamping : 0 ≤ damping) (hrows : s.residual.length = s.jacobian.height)
    (hin : ∀ b ∈ active.members, b.index < s.jacobian.cols) (h : s.Definite damping active) :
    ∃ delta, (s.step damping active).1 = .ok delta := by
  by_cases hnil : active.members = []
  · have hdef : s.jacobian.Definite damping := by
      intro v hv hne
      refine h v hv (fun b hb => ?_) hne
      rw [hnil] at hb
      cases hb
    rw [step_of_members_eq_nil hnil]
    exact exists_dampedStep hdamping hrows hdef
  · have hmask := ActiveSet.freeMask_eq_ok hin
    have hdef := definite_select (ActiveSet.length_freeMask hmask) fun v hv hpinned hne => h v hv
      (fun b hb => hpinned _ (ActiveSet.getElem?_freeMask_of_mem hmask hb)) hne
    rw [step_eq_restrictedStep hrows hnil hmask]
    exact exists_restrictedStep hdamping hrows _ hdef

end DenseState

end BoundedFit
