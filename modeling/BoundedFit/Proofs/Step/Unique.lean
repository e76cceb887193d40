import BoundedFit.Proofs.Step.Restricted

/-!
# The step is unique

So it does not depend on the order in which a factorisation takes the coordinates.
-/

namespace BoundedFit

variable {α : Type} [Field α] {J : DenseMatrix α} {r delta : List α} {damping : α}
  {free : Nat → Prop}

/-- The vector is zero at the pinned coordinates, and after it the damped gradient vanishes at the free
ones. -/
structure IsStep (J : DenseMatrix α) (r : List α) (damping : α) (free : Nat → Prop)
    (delta : List α) : Prop where
  length_eq : delta.length = J.cols
  pinned : ∀ i, ¬ free i → delta.getD i 0 = 0
  slope : ∀ i < J.cols, free i → damping * delta.getD i 0 + (J.slope r delta).getD i 0 = 0

theorem DenseMatrix.getD_slope (hr : r.length = J.height) (hdelta : delta.length = J.cols) {i : Nat}
    (hi : i < J.cols) :
    (J.slope r delta).getD i 0 = ∑ k ∈ Finset.range J.height, J.entry k i *
      (∑ j ∈ Finset.range J.cols, J.entry k j * delta.getD j 0 + r.getD k 0) := by
  unfold slope
  conv_lhs => rw [Vec.eq_ofFn r 0, Vec.eq_ofFn delta 0, hr, hdelta]
  rw [mulVec_ofFn, Vec.zipWith_ofFn, transposeMulVec_ofFn, Vec.getD_ofFn _ _ hi]

variable [LinearOrder α]

/-- The normal matrix is positive definite on the vectors that are zero at the pinned coordinates. -/
def DenseMatrix.DefiniteOn (J : DenseMatrix α) (damping : α) (free : Nat → Prop) : Prop :=
  ∀ v : List α, v.length = J.cols → (∀ i, ¬ free i → v.getD i 0 = 0) → (∃ a ∈ v, a ≠ 0) →
    0 < damping * Vec.dot v v + Vec.dot (J.mulVec v) (J.mulVec v)

theorem IsStep.unique {other : List α} (hr : r.length = J.height)
    (hdef : J.DefiniteOn damping free) (h : IsStep J r damping free delta)
    (h' : IsStep J r damping free other) : delta = other := by
  -- The form of the normal matrix vanishes at the difference of two steps.
  have hterm : ∀ i ∈ Finset.range J.cols, (delta.getD i 0 - other.getD i 0) *
      ∑ j ∈ Finset.range J.cols, J.normalEntry damping i j * (delta.getD j 0 - other.getD j 0) =
        0 := by
    intro i hi
    have hi := Finset.mem_range.mp hi
    by_cases hfree : free i
    · have hslope := h.slope i hi hfree
      have hslope' := h'.slope i hi hfree
      rw [DenseMatrix.getD_slope hr h.length_eq hi] at hslope
      rw [DenseMatrix.getD_slope hr h'.length_eq hi] at hslope'
      rw [J.sum_normalEntry damping (fun j => delta.getD j 0 - other.getD j 0) hi]
      simp only [mul_sub, mul_add, Finset.sum_sub_distrib, Finset.sum_add_distrib] at *
      linear_combination (delta.getD i 0 - other.getD i 0) * (hslope - hslope')
    · rw [h.pinned i hfree, h'.pinned i hfree]
      ring
  have hquadratic : Cholesky.quadratic J.cols (J.normalEntry damping)
      (fun i => delta.getD i 0 - other.getD i 0) = 0 := Finset.sum_eq_zero hterm
  rw [J.quadratic_normalEntry] at hquadratic
  -- It is definite at the free coordinates, so there is no difference.
  have hzero : ∀ i < J.cols, delta.getD i 0 - other.getD i 0 = 0 := by
    by_contra hne
    push Not at hne
    obtain ⟨i, hi, hne⟩ := hne
    refine absurd hquadratic (ne_of_gt (hdef _ (Vec.length_ofFn _ _) (fun k hk => ?_) ?_))
    · by_cases hlt : k < J.cols
      · rw [Vec.getD_ofFn _ _ hlt, h.pinned k hk, h'.pinned k hk, sub_zero]
      · simp [hlt]
    · exact ⟨_, List.mem_map_of_mem (List.mem_range.mpr hi), hne⟩
  rw [Vec.eq_ofFn delta 0, Vec.eq_ofFn other 0, h.length_eq, h'.length_eq]
  exact Vec.ofFn_congr fun i hi => sub_eq_zero.mp (hzero i hi)

/-! ## What a step is asked for -/

/-- The step over the free coordinates, refused exactly if the normal matrix is not positive definite
there. -/
inductive Solved (J : DenseMatrix α) (r : List α) (damping : α) (free : Nat → Prop) :
    Except (Fault α) (List α) → Prop
  | step {delta : List α} : J.DefiniteOn damping free → IsStep J r damping free delta →
      Solved J r damping free (.ok delta)
  | refused : ¬ J.DefiniteOn damping free → Solved J r damping free (.error .notDefinite)

theorem Solved.of_ok (h : Solved J r damping free (.ok delta)) :
    J.DefiniteOn damping free ∧ IsStep J r damping free delta := by
  cases h with
  | step hdef hstep => exact ⟨hdef, hstep⟩

theorem Solved.eq_ok {result : Except (Fault α) (List α)} (hr : r.length = J.height)
    (hdef : J.DefiniteOn damping free) (hstep : IsStep J r damping free delta)
    (h : Solved J r damping free result) : result = .ok delta := by
  cases h with
  | step _ hstep' => exact congrArg _ (hstep'.unique hr hdef hstep)
  | refused hnot => exact absurd hdef hnot

theorem Solved.eq_map {J' : DenseMatrix α} {r' : List α} {free' : Nat → Prop}
    {f : List α → List α} {result result' : Except (Fault α) (List α)} (hr' : r'.length = J'.height)
    (hdef : J'.DefiniteOn damping free' ↔ J.DefiniteOn damping free)
    (hstep : ∀ delta, IsStep J r damping free delta → IsStep J' r' damping free' (f delta))
    (h : Solved J r damping free result) (h' : Solved J' r' damping free' result') :
    result' = result.map f := by
  cases h with
  | step hpos hdelta =>
    cases h' with
    | step hpos' hdelta' => exact congrArg _ (hdelta'.unique hr' hpos' (hstep _ hdelta))
    | refused hnot => exact absurd (hdef.mpr hpos) hnot
  | refused hnot =>
    cases h' with
    | step hpos' _ => exact absurd (hdef.mp hpos') hnot
    | refused _ => rfl

omit [LinearOrder α] in
theorem pinned_of_mask {mask : List Bool} {v : List α} (hmask : mask.length = J.cols)
    (hv : v.length = J.cols) (hzero : ∀ i : Nat, mask[i]? = some false → v.getD i 0 = 0) (i : Nat)
    (hi : ¬ mask[i]? = some true) : v.getD i 0 = 0 := by
  rcases hbit : mask[i]? with _ | _ | _
  · have hlong : J.cols ≤ i := by simpa [hmask] using hbit
    simp [hv, hlong]
  · exact hzero i hbit
  · exact absurd hbit hi

variable [Scalar α] [ExactScalar α]

theorem fault_dampedStep (hr : r.length = J.height) (hdamping : 0 ≤ damping) {fault : Fault α}
    (h : dampedStep J r damping = .error fault) : fault = .notDefinite := by
  have hmatrix : (normalMatrix J damping).all (·.all Scalar.isFinite) = true := by
    simp [ExactScalar.isFinite_eq]
  have hrhs : (normalRhs J r).all Scalar.isFinite = true := by simp [ExactScalar.isFinite_eq]
  unfold dampedStep at h
  rw [if_neg (not_not.mpr hr), if_neg (not_lt.mpr hdamping), hmatrix, hrhs] at h
  rcases hfactor : Cholesky.factor? J.cols (normalMatrix J damping) with _ | factor
  · simpa [hfactor] using h.symm
  · simp [hfactor] at h

theorem fault_restrictedStep {mask : List Bool} (hr : r.length = J.height) (hdamping : 0 ≤ damping)
    (hmask : mask.length = J.cols) {fault : Fault α}
    (h : restrictedStep J r damping mask = .error fault) : fault = .notDefinite := by
  have hheight : r.length = (J.select mask hmask).height := hr.trans (J.height_select mask hmask).symm
  unfold restrictedStep at h
  rw [dif_pos hmask] at h
  split at h
  · rcases hsolved : dampedStep (J.select mask hmask) r damping with fault' | step
    · rw [hsolved] at h
      rw [← Except.error.inj h]
      exact fault_dampedStep hheight hdamping hsolved
    · rw [hsolved] at h
      cases h
  · cases h

omit [ExactScalar α] in
theorem dampedStep_of_neg (hr : r.length = J.height) (hdamping : damping < 0) :
    dampedStep J r damping = .error (.negativeDamping damping) := by
  unfold dampedStep
  rw [if_neg (not_not.mpr hr), if_pos hdamping]

omit [ExactScalar α] in
theorem restrictedStep_of_neg {mask : List Bool} (hr : r.length = J.height) (hdamping : damping < 0)
    (hmask : mask.length = J.cols) :
    restrictedStep J r damping mask =
      if mask.any id then .error (.negativeDamping damping) else .ok (List.replicate J.cols 0) := by
  have hheight : r.length = (J.select mask hmask).height := hr.trans (J.height_select mask hmask).symm
  unfold restrictedStep
  rw [dif_pos hmask, dampedStep_of_neg hheight hdamping]
  rfl

variable [IsStrictOrderedRing α]

theorem solved_dampedStep (hr : r.length = J.height) (hdamping : 0 ≤ damping) :
    Solved J r damping (fun _ => True) (dampedStep J r damping) := by
  have hiff : J.DefiniteOn damping (fun _ => True) ↔ J.Definite damping :=
    ⟨fun h v hv hne => h v hv (fun i hi => absurd trivial hi) hne, fun h v hv _ hne => h v hv hne⟩
  rcases hstep : dampedStep J r damping with fault | delta
  · obtain rfl := fault_dampedStep hr hdamping hstep
    refine .refused fun hdef => ?_
    obtain ⟨delta, hdelta⟩ := exists_dampedStep hdamping hr (hiff.mp hdef)
    rw [hstep] at hdelta
    cases hdelta
  · exact .step (hiff.mpr (definite_of_dampedStep hstep))
      ⟨length_dampedStep hstep, fun i hi => absurd trivial hi,
        fun i hi _ => slope_of_dampedStep hstep hi⟩

theorem solved_restrictedStep {mask : List Bool} (hr : r.length = J.height) (hdamping : 0 ≤ damping)
    (hmask : mask.length = J.cols) :
    Solved J r damping (fun i => mask[i]? = some true) (restrictedStep J r damping mask) := by
  have hzero : ∀ {v : List α}, (∀ i, ¬ mask[i]? = some true → v.getD i 0 = 0) →
      ∀ i, mask[i]? = some false → v.getD i 0 = 0 :=
    fun h i hi => h i (by simp [hi])
  rcases hstep : restrictedStep J r damping mask with fault | delta
  · have hdefinite : J.DefiniteOn damping (fun i => mask[i]? = some true) → False := by
      intro hdef
      obtain ⟨delta, hdelta⟩ := exists_restrictedStep hdamping hr hmask
        (definite_select hmask fun v hv hpin hne => hdef v hv (pinned_of_mask hmask hv hpin) hne)
      rw [hstep] at hdelta
      cases hdelta
    obtain rfl := fault_restrictedStep hr hdamping hmask hstep
    exact .refused hdefinite
  · obtain ⟨hlength, hpin⟩ := of_restrictedStep_eq_ok hstep
    refine .step (fun v hv hv0 hne => ?_)
      ⟨hlength, pinned_of_mask hmask hlength hpin, fun i _ hi => slope_of_restrictedStep hstep hi⟩
    exact definite_of_restrictedStep hstep hv (hzero hv0) hne

end BoundedFit
