import BoundedFit.Proofs.Relabel.Basic
import BoundedFit.Proofs.Step.Unique

/-! # Steps of a relabelled state -/

namespace BoundedFit.Relabelling

variable {n : Nat} (P : Relabelling n) {α : Type} [Field α]

/-! ## Matrices -/

/-- The matrix that has the same product with a relabelled vector. -/
def onMatrix (J : DenseMatrix α) : DenseMatrix α where
  cols := J.cols
  rows := J.rows.map P.onVector
  length_of_mem := by simpa using J.length_of_mem

def onState (s : DenseState α) : DenseState α := ⟨s.residual, P.onMatrix s.jacobian⟩

theorem symm_onMatrix_onMatrix (J : DenseMatrix α) : P.symm.onMatrix (P.onMatrix J) = J := by
  simp [onMatrix, Function.comp_def, symm_onVector_onVector]

theorem symm_onState_onState (s : DenseState α) : P.symm.onState (P.onState s) = s := by
  simp [onState, symm_onMatrix_onMatrix]

@[simp] theorem height_onMatrix (J : DenseMatrix α) : (P.onMatrix J).height = J.height := by
  simp [onMatrix, DenseMatrix.height]

theorem dot_map_turn (flip : Bool) (u v : List α) :
    Vec.dot (u.map (turn flip)) v = turn flip (Vec.dot u v) := by
  induction u generalizing v with
  | nil => simp [Vec.dot, Vec.sum]
  | cons a u ih =>
    cases v with
    | nil => simp [Vec.dot_nil_right]
    | cons b v => rw [List.map_cons, Vec.dot_cons, Vec.dot_cons, ih, turn_add, turn_mul]

variable {J : DenseMatrix α} {r v delta : List α}

theorem mulVec_onMatrix (hcols : J.cols = n) (hv : v.length = n) :
    (P.onMatrix J).mulVec (P.onVector v) = J.mulVec v := by
  unfold DenseMatrix.mulVec onMatrix
  rw [List.map_map]
  apply List.map_congr_left
  intro row hrow
  rw [Function.comp_apply, P.dot_onVector ((J.length_of_mem row hrow).trans hcols) hv]

theorem column_onMatrix (hcols : J.cols = n) (j : Nat) :
    (P.onMatrix J).column (P.place j) = (J.column j).map (turn (P.flips j)) := by
  unfold DenseMatrix.column onMatrix
  rw [List.map_map, List.map_map]
  apply List.map_congr_left
  intro row hrow
  exact P.getD_onVector ((J.length_of_mem row hrow).trans hcols) j

theorem transposeMulVec_onMatrix (hcols : J.cols = n) (u : List α) :
    (P.onMatrix J).transposeMulVec u = P.onVector (J.transposeMulVec u) := by
  have hcols' : (P.onMatrix J).cols = n := hcols
  apply P.eq_onVector (by rw [J.length_transposeMulVec, hcols])
    (by rw [DenseMatrix.length_transposeMulVec, hcols'])
  intro j hj
  unfold DenseMatrix.transposeMulVec DenseMatrix.columns
  rw [hcols, hcols']
  simp [hj, (P.place_lt_iff j).mpr hj, P.column_onMatrix hcols, dot_map_turn]

theorem slope_onMatrix (hcols : J.cols = n) (hdelta : delta.length = n) :
    (P.onMatrix J).slope r (P.onVector delta) = P.onVector (J.slope r delta) := by
  unfold DenseMatrix.slope
  rw [P.mulVec_onMatrix hcols hdelta, P.transposeMulVec_onMatrix hcols]

/-! ## Solving -/

section Solve

variable {damping : α} {free free' : Nat → Prop}

theorem isStep_onMatrix (hcols : J.cols = n) (hfree : ∀ i, free' (P.place i) ↔ free i)
    (h : IsStep J r damping free delta) :
    IsStep (P.onMatrix J) r damping free' (P.onVector delta) := by
  have hdelta : delta.length = n := h.length_eq.trans hcols
  have hslope : (J.slope r delta).length = n := (J.length_slope r delta).trans hcols
  refine ⟨(P.length_onVector delta).trans h.length_eq, fun j hj => ?_, fun j hj hfree' => ?_⟩
  · obtain ⟨i, rfl⟩ := P.place.surjective j
    rw [P.getD_onVector hdelta, h.pinned i fun hi => hj ((hfree i).mpr hi), turn_zero]
  · obtain ⟨i, rfl⟩ := P.place.surjective j
    have hi : i < J.cols := by
      rw [hcols]
      exact (P.place_lt_iff i).mp (hcols ▸ hj)
    have hzero := h.slope i hi ((hfree i).mp hfree')
    rw [P.slope_onMatrix hcols hdelta, P.getD_onVector hdelta, P.getD_onVector hslope,
      mul_comm damping, ← turn_mul, ← turn_add, mul_comm _ damping, hzero, turn_zero]

variable [LinearOrder α]

theorem definiteOn_of_onMatrix (hcols : J.cols = n) (hfree : ∀ i, free' (P.place i) ↔ free i)
    (h : (P.onMatrix J).DefiniteOn damping free') : J.DefiniteOn damping free := by
  intro v hv hpinned hne
  have hv' : v.length = n := hv.trans hcols
  obtain ⟨a, ha, hne⟩ := hne
  obtain ⟨i, hi⟩ := List.mem_iff_getElem?.mp ha
  have hturned : (P.onVector v)[P.place i]? = some (turn (P.flips i) a) := by
    rw [P.getElem?_onVector hv', hi, Option.map_some]
  have hform := h (P.onVector v) (by simpa [onMatrix] using hv) (fun j hj => ?_)
    ⟨_, List.mem_of_getElem? hturned, by rwa [ne_eq, turn_eq_zero_iff]⟩
  · rwa [P.dot_onVector hv' hv', P.mulVec_onMatrix hcols hv'] at hform
  · obtain ⟨k, rfl⟩ := P.place.surjective j
    rw [P.getD_onVector hv', hpinned k fun hk => hj ((hfree k).mpr hk), turn_zero]

theorem definiteOn_onMatrix (hcols : J.cols = n) (hfree : ∀ i, free' (P.place i) ↔ free i) :
    (P.onMatrix J).DefiniteOn damping free' ↔ J.DefiniteOn damping free := by
  refine ⟨P.definiteOn_of_onMatrix hcols hfree, fun h => ?_⟩
  have hcols' : (P.onMatrix J).cols = n := hcols
  have hback : ∀ j, free (P.symm.place j) ↔ free' j := by
    intro j
    rw [← hfree]
    simp [symm]
  exact P.symm.definiteOn_of_onMatrix hcols' hback (by rwa [P.symm_onMatrix_onMatrix])

theorem eq_of_solved {result result' : Except (Fault α) (List α)} (hcols : J.cols = n)
    (hr : r.length = J.height) (hfree : ∀ i, free' (P.place i) ↔ free i)
    (h : Solved J r damping free result) (h' : Solved (P.onMatrix J) r damping free' result') :
    result' = result.map P.onVector := by
  have hr' : r.length = (P.onMatrix J).height := by rw [hr, P.height_onMatrix]
  exact h.eq_map hr' (P.definiteOn_onMatrix hcols hfree)
    (fun _ hstep => P.isStep_onMatrix hcols hfree hstep) h'

variable [Scalar α]

theorem dampedStep_of_length_ne (hr : r.length ≠ J.height) :
    dampedStep J r damping = .error .residualLength := by
  unfold dampedStep
  rw [if_pos hr]

variable [ExactScalar α] [IsStrictOrderedRing α]

theorem dampedStep_onMatrix (hcols : J.cols = n) (hdamping : 0 ≤ damping) :
    dampedStep (P.onMatrix J) r damping = (dampedStep J r damping).map P.onVector := by
  by_cases hr : r.length = J.height
  · exact P.eq_of_solved hcols hr (fun _ => Iff.rfl) (solved_dampedStep hr hdamping)
      (solved_dampedStep (by rw [hr, P.height_onMatrix]) hdamping)
  · rw [dampedStep_of_length_ne hr, dampedStep_of_length_ne (by rwa [P.height_onMatrix])]
    rfl

theorem restrictedStep_onMatrix {mask mask' : List Bool} (hcols : J.cols = n)
    (hdamping : 0 ≤ damping) (hlength : mask.length = n) (hlength' : mask'.length = n)
    (hmask : ∀ i, mask'[P.place i]? = mask[i]?) :
    restrictedStep (P.onMatrix J) r damping mask' =
      (restrictedStep J r damping mask).map P.onVector := by
  have hcols' : (P.onMatrix J).cols = n := hcols
  by_cases hr : r.length = J.height
  · apply P.eq_of_solved hcols hr (fun i => ?_)
      (solved_restrictedStep hr hdamping (hlength.trans hcols.symm))
      (solved_restrictedStep (by rw [hr, P.height_onMatrix]) hdamping
        (hlength'.trans hcols'.symm))
    rw [hmask]
  -- The system is refused as a whole, or there is nothing to solve.
  · have hr' : r.length ≠ (P.onMatrix J).height := by rwa [P.height_onMatrix]
    have hany : mask'.any id = mask.any id := by
      rw [Bool.eq_iff_iff, List.any_eq_true, List.any_eq_true]
      simp only [id_eq, exists_eq_right, List.mem_iff_getElem?, ← hmask]
      exact P.place.surjective.exists
    unfold restrictedStep
    rw [dif_pos (hlength.trans hcols.symm), dif_pos (hlength'.trans hcols'.symm), hany]
    split
    · rw [dampedStep_of_length_ne (by rwa [DenseMatrix.height_select]),
        dampedStep_of_length_ne (by rwa [DenseMatrix.height_select])]
      rfl
    · rw [hcols, hcols']
      exact congrArg _ P.onVector_zeros.symm

end Solve

/-! ## Active sets -/

/-- The members of the second set are the relabelled members of the first. -/
def OnActive (s t : ActiveSet α) : Prop := ∀ b, P.onBound b ∈ t.members ↔ b ∈ s.members

namespace OnActive

variable {P} {s t : ActiveSet α}

theorem exists_mem (h : P.OnActive s t) {c : Bound α} (hc : c ∈ t.members) :
    ∃ b ∈ s.members, c = P.onBound b := by
  refine ⟨P.symm.onBound c, ?_, (P.onBound_symm_onBound c).symm⟩
  rwa [← h, P.onBound_symm_onBound]

theorem lt (h : P.OnActive s t) (hin : ∀ b ∈ s.members, b.index < n) :
    ∀ c ∈ t.members, c.index < n := by
  intro c hc
  obtain ⟨b, hb, rfl⟩ := h.exists_mem hc
  exact (P.place_lt_iff b.index).mpr (hin b hb)

theorem isEmpty_eq (h : P.OnActive s t) : t.isEmpty = s.isEmpty := by
  rw [Bool.eq_iff_iff, ActiveSet.isEmpty_iff, ActiveSet.isEmpty_iff,
    List.eq_nil_iff_forall_not_mem, List.eq_nil_iff_forall_not_mem, P.onBound_surjective.forall]
  exact forall_congr' fun b => not_congr (h b)

theorem filter (h : P.OnActive s t) {keep keep' : Bound α → Bool}
    (hkeep : ∀ b, keep' (P.onBound b) = keep b) : P.OnActive (s.filter keep) (t.filter keep') := by
  intro b
  unfold ActiveSet.filter
  rw [List.mem_filter, List.mem_filter, h, hkeep]

theorem insert [LinearOrder α] (h : P.OnActive s t) (b : Bound α) :
    P.OnActive (s.insert b) (t.insert (P.onBound b)) := by
  intro c
  rw [ActiveSet.mem_insert, ActiveSet.mem_insert, h, P.onBound_injective.eq_iff]

theorem contains_eq [LinearOrder α] (h : P.OnActive s t) (b : Bound α) :
    t.contains (P.onBound b) = s.contains b := by
  rw [Bool.eq_iff_iff, ActiveSet.contains_iff, ActiveSet.contains_iff, h]

theorem any_index (h : P.OnActive s t) (i : Nat) :
    t.members.any (·.index == P.place i) = s.members.any (·.index == i) := by
  rw [Bool.eq_iff_iff, List.any_eq_true, List.any_eq_true]
  simp only [beq_iff_eq]
  constructor
  · rintro ⟨c, hc, hindex⟩
    obtain ⟨b, hb, rfl⟩ := h.exists_mem hc
    exact ⟨b, hb, P.place.injective hindex⟩
  · rintro ⟨b, hb, rfl⟩
    exact ⟨P.onBound b, (h b).mpr hb, rfl⟩

theorem getElem?_freeMask (h : P.OnActive s t) {mask mask' : List Bool}
    (hmask : s.freeMask n = .ok mask) (hmask' : t.freeMask n = .ok mask') (i : Nat) :
    mask'[P.place i]? = mask[i]? := by
  obtain ⟨-, rfl⟩ := ActiveSet.of_freeMask_eq_ok hmask
  obtain ⟨-, rfl⟩ := ActiveSet.of_freeMask_eq_ok hmask'
  rw [List.getElem?_map, List.getElem?_map]
  by_cases hi : i < n
  · simp [hi, (P.place_lt_iff i).mpr hi, h.any_index]
  · simp [hi, (P.place_lt_iff i).not.mpr hi]

end OnActive

/-! ## Whole steps -/

theorem gradientAt_onMatrix (hcols : J.cols = n) (hdelta : delta.length = n) :
    gradientAt (P.onMatrix J) r (P.onVector delta) = (gradientAt J r delta).map P.onVector := by
  have hcols' : (P.onMatrix J).cols = n := hcols
  unfold gradientAt
  rw [P.length_onVector, P.mulVec_onMatrix hcols hdelta, P.height_onMatrix, hcols, hcols']
  split
  · rfl
  · rcases Vec.zipStretched? (· + ·) (J.mulVec delta) r with _ | u
    · rfl
    · dsimp only
      rw [P.transposeMulVec_onMatrix hcols]
      split <;> rfl

theorem length_gradientAt {g : List α} (h : gradientAt J r delta = .ok g) : g.length = J.cols := by
  unfold gradientAt at h
  repeat' split at h
  all_goals cases h
  exact J.length_transposeMulVec _

variable [LinearOrder α] {active active' : ActiveSet α}

theorem letsGo_onBound {g : List α} (hg : g.length = n) (b : Bound α) :
    (P.onBound b).letsGo (P.onVector g) = b.letsGo g := by
  unfold Bound.letsGo onBound
  rw [P.getD_onVector hg, Side.orient_turn]

theorem release_onMatrix (hcols : J.cols = n) (hdelta : delta.length = n)
    (hin : ∀ b ∈ active.members, b.index < n) (h : P.OnActive active active') :
    (release (P.onMatrix J) r (P.onVector delta) active').1.map (fun _ => P.onVector delta) =
        ((release J r delta active).1.map fun _ => delta).map P.onVector ∧
      P.OnActive (release J r delta active).2
        (release (P.onMatrix J) r (P.onVector delta) active').2 := by
  have hnone : ∀ {s : ActiveSet α} {g : List α}, g.length = n → (∀ b ∈ s.members, b.index < n) →
      s.toList.find? (fun b => decide (g.length ≤ b.index)) = none := by
    intro s g hg hs
    rw [List.find?_eq_none]
    intro b hb
    simpa [hg] using hs b hb
  unfold release
  rw [P.gradientAt_onMatrix hcols hdelta]
  rcases hgradient : gradientAt J r delta with fault | g
  · exact ⟨rfl, h⟩
  · have hg : g.length = n := (length_gradientAt hgradient).trans hcols
    dsimp only [Except.map]
    rw [hnone hg hin, hnone (by simpa using hg) (h.lt hin)]
    exact ⟨rfl, h.filter fun b => by rw [P.letsGo_onBound hg]⟩

variable [Scalar α] [ExactScalar α] [IsStrictOrderedRing α] {s : DenseState α} {damping : α}

theorem step_onState (hcols : s.jacobian.cols = n) (hdamping : 0 ≤ damping)
    (hin : ∀ b ∈ active.members, b.index < n) (h : P.OnActive active active') :
    ((P.onState s).step damping active').1 = (s.step damping active).1.map P.onVector ∧
      P.OnActive (s.step damping active).2 ((P.onState s).step damping active').2 := by
  have hcols' : (P.onMatrix s.jacobian).cols = n := hcols
  have hmask := ActiveSet.freeMask_eq_ok hin
  have hmask' := ActiveSet.freeMask_eq_ok (h.lt hin)
  unfold DenseState.step onState
  dsimp only
  rw [h.isEmpty_eq]
  split
  · exact ⟨P.dampedStep_onMatrix hcols hdamping, h⟩
  · rw [hcols, hcols', hmask, hmask']
    simp only [bind, Except.bind]
    rw [P.restrictedStep_onMatrix hcols hdamping (ActiveSet.length_freeMask hmask)
      (ActiveSet.length_freeMask hmask') (h.getElem?_freeMask hmask hmask')]
    rcases hsolved : restrictedStep s.jacobian s.residual damping
        ((List.range n).map fun i => !active.members.any (·.index == i)) with fault | delta
    · exact ⟨rfl, h⟩
    · exact P.release_onMatrix hcols ((of_restrictedStep_eq_ok hsolved).1.trans hcols) hin h

end BoundedFit.Relabelling
