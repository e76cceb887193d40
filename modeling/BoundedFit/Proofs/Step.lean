import BoundedFit.Problem.Dense
import BoundedFit.Proofs.Linear.Normal
import BoundedFit.Proofs.Linear.Select
import BoundedFit.Proofs.Run

/-!
# Dense steps fit

They leave pinned coordinates alone and only let go of bounds.
-/

namespace BoundedFit

/-! ## Pinned and free coordinates -/

namespace ActiveSet

variable {α : Type} {active : ActiveSet α} {n : Nat} {free : List Bool}

theorem freeMask_eq_ok (h : ∀ b ∈ active.members, b.index < n) :
    active.freeMask n = .ok ((List.range n).map fun i => !active.members.any (·.index == i)) := by
  unfold freeMask
  have hfind : active.members.find? (fun b => decide (n ≤ b.index)) = none := by
    rw [List.find?_eq_none]
    intro b hb
    simpa using h b hb
  rw [hfind]

theorem of_freeMask_eq_ok (h : active.freeMask n = .ok free) :
    (∀ b ∈ active.members, b.index < n) ∧
      free = (List.range n).map fun i => !active.members.any (·.index == i) := by
  unfold freeMask at h
  split at h
  · cases h
  · rename_i hfind
    refine ⟨fun b hb => ?_, (Except.ok.inj h).symm⟩
    simpa using List.find?_eq_none.mp hfind b hb

theorem of_freeMask_eq_error {fault : Fault α} (h : active.freeMask n = .error fault) :
    ∃ b ∈ active.members, fault = .noPosition b.index := by
  unfold freeMask at h
  split at h
  · rename_i b hfind
    exact ⟨b, List.mem_of_find?_eq_some hfind, (Except.error.inj h).symm⟩
  · cases h

theorem length_freeMask (h : active.freeMask n = .ok free) : free.length = n := by
  obtain ⟨-, rfl⟩ := of_freeMask_eq_ok h
  simp

theorem getElem?_freeMask_of_mem (h : active.freeMask n = .ok free) {b : Bound α}
    (hb : b ∈ active.members) : free[b.index]? = some false := by
  obtain ⟨hlt, rfl⟩ := of_freeMask_eq_ok h
  simpa [hlt b hb] using ⟨b, hb, rfl⟩

theorem exists_mem_of_getElem?_freeMask (h : active.freeMask n = .ok free) {i : Nat}
    (hi : free[i]? = some false) : ∃ b ∈ active.members, b.index = i := by
  by_contra hnone
  push Not at hnone
  have hlt : i < n := length_freeMask h ▸ (List.getElem?_eq_some_iff.mp hi).1
  obtain ⟨-, rfl⟩ := of_freeMask_eq_ok h
  simp [hlt] at hi
  obtain ⟨b, hb, hindex⟩ := hi
  exact hnone b hb hindex

theorem getElem?_freeMask_of_forall (h : active.freeMask n = .ok free) {i : Nat} (hi : i < n)
    (hfree : ∀ b ∈ active.members, b.index ≠ i) : free[i]? = some true := by
  obtain ⟨-, rfl⟩ := of_freeMask_eq_ok h
  simpa [hi] using hfree

end ActiveSet

theorem Fault.kind_noPosition {α : Type} (i : Int) {kind : Kind}
    (h : kind ≠ .index ∧ kind ≠ .overflow) : (noPosition i : Fault α).kind ≠ kind := by
  unfold noPosition
  split
  · exact h.1.symm
  · split
    · exact h.2.symm
    · exact h.1.symm

/-! ## Letting go -/

section Release

variable {α : Type} [Add α] [Mul α] [Zero α] {J : DenseMatrix α} {r delta : List α}

theorem kind_gradientAt {fault : Fault α} (h : gradientAt J r delta = .error fault) :
    fault.kind ≠ .violation := by
  unfold gradientAt at h
  repeat' split at h
  all_goals cases h
  all_goals nofun

theorem gradientAt_of_lengths (hdelta : delta.length = J.cols) (hr : r.length = J.height) :
    gradientAt J r delta = .ok (J.transposeMulVec (List.zipWith (· + ·) (J.mulVec delta) r)) := by
  have hlength : (J.mulVec delta).length = r.length := by rw [J.length_mulVec, hr]
  unfold gradientAt
  rw [if_neg (not_not.mpr hdelta), Vec.zipStretched?_of_length_eq _ hlength]
  simp [hlength, hr]

variable [Neg α] [LT α] [DecidableLT α] {active rest : ActiveSet α} {released : List (Bound α)}

theorem of_release_eq_ok (h : release J r delta active = (.ok released, rest)) :
    ∃ gradient, gradientAt J r delta = .ok gradient ∧
      released = active.members.filter (Bound.letsGo gradient) ∧
      rest = active.filter fun b => !b.letsGo gradient := by
  unfold release at h
  split at h
  · cases h
  · rename_i gradient hgradient
    split at h
    · cases h
    · obtain ⟨hreleased, hrest⟩ := Prod.mk.inj h
      exact ⟨gradient, hgradient, (Except.ok.inj hreleased).symm, hrest.symm⟩

theorem release_of_lengths (hdelta : delta.length = J.cols) (hr : r.length = J.height)
    (hin : ∀ b ∈ active.members, b.index < J.cols) :
    release J r delta active =
      (.ok (active.members.filter
          (Bound.letsGo (J.transposeMulVec (List.zipWith (· + ·) (J.mulVec delta) r)))),
        active.filter fun b =>
          !b.letsGo (J.transposeMulVec (List.zipWith (· + ·) (J.mulVec delta) r))) := by
  unfold release
  rw [gradientAt_of_lengths hdelta hr]
  dsimp only
  split
  · rename_i b hfind
    have hbeyond := List.find?_some hfind
    rw [J.length_transposeMulVec, decide_eq_true_eq] at hbeyond
    exact absurd (hin b (List.mem_of_find?_eq_some hfind)) (not_lt.mpr hbeyond)
  · rfl

theorem kind_release {fault : Fault α} (h : (release J r delta active).1 = .error fault) :
    fault.kind ≠ .violation := by
  unfold release at h
  split at h
  · rename_i fault' hgradient
    obtain rfl := Except.error.inj h
    exact kind_gradientAt hgradient
  split at h
  · obtain rfl := Except.error.inj h
    exact Fault.kind_noPosition _ (by decide)
  · cases h

end Release

/-! ## Solving -/

section Step

variable {α : Type} [Add α] [Sub α] [Mul α] [Div α] [Neg α] [Zero α] [One α]
  [LT α] [DecidableLT α] [Scalar α] {J : DenseMatrix α} {r delta : List α}
  {damping : α} {free : List Bool}

theorem kind_dampedStep {fault : Fault α} (h : dampedStep J r damping = .error fault) :
    fault.kind ≠ .violation := by
  unfold dampedStep at h
  repeat' split at h
  all_goals cases h
  all_goals nofun

theorem of_restrictedStep_eq_ok (h : restrictedStep J r damping free = .ok delta) :
    delta.length = J.cols ∧ ∀ i, free[i]? = some false → delta.getD i 0 = 0 := by
  unfold restrictedStep at h
  split at h
  · rename_i hlength
    split at h
    · rcases hstep : dampedStep (J.select free hlength) r damping with fault | step
      · rw [hstep] at h
        cases h
      · rw [hstep] at h
        obtain rfl := Except.ok.inj h
        refine ⟨by rw [length_scatter, hlength], fun i hi => getD_scatter_of_pinned free step hi⟩
    · obtain rfl := Except.ok.inj h
      exact ⟨List.length_replicate, fun i _ => Vec.getD_zeros J.cols i⟩
  · cases h

theorem length_mask_of_restrictedStep (h : restrictedStep J r damping free = .ok delta) :
    free.length = J.cols := by
  unfold restrictedStep at h
  split at h
  · rename_i hlength
    exact hlength
  · cases h

theorem kind_restrictedStep {fault : Fault α} (h : restrictedStep J r damping free = .error fault) :
    fault.kind ≠ .violation := by
  unfold restrictedStep at h
  split at h
  · rename_i hlength
    split at h
    · rcases hstep : dampedStep (J.select free hlength) r damping with fault' | step
      · rw [hstep] at h
        obtain rfl := Except.error.inj h
        exact kind_dampedStep hstep
      · rw [hstep] at h
        cases h
    · cases h
  · obtain rfl := Except.error.inj h
    nofun

end Step

namespace DenseState

variable {α : Type} [Add α] [Sub α] [Mul α] [Div α] [Neg α] [Zero α] [One α]
  [LT α] [DecidableLT α] [Scalar α] {s : DenseState α} {damping : α}
  {active : ActiveSet α} {delta : List α}

theorem step_of_members_eq_nil (h : active.members = []) :
    s.step damping active = (dampedStep s.jacobian s.residual damping, active) :=
  if_pos (active.isEmpty_iff.mpr h)

/-- Without pinned coordinates a step is a damped step; otherwise it is a restricted one, after which
bounds let go. -/
theorem step_cases (h : (s.step damping active).1 = .ok delta) :
    (active.members = [] ∧ dampedStep s.jacobian s.residual damping = .ok delta ∧
        (s.step damping active).2 = active) ∨
      ∃ free released, active.freeMask s.jacobian.cols = .ok free ∧
        restrictedStep s.jacobian s.residual damping free = .ok delta ∧
        release s.jacobian s.residual delta active = (.ok released, (s.step damping active).2) := by
  unfold step at h ⊢
  by_cases hempty : active.isEmpty = true
  · rw [if_pos hempty] at h ⊢
    exact Or.inl ⟨active.isEmpty_iff.mp hempty, h, rfl⟩
  · rw [if_neg hempty] at h ⊢
    rcases hfree : active.freeMask s.jacobian.cols with fault | free
    · rw [hfree] at h
      cases h
    simp only [hfree, bind, Except.bind] at h ⊢
    rcases hsolved : restrictedStep s.jacobian s.residual damping free with fault | solved
    · rw [hsolved] at h
      cases h
    simp only [hsolved] at h ⊢
    rcases hrelease : (release s.jacobian s.residual solved active).1 with fault | released
    · rw [hrelease] at h
      cases h
    · rw [hrelease] at h
      obtain rfl := Except.ok.inj h
      exact Or.inr ⟨free, released, rfl, hsolved, Prod.ext hrelease rfl⟩

theorem of_step_eq_ok (h : (s.step damping active).1 = .ok delta) :
    delta.length = s.jacobian.cols ∧ (∀ b ∈ active.members, delta.getD b.index 0 = 0) ∧
      ∀ b ∈ (s.step damping active).2.members, b ∈ active.members := by
  rcases step_cases h with ⟨hnil, hsolved, hkept⟩ | ⟨free, released, hfree, hsolved, hrelease⟩
  · refine ⟨length_dampedStep hsolved, fun b hb => ?_, fun b hb => hkept ▸ hb⟩
    rw [hnil] at hb
    cases hb
  · obtain ⟨hlength, hpinned⟩ := of_restrictedStep_eq_ok hsolved
    obtain ⟨gradient, -, -, hkept⟩ := of_release_eq_ok hrelease
    refine ⟨hlength, fun b hb => ?_, fun b hb => ?_⟩
    · exact hpinned _ (ActiveSet.getElem?_freeMask_of_mem hfree hb)
    · rw [hkept] at hb
      exact (List.mem_filter.mp hb).1

theorem step_eq_restrictedStep (hrows : s.residual.length = s.jacobian.height)
    (hne : active.members ≠ []) {free : List Bool}
    (hmask : active.freeMask s.jacobian.cols = .ok free) :
    (s.step damping active).1 = restrictedStep s.jacobian s.residual damping free := by
  have hin := (ActiveSet.of_freeMask_eq_ok hmask).1
  unfold step
  rw [if_neg (mt active.isEmpty_iff.mp hne), hmask]
  simp only [bind, Except.bind]
  rcases hsolved : restrictedStep s.jacobian s.residual damping free with fault | delta
  · rfl
  · dsimp only
    rw [release_of_lengths (of_restrictedStep_eq_ok hsolved).1 hrows hin]
    rfl

theorem stepFits {here : Iterate α} (hcols : s.jacobian.cols = here.point.length)
    (h : (s.step damping here.active).1 = .ok delta) :
    StepFits here delta (s.step damping here.active).2 := by
  obtain ⟨hlength, hpinned, hkept⟩ := of_step_eq_ok h
  exact ⟨hlength.trans hcols, hpinned, hkept⟩

theorem kind_step {fault : Fault α} (h : (s.step damping active).1 = .error fault) :
    fault.kind ≠ .violation := by
  unfold step at h
  split at h
  · exact kind_dampedStep h
  rcases hfree : active.freeMask s.jacobian.cols with fault' | free
  · rw [hfree] at h
    obtain rfl := Except.error.inj h
    obtain ⟨b, -, hfault⟩ := ActiveSet.of_freeMask_eq_error hfree
    exact hfault ▸ Fault.kind_noPosition _ (by decide)
  simp only [hfree, bind, Except.bind] at h
  rcases hsolved : restrictedStep s.jacobian s.residual damping free with fault' | solved
  · rw [hsolved] at h
    obtain rfl := Except.error.inj h
    exact kind_restrictedStep hsolved
  · simp only [hsolved] at h
    rcases hrelease : (release s.jacobian s.residual solved active).1 with fault' | released
    · rw [hrelease] at h
      obtain rfl := Except.error.inj h
      exact kind_release hrelease
    · rw [hrelease] at h
      cases h

end DenseState

/-- A problem that is evaluated into dense states with a column for each coordinate. -/
def HasColumns {α : Type} (evaluate : Tensor α → DenseState α → Except (Fault α) (DenseState α)) :
    Prop :=
  ∀ x before state, evaluate (.ofVector x) before = .ok state → state.jacobian.cols = x.length

namespace LinearProblem

variable {α : Type} [Field α] {p : LinearProblem α}

theorem of_evaluate_eq_ok {x : List α} {before state : DenseState α}
    (h : p.evaluate (.ofVector x) before = .ok state) :
    x.length = p.numVariables ∧ state = ⟨p.residual x, p.matrix⟩ := by
  unfold evaluate at h
  rw [Tensor.toVector?_ofVector] at h
  dsimp only at h
  split at h
  · rename_i hlength
    exact ⟨hlength, (Except.ok.inj h).symm⟩
  · cases h

theorem hasColumns (p : LinearProblem α) : HasColumns p.evaluate := by
  intro x before state h
  obtain ⟨hlength, rfl⟩ := of_evaluate_eq_ok h
  exact hlength.symm

end LinearProblem

namespace Solver

variable {α : Type} [Add α] [Sub α] [Mul α] [Div α] [Neg α] [Zero α] [One α]
  [LT α] [LE α] [DecidableLT α] [DecidableLE α] [OfScientific α] [Scalar α]
  {solver : Solver α (DenseState α)}
  {evaluate : Tensor α → DenseState α → Except (Fault α) (DenseState α)}

theorem everyStep_ofDense (hproblem : solver.problem = .ofDense evaluate)
    (hcols : HasColumns evaluate) (first : Iterate α) : solver.EveryStep first StepFits := by
  intro past here before state delta _ _ hcontinues hdelta
  obtain ⟨error, heval, -⟩ := hcontinues
  rw [hproblem] at heval hdelta ⊢
  have hstate := (Problem.errorAt_eq_ok_iff.mp heval).1
  exact DenseState.stepFits (hcols _ _ _ hstate) hdelta

theorem Performs.step_ofDense (hproblem : solver.problem = .ofDense evaluate)
    {before : DenseState α} {s : Stage α (DenseState α)} (hs : solver.Performs before s) :
    s.state.step solver.damping s.here.active = (.ok s.delta, s.kept) ∧ s.after = s.state := by
  have hproposed := hs.proposed
  rw [hproblem] at hproposed
  obtain ⟨hdelta, hkept, hafter⟩ := Proposal.mk.inj hproposed
  exact ⟨Prod.ext hdelta hkept, hafter.symm⟩

omit [LE α] [DecidableLE α] [OfScientific α] in
theorem kind_step_ofDense (hproblem : solver.problem = .ofDense evaluate) {active : ActiveSet α}
    {state : DenseState α} {fault : Fault α}
    (h : (solver.problem.step solver.damping active state).delta = .error fault) :
    fault.kind ≠ .violation := by
  rw [hproblem] at h
  exact DenseState.kind_step h

end Solver

end BoundedFit
