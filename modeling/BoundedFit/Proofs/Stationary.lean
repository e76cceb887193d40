import BoundedFit.Proofs.Stage
import BoundedFit.Proofs.Step.Restricted

/-!
# Stationary iterates

Where an iteration changes nothing.
-/

namespace BoundedFit

variable {α : Type} [Field α]

namespace DenseState

/-- The gradient of half the error. -/
def gradient (s : DenseState α) : List α := s.jacobian.transposeMulVec s.residual

theorem slope_of_zero {s : DenseState α} {delta : List α}
    (hrows : s.residual.length = s.jacobian.height) (hdelta : delta.length = s.jacobian.cols)
    (h : ∀ i, delta.getD i 0 = 0) : s.jacobian.slope s.residual delta = s.gradient := by
  unfold DenseMatrix.slope
  rw [s.jacobian.foretold_of_zero hrows hdelta h]
  rfl

variable [LinearOrder α]

/-- The gradient vanishes at the free coordinates and points outside at the pinned ones. -/
def Stationary (s : DenseState α) (active : ActiveSet α) : Prop :=
  (∀ i < s.jacobian.cols, (∀ b ∈ active.members, b.index ≠ i) → s.gradient.getD i 0 = 0) ∧
    ∀ b ∈ active.members, 0 ≤ b.side.orient (s.gradient.getD b.index 0)

theorem step_eq_zero [IsStrictOrderedRing α] [Scalar α] [ExactScalar α] {s : DenseState α}
    {damping : α} {active : ActiveSet α} {delta : List α}
    (hrows : s.residual.length = s.jacobian.height) (h : (s.step damping active).1 = .ok delta)
    (hgradient : ∀ i, delta.getD i 0 * s.gradient.getD i 0 = 0) (i : Nat) : delta.getD i 0 = 0 := by
  obtain ⟨hdelta, hpinned, -⟩ := of_step_eq_ok h
  have hresidual : Vec.dot (s.jacobian.mulVec delta) s.residual = 0 := by
    rw [← s.jacobian.dot_transposeMulVec hdelta hrows]
    apply Vec.dot_eq_zero _ hgradient
    rw [hdelta, gradient, s.jacobian.length_transposeMulVec]
  have henergy : damping * Vec.dot delta delta +
      Vec.dot (s.jacobian.mulVec delta) (s.jacobian.mulVec delta) = 0 := by
    linear_combination dot_image_of_step hrows h - hresidual
  by_contra hne
  have hmem : delta.getD i 0 ∈ delta := by
    by_cases hi : i < delta.length
    · simp [hi]
    · simp [hi] at hne
  exact (definite_of_step h delta hdelta hpinned ⟨_, hmem, hne⟩).ne' henergy

end DenseState

namespace Solver

section Unchanged

variable [LinearOrder α] [IsStrictOrderedRing α] {solver : Solver α (DenseState α)}
  {here : Iterate α} {delta : List α} {kept : ActiveSet α} {block : Option (Block α)}

theorem land_eq_self_iff {next : Iterate α}
    (hclosest : IsClosest solver.bounds here.point delta kept block)
    (hland : Iterate.land ⟨here.point, kept⟩ delta block = .ok next)
    (hfits : StepFits here delta kept) :
    next = here ↔ (∀ i, delta.getD i 0 = 0) ∧ kept = here.active := by
  have hlength := hfits.length_eq
  constructor
  · rintro rfl
    -- A bound that stops the step gets pinned, but it is not, or its component were zero.
    have hnone : block = none := hclosest.eq_none fun stop hstop =>
      hfits.pinned _ ((mem_active_land hland hlength _).mpr (Or.inr ⟨stop, hstop, rfl⟩))
    subst hnone
    constructor
    · intro i
      rcases hd : delta[i]? with _ | step
      · simp [hd]
      · have hi : i < next.point.length := hlength ▸ (List.getElem?_eq_some_iff.mp hd).1
        have hv := getElem?_of_lt hi
        have hmoved := getElem?_point_land hland hlength hclosest hv hd
        rw [hv] at hmoved
        have hsame := Option.some.inj hmoved
        simp only [Block.limit, mul_one] at hsame
        rw [List.getD_eq_getElem?_getD, hd, Option.getD_some]
        linarith
    · rw [land_eq hlength] at hland
      exact congrArg Iterate.active (Except.ok.inj hland)
  · rintro ⟨hzero, hkept⟩
    have hnone : block = none := hclosest.eq_none fun stop _ => hzero stop.bound.index
    subst hnone
    have hpoint : next.point = here.point := by
      apply List.ext_getElem?
      intro i
      by_cases hi : i < here.point.length
      · have hd := getElem?_of_lt (hlength ▸ hi : i < delta.length)
        rw [getElem?_point_land hland hlength hclosest (getElem?_of_lt hi) hd, hzero, zero_mul,
          add_zero, getElem?_of_lt hi]
      · have hnext : ¬ i < next.point.length := by rwa [length_point_land hland hlength]
        simp only [not_lt] at hi hnext
        rw [List.getElem?_eq_none hi, List.getElem?_eq_none hnext]
    have hactive : next.active = kept := by
      rw [land_eq hlength] at hland
      exact (congrArg Iterate.active (Except.ok.inj hland)).symm
    calc next = ⟨next.point, next.active⟩ := rfl
      _ = ⟨here.point, here.active⟩ := by rw [hpoint, hactive, hkept]
      _ = here := rfl

end Unchanged

theorem staying_eq_self_iff [LinearOrder α] (active : ActiveSet α) (g : List α) :
    staying active g = active ↔ ∀ b ∈ active.members, 0 ≤ b.side.orient (g.getD b.index 0) := by
  have hmembers : staying active g = active ↔ (staying active g).members = active.members := by
    constructor
    · exact congrArg ActiveSet.members
    · intro h
      calc staying active g = ⟨(staying active g).members⟩ := rfl
        _ = ⟨active.members⟩ := by rw [h]
        _ = active := rfl
  rw [hmembers]
  unfold staying ActiveSet.filter Bound.letsGo
  rw [List.filter_eq_self]
  simp

section Advance

variable [LinearOrder α] [IsStrictOrderedRing α] [Scalar α] {solver : Solver α (DenseState α)}
  {evaluate : Tensor α → DenseState α → Except (Fault α) (DenseState α)} {here : Iterate α}
  {s : DenseState α}

theorem exists_advance (hproblem : solver.problem = .ofDense evaluate) {delta : List α}
    (hdelta : (s.step solver.damping here.active).1 = .ok delta)
    (hcols : s.jacobian.cols = here.point.length)
    (hlong : ∀ b ∈ solver.bounds, b.index < here.point.length) :
    ∃ block next, IsClosest solver.bounds here.point delta (s.step solver.damping here.active).2 block ∧
      Iterate.land ⟨here.point, (s.step solver.damping here.active).2⟩ delta block = .ok next ∧
      solver.advance here s = ⟨block, .ok (next, s)⟩ := by
  have hlength := (DenseState.stepFits hcols hdelta).length_eq
  obtain ⟨block, hblock⟩ := exists_closestBlock (s.step solver.damping here.active).2
    (fun b hb _ => hlong b hb) (fun b hb _ => hlength.symm ▸ hlong b hb)
  obtain ⟨next, hland⟩ :
      ∃ next, Iterate.land ⟨here.point, (s.step solver.damping here.active).2⟩ delta block = .ok next :=
    ⟨_, land_eq hlength block⟩
  refine ⟨block, next, isClosest_closestBlock hblock, hland, ?_⟩
  unfold advance
  rw [hproblem]
  simp only [Problem.ofDense, hdelta, hblock, hland, Except.map]

theorem exists_advance_eq_self_iff [ExactScalar α] (hproblem : solver.problem = .ofDense evaluate)
    (hdamping : 0 ≤ solver.damping) (hrows : s.residual.length = s.jacobian.height)
    (hcols : s.jacobian.cols = here.point.length) (hdef : s.Definite solver.damping here.active)
    (hin : ∀ b ∈ here.active.members, b.index < here.point.length)
    (hlong : ∀ b ∈ solver.bounds, b.index < here.point.length) :
    ∃ next, (solver.advance here s).next = .ok (next, s) ∧
      (next = here ↔ s.Stationary here.active) := by
  obtain ⟨delta, hdelta⟩ := DenseState.exists_step hdamping hrows (hcols ▸ hin) hdef
  have hfree := fun i hi hnot => DenseState.slope_of_step hdelta (i := i) hi hnot
  have hlength := (DenseState.of_step_eq_ok hdelta).1
  obtain ⟨block, next, hclosest, hland, hadvance⟩ := exists_advance hproblem hdelta hcols hlong
  have hfits := DenseState.stepFits hcols hdelta
  rw [DenseState.kept_of_step hrows hdelta] at hclosest hland hfits
  rw [hadvance]
  refine ⟨next, rfl, ?_⟩
  rw [land_eq_self_iff hclosest hland hfits, staying_eq_self_iff]
  constructor
  · rintro ⟨hzero, hstays⟩
    rw [DenseState.slope_of_zero hrows hlength hzero] at hfree hstays
    refine ⟨fun i hi hnot => ?_, hstays⟩
    have hgradient := hfree i hi hnot
    rwa [hzero, mul_zero, zero_add] at hgradient
  · rintro ⟨hvanish, houtside⟩
    have hzero : ∀ i, delta.getD i 0 = 0 := by
      apply DenseState.step_eq_zero hrows hdelta
      intro i
      by_cases hi : i < s.jacobian.cols ∧ ∀ b ∈ here.active.members, b.index ≠ i
      · rw [hvanish i hi.1 hi.2, mul_zero]
      · rw [DenseState.getD_of_step hdelta hi, zero_mul]
    rw [DenseState.slope_of_zero hrows hlength hzero]
    exact ⟨hzero, houtside⟩

end Advance

end Solver

end BoundedFit
