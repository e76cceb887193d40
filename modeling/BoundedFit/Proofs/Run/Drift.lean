import BoundedFit.Proofs.Clamp
import BoundedFit.Proofs.Stage
import BoundedFit.Proofs.Step

/-!
# How far a run drifts outside its bounds

By the components that are too small to stop a step, unless a step is taken backwards.
-/

namespace BoundedFit

variable {α σ : Type} [Field α] [LinearOrder α]

/-- The bound does not stay pinned, is violated already, and the step moves on to its outside. -/
def Stage.LeavesThrough (s : Stage α σ) (b : Bound α) : Prop :=
  b ∉ s.kept.members ∧ (∃ v, s.here.point[b.index]? = some v ∧ b.gap v < 0) ∧
    negligibleStep ≤ |s.delta.getD b.index 0| ∧ b.side.orient (s.delta.getD b.index 0) < 0

namespace Solver

/-- Every step that is taken backwards ends within the distance that was skipped so far. -/
def ReversedWithin (solver : Solver α σ) (first : Iterate α) : Prop :=
  ∀ past s after, solver.Runs first (s :: past) s.next after → s.Reversed →
    Within solver.bounds (skippedSum (s :: past)) s.next.point

section Reversed

variable [IsStrictOrderedRing α] {solver : Solver α σ} {first here : Iterate α}
  {past : List (Stage α σ)}

theorem Performs.reversed_iff {before : σ} {s : Stage α σ} (hs : solver.Performs before s)
    (hlength : s.delta.length = s.here.point.length) :
    s.Reversed ↔ ∃ b ∈ solver.bounds, s.LeavesThrough b := by
  have hclosest := hs.isClosest
  constructor
  · intro hneg
    rcases hblock : s.block with _ | stop
    · unfold Stage.Reversed at hneg
      rw [hblock] at hneg
      exact absurd hneg (not_lt.mpr zero_le_one)
    · obtain ⟨hmem, hmet, -⟩ := hclosest.met stop hblock
      obtain ⟨v, step, hv, hd, hlarge, -, -⟩ := hmet.2
      have hget : s.delta.getD stop.bound.index 0 = step := by simp [hd]
      unfold Stage.Reversed at hneg
      rw [hblock] at hneg
      obtain ⟨hgap, hout⟩ := (hmet.scale_neg_iff hv hd).mp hneg
      refine ⟨stop.bound, hmem, hmet.1, ⟨v, hv, hgap⟩, ?_, ?_⟩
      · rwa [hget]
      · rwa [hget]
  · rintro ⟨b, hb, hkept, ⟨v, hv, hgap⟩, hlarge, hout⟩
    have hd := getElem?_of_lt (v := s.delta) (i := b.index)
      (hlength ▸ (List.getElem?_eq_some_iff.mp hv).1)
    have hcross : b.gap (v + s.delta.getD b.index 0) < 0 := by
      rw [Bound.gap_add]
      linarith
    have hmet := (Bound.metAt_iff hv hd _).mpr ⟨hkept, hlarge, hcross, rfl⟩
    exact (hclosest.limit_le b hb _ hmet).trans_lt ((hmet.scale_neg_iff hv hd).mpr ⟨hgap, hout⟩)

theorem Runs.skippedSum_le {state : σ} (hruns : solver.Runs first past here state)
    (hcap : solver.maxIterations ≤ 10 ^ 6) (i : Nat) : skippedSum past i ≤ feasibilityTolerance := by
  have hlength : (past.length : α) ≤ 10 ^ 6 := by exact_mod_cast hruns.length_le.trans hcap
  calc skippedSum past i
      ≤ past.length * negligibleStep := BoundedFit.skippedSum_le past i
    _ ≤ 10 ^ 6 * negligibleStep := mul_le_mul_of_nonneg_right hlength negligibleStep_pos.le
    _ ≤ feasibilityTolerance := by unfold negligibleStep feasibilityTolerance; norm_num

theorem within_runs_iff (hfits : solver.EveryStep first StepFits)
    (h : Feasible solver.bounds first.point) :
    (∀ past here state, solver.Runs first past here state →
      Within solver.bounds (skippedSum past) here.point) ↔ solver.ReversedWithin first := by
  constructor
  · intro hwithin past s after hruns _
    exact hwithin (s :: past) s.next after hruns
  · intro hreversed past here state hruns
    exact hruns.within hfits h hreversed

theorem reversedWithin_of_cap_le_one (hcap : solver.maxIterations ≤ 1)
    (h : Feasible solver.bounds first.point) : solver.ReversedWithin first := by
  intro past s after hruns hneg
  rcases hruns with _ | ⟨hbefore, hlt, hs⟩
  obtain rfl : past = [] := List.eq_nil_of_length_eq_zero (by omega)
  obtain hfirst : s.here = first := by
    generalize s.here = here at hbefore
    rcases hbefore with _ | _
    rfl
  rw [← hfirst] at h
  exact absurd hneg (not_lt.mpr (hs.isClosest.limit_nonneg h))

theorem acceptAll_of_runs (hcap : solver.maxIterations ≤ 10 ^ 6)
    (hwithin : ∀ past here state, solver.Runs first past here state →
      Within solver.bounds (skippedSum past) here.point) {x : List α}
    (hx : x ∈ (solver.traceFrom first).points) : acceptAll solver.bounds x = .ok () := by
  obtain ⟨it, hit, rfl⟩ := List.mem_map.mp hx
  obtain ⟨past, state, hruns⟩ := runs_of_mem_iterates hit
  exact acceptAll_of_within (hwithin past it state hruns) (hruns.skippedSum_le hcap)

end Reversed

section Dense

variable [IsStrictOrderedRing α] [Scalar α]
  {evaluate : Tensor α → DenseState α → Except (Fault α) (DenseState α)} {bounds : List (Bound α)}
  {settings : Settings α} {solver : Solver α (DenseState α)}

theorem evaluate_of_violation (hproblem : solver.problem = .ofDense evaluate)
    (hcols : HasColumns evaluate) (hcap : solver.maxIterations ≤ 10 ^ 6) {guess : Tensor α}
    {first : Iterate α} (hstart : solver.start guess = .ok first)
    (hlong : ∀ b ∈ solver.bounds, b.index < first.point.length)
    (hwithin : ∀ past here state, solver.Runs first past here state →
      Within solver.bounds (skippedSum past) here.point) {fault : Fault α}
    (hfault : solver.optimize guess = .error fault) (hviolation : fault.kind = .violation) :
    ∃ y before, evaluate (.ofVector y) before = .error fault := by
  have hfits := everyStep_ofDense hproblem hcols first
  have hbroken := fault_of_optimize hstart (fun p hp => acceptAll_of_runs hcap hwithin hp) hfault
  rcases breaksOff_of_fault hfits hlong hbroken with
    ⟨past, here, before, -, heval⟩ | ⟨here, state, -, hstep⟩
  · rw [hproblem] at heval
    exact ⟨here.point, before, heval⟩
  · exact absurd hviolation (kind_step_ofDense hproblem hstep)

/-- No coordinate is ever further outside a bound than what was skipped, and no run ends in a violated
bound, exactly if every step that is taken backwards ends within what was skipped. -/
theorem drift_iff (hmake : make (.ofDense evaluate) bounds settings = .ok solver)
    (hcols : HasColumns evaluate) (hcap : settings.maxIterations ≤ 10 ^ 6) (guess : Tensor α) :
    (((∀ first, solver.start guess = .ok first →
          ∀ past here state, solver.Runs first past here state →
            Within bounds (skippedSum past) here.point) ∧
        ∀ fault, solver.optimize guess = .error fault → fault.kind = .violation →
          ∃ y before, evaluate (.ofVector y) before = .error fault) ↔
      ∀ first, solver.start guess = .ok first → solver.ReversedWithin first) ∧
    ∀ first, solver.start guess = .ok first →
      ∀ past s after, solver.Runs first (s :: past) s.next after →
        (s.Reversed ↔ ∃ b ∈ bounds, s.LeavesThrough b) := by
  obtain ⟨hcheck, -, hproblem, rfl, -, hmax⟩ := of_make_eq_ok hmake
  have hcap' : solver.maxIterations ≤ 10 ^ 6 := by omega
  rcases start_cases solver guess with ⟨refusal, hrefused, hkind⟩ | ⟨x, hlong, hstart⟩
  · -- A refused guess is never clamped, and refused as an argument.
    have hnone : ∀ first, solver.start guess ≠ .ok first := by
      intro first hfirst
      rw [hrefused] at hfirst
      cases hfirst
    refine ⟨⟨fun _ first hfirst => absurd hfirst (hnone first), fun _ => ⟨?_, ?_⟩⟩, ?_⟩
    · exact fun first hfirst => absurd hfirst (hnone first)
    · intro fault hfault hviolation
      unfold optimize at hfault
      rw [hrefused] at hfault
      obtain rfl := Except.error.inj hfault
      rw [hkind] at hviolation
      cases hviolation
    · exact fun first hfirst => absurd hfirst (hnone first)
  have hfits := everyStep_ofDense hproblem hcols (clamp solver.bounds x)
  have hfeasible := feasible_clamp (consistent_of_checkConsistent hcheck) hlong
  have hwithin := within_runs_iff hfits hfeasible
  have honly : ∀ first, solver.start guess = .ok first → first = clamp solver.bounds x := by
    intro first hfirst
    rw [hstart] at hfirst
    exact (Except.ok.inj hfirst).symm
  refine ⟨⟨?_, ?_⟩, ?_⟩
  · rintro ⟨hruns, -⟩ first hfirst
    obtain rfl := honly first hfirst
    exact hwithin.mp (hruns _ hstart)
  · intro hreversed
    have hruns := hwithin.mpr (hreversed _ hstart)
    refine ⟨?_, ?_⟩
    · intro first hfirst
      obtain rfl := honly first hfirst
      exact hruns
    · intro fault hfault hviolation
      have hlength : ∀ b ∈ solver.bounds, b.index < (clamp solver.bounds x).point.length := by
        rwa [length_point_clamp]
      exact evaluate_of_violation hproblem hcols hcap' hstart hlength hruns hfault hviolation
  · intro first hfirst past s after hruns
    obtain rfl := honly first hfirst
    rcases hruns with _ | ⟨hbefore, hlt, hs⟩
    exact hs.reversed_iff (hfits.of_performs hbefore hlt hs).length_eq

end Dense

/-! ## A run that leaves its bounds -/

def faultKind? {β : Type} : Except (Fault α) β → Option Fault.Kind
  | .error fault => some fault.kind
  | .ok _ => none

/-- A residual with a derivative that is too small, so the error grows with every step. -/
def steep (x : Tensor ℚ) (_ : DenseState ℚ) : Except (Fault ℚ) (DenseState ℚ) :=
  match x.toVector? with
  | some [u, v] => .ok ⟨[5e-17 - 2 * u, -3 - 3 * v], ⟨2, [[1, 0], [0, 1]], by simp⟩⟩
  | _ => .error .lengths

theorem hasColumns_steep : HasColumns steep := by
  intro x before state h
  unfold steep at h
  rw [Tensor.toVector?_ofVector] at h
  split at h
  · rename_i u v hx
    obtain rfl := Option.some.inj hx
    obtain rfl := Except.ok.inj h
    rfl
  · cases h

theorem kind_steep {x : Tensor ℚ} {before : DenseState ℚ} {fault : Fault ℚ}
    (h : steep x before = .error fault) : fault.kind ≠ .violation := by
  unfold steep at h
  split at h
  · cases h
  · obtain rfl := Except.error.inj h
    nofun

def descend (cap : Nat) : Solver ℚ (DenseState ℚ) :=
  ⟨.ofDense steep, [⟨0, 0, .lower⟩, ⟨1, 0, .lower⟩], 0, cap, false⟩

theorem drift_descend_one :
    make (.ofDense steep) (descend 1).bounds ⟨0, 1, false⟩ = .ok (descend 1) ∧
      ∀ fault, (descend 1).optimize (.ofVector [0, 0]) = .error fault →
        fault.kind ≠ .violation := by
  have hmake : make (.ofDense steep) (descend 1).bounds ⟨0, 1, false⟩ = .ok (descend 1) :=
    make_of_isOk _ (by decide +kernel) (by decide) (by decide)
  obtain ⟨hdrift, -⟩ := drift_iff hmake hasColumns_steep (by decide) (.ofVector [0, 0])
  refine ⟨hmake, fun fault hfault hviolation => ?_⟩
  have hreversed : ∀ first, (descend 1).start (.ofVector [0, 0]) = .ok first →
      (descend 1).ReversedWithin first := by
    intro first hfirst
    have hlong : ∀ b ∈ (descend 1).bounds, b.index < [(0 : ℚ), 0].length := by decide
    rw [start_ofVector hlong] at hfirst
    obtain rfl := Except.ok.inj hfirst
    have hcheck := (of_make_eq_ok hmake).1
    exact reversedWithin_of_cap_le_one le_rfl
      (feasible_clamp (consistent_of_checkConsistent hcheck) hlong)
  obtain ⟨-, hsafe⟩ := hdrift.mpr hreversed
  obtain ⟨y, before, heval⟩ := hsafe fault hfault hviolation
  exact kind_steep heval hviolation

/-- In the second step a coordinate at -5e-17 moves on outside, and the step is taken backwards. -/
theorem violated_descend_two :
    make (.ofDense steep) (descend 2).bounds ⟨0, 2, false⟩ = .ok (descend 2) ∧
      HasColumns steep ∧
      (∀ x before fault, steep x before = .error fault → fault.kind ≠ .violation) ∧
      ((descend 2).traceFrom (clamp (descend 2).bounds [0, 0])).points =
        [[0, 0], [-5e-17, 3], [0, -1]] ∧
      faultKind? ((descend 2).optimize (.ofVector [0, 0])) = some .violation := by
  refine ⟨make_of_isOk _ (by decide +kernel) (by decide) (by decide), hasColumns_steep,
    fun x before fault h => kind_steep h, ?_, ?_⟩
  · decide +kernel
  · decide +kernel

end Solver

end BoundedFit
