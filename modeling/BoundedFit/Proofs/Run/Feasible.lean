import BoundedFit.Proofs.Clamp
import BoundedFit.Proofs.Stage

/-!
# Every point of a run is feasible

If no component is too small to stop a step.
-/

namespace BoundedFit.Solver

variable {α σ : Type} [Field α] [LinearOrder α] [IsStrictOrderedRing α]
  {solver : Solver α σ} {first here : Iterate α} {past : List (Stage α σ)} {state : σ}

/-- The step fits, and each of its components is zero or large enough to stop it. -/
def StepFitsAndCounts (here : Iterate α) (delta : List α) (kept : ActiveSet α) : Prop :=
  StepFits here delta kept ∧ ∀ step ∈ delta, step = 0 ∨ negligibleStep ≤ |step|

theorem skipped_eq_zero {delta : List α} (h : ∀ step ∈ delta, step = 0 ∨ negligibleStep ≤ |step|)
    (i : Nat) : skipped (delta.getD i 0) = 0 := by
  unfold skipped
  rw [Scalar.abs_eq]
  split
  · rename_i hsmall
    have hzero : delta.getD i 0 = 0 := by
      cases hd : delta[i]? with
      | none => simp [hd]
      | some step =>
        have hget : delta.getD i 0 = step := by simp [hd]
        rw [hget] at hsmall ⊢
        exact (h step (List.mem_of_getElem? hd)).resolve_right (not_le.mpr hsmall)
    rw [hzero, abs_zero]
  · rfl

theorem Performs.feasible_next {before : σ} {s : Stage α σ} (hs : solver.Performs before s)
    (hfits : StepFitsAndCounts s.here s.delta s.kept) (h : Feasible solver.bounds s.here.point) :
    Feasible solver.bounds s.next.point := by
  have hforward : ¬ s.Reversed := not_lt.mpr (hs.isClosest.limit_nonneg h)
  rw [feasible_iff_within_zero] at h ⊢
  have hnext := hs.within_next hfits.1 hforward h
  simp only [skipped_eq_zero hfits.2, add_zero] at hnext
  exact hnext

theorem Runs.feasible (hruns : solver.Runs first past here state)
    (hfits : solver.EveryStep first StepFitsAndCounts) (h : Feasible solver.bounds first.point) :
    Feasible solver.bounds here.point := by
  induction hruns with
  | start => exact h
  | step hruns hlt hs ih => exact hs.feasible_next (hfits.of_performs hruns hlt hs) ih

variable [Scalar α] {problem : Problem α σ} {bounds : List (Bound α)} {settings : Settings α}

/-- Every point of a run is feasible, every step that is stopped is taken in part and not backwards,
and a run that gives no result is broken off by the problem, so a violated bound is only ever reported by
the problem. -/
theorem feasible_of_optimize (hmake : make problem bounds settings = .ok solver) {x : List α}
    (hlong : ∀ b ∈ bounds, b.index < x.length)
    (hfits : solver.EveryStep (clamp bounds x) StepFitsAndCounts) :
    solver.problem = problem ∧ solver.damping = settings.damping ∧
      solver.start (.ofVector x) = .ok (clamp bounds x) ∧
      (∀ p ∈ (solver.traceFrom (clamp bounds x)).points, Feasible bounds p) ∧
      (∀ stop ∈ (solver.traceFrom (clamp bounds x)).blocks, 0 ≤ stop.scale ∧ stop.scale < 1) ∧
      (∀ fault, solver.optimize (.ofVector x) = .error fault →
        solver.BreaksOff (clamp bounds x) fault) ∧
      ((∀ fault, solver.BreaksOff (clamp bounds x) fault → fault.kind ≠ .violation) →
        ∀ fault, solver.optimize (.ofVector x) = .error fault → fault.kind ≠ .violation) := by
  obtain ⟨hcheck, -, rfl, rfl, hdamping, -⟩ := of_make_eq_ok hmake
  have hclamp := feasible_clamp (consistent_of_checkConsistent hcheck) hlong
  have hstart := start_ofVector hlong
  have hpoints : ∀ p ∈ (solver.traceFrom (clamp solver.bounds x)).points,
      Feasible solver.bounds p := by
    intro p hp
    obtain ⟨it, hit, rfl⟩ := List.mem_map.mp hp
    obtain ⟨past, state, hruns⟩ := runs_of_mem_iterates hit
    exact hruns.feasible hfits hclamp
  have hbroken : ∀ fault, solver.optimize (.ofVector x) = .error fault →
      solver.BreaksOff (clamp solver.bounds x) fault := by
    intro fault hfault
    have hlength : ∀ b ∈ solver.bounds, b.index < (clamp solver.bounds x).point.length := by
      rwa [length_point_clamp]
    refine breaksOff_of_fault (hfits.imp fun _ _ _ h => h.1) hlength
      (fault_of_optimize hstart (fun p hp => ?_) hfault)
    -- The final check lets every feasible point through.
    apply acceptAll_of_within (feasible_iff_within_zero.mp (hpoints p hp))
    intro i
    unfold feasibilityTolerance
    norm_num
  refine ⟨rfl, hdamping, hstart, hpoints, ?_, hbroken, fun hkind fault h => hkind fault (hbroken fault h)⟩
  intro stop hstop
  obtain ⟨past, here, before, state, delta, hruns, -, -, -, hblock⟩ :=
    closestBlock_of_mem_blocks hstop
  have hclosest := isClosest_closestBlock hblock
  have hstopped := hclosest.met stop rfl
  exact ⟨hclosest.limit_nonneg (hruns.feasible hfits hclamp), hstopped.2.2⟩

/-- A problem whose step raises every coordinate that is not pinned by one. -/
def climb : Problem ℚ (List ℚ) where
  fresh := []
  evaluate x _ := .ok x.entries
  error _ := 1
  residual _ := [1]
  jacobian _ := .empty
  step _ active x :=
    let component i := if active.members.any (·.index == i) then 0 else 1
    ⟨.ok ((List.range x.length).map component), active, x⟩

theorem climb_fits {solver : Solver ℚ (List ℚ)} (h : solver.problem = climb) (first : Iterate ℚ) :
    solver.EveryStep first StepFitsAndCounts := by
  intro past here before state delta _ _ hcontinues hdelta
  obtain ⟨error, heval, -⟩ := hcontinues
  rw [h] at heval hdelta ⊢
  have hstate : here.point = state := Except.ok.inj (Problem.errorAt_eq_ok_iff.mp heval).1
  simp only [climb, Except.ok.injEq] at hdelta
  subst hstate hdelta
  refine ⟨⟨by simp, ?_, fun b hb => hb⟩, ?_⟩
  · intro b hb
    by_cases hi : b.index < here.point.length
    · simpa [hi] using ⟨b, hb, rfl⟩
    · simp [hi]
  · intro step hstep
    obtain ⟨i, -, rfl⟩ := List.mem_map.mp hstep
    split
    · exact Or.inl rfl
    · right
      unfold negligibleStep
      norm_num

def boxedClimb : Solver ℚ (List ℚ) := ⟨climb, [⟨0, 0, .lower⟩, ⟨1, 1 / 2, .upper⟩], 1, 2, false⟩

theorem feasible_boxedClimb :
    (∀ p ∈ (boxedClimb.traceFrom (clamp boxedClimb.bounds [-1, 0])).points,
      Feasible boxedClimb.bounds p) ∧
    (boxedClimb.traceFrom (clamp boxedClimb.bounds [-1, 0])).points =
      [[0, 0], [0, 1 / 2], [0, 1 / 2]] ∧
    ∀ fault, boxedClimb.optimize (.ofVector [-1, 0]) = .error fault → fault.kind ≠ .violation := by
  have hmake : make climb boxedClimb.bounds ⟨1, 2, false⟩ = .ok boxedClimb :=
    make_of_isOk climb (by decide +kernel) (by decide) (by decide)
  have hlong : ∀ b ∈ boxedClimb.bounds, b.index < [(-1 : ℚ), 0].length := by decide
  obtain ⟨-, -, -, hpoints, -, -, hkind⟩ := feasible_of_optimize hmake hlong (climb_fits rfl _)
  refine ⟨hpoints, by decide +kernel, hkind fun fault hbroken => ?_⟩
  -- The problem evaluates every point and always has a step.
  rcases hbroken with ⟨past, here, before, -, heval⟩ | ⟨here, state, -, hstep⟩
  · cases heval
  · cases hstep

end BoundedFit.Solver
