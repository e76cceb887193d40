import BoundedFit.Proofs.Block
import BoundedFit.Proofs.Run

/-!
# What a fitting step keeps

Pinned bounds hold with equality, and others are violated by no more than before.
-/

namespace BoundedFit

variable {α σ : Type} [Field α] [LinearOrder α]

/-- The step is taken backwards, since the bound that stops it lies behind. -/
def Stage.Reversed (s : Stage α σ) : Prop := Block.limit s.block < 0

/-- How far the skipped components of the steps may have carried coordinate `i` altogether. -/
def skippedSum (past : List (Stage α σ)) (i : Nat) : α :=
  (past.map fun s => skipped (s.delta.getD i 0)).sum

omit [LinearOrder α] in
theorem getElem?_of_lt {v : List α} {i : Nat} (h : i < v.length) : v[i]? = some (v.getD i 0) := by
  simp [h]

section Sum

variable [IsStrictOrderedRing α]

theorem skippedSum_le (past : List (Stage α σ)) (i : Nat) :
    skippedSum past i ≤ past.length * negligibleStep := by
  unfold skippedSum
  induction past with
  | nil => simp
  | cons s past ih =>
    rw [List.map_cons, List.sum_cons, List.length_cons]
    push_cast
    linarith [skipped_le_negligibleStep (s.delta.getD i 0)]

end Sum

namespace Solver

variable {solver : Solver α σ} {before : σ} {s : Stage α σ}

namespace Performs

theorem length_next (hs : solver.Performs before s) (hfits : StepFits s.here s.delta s.kept) :
    s.next.point.length = s.here.point.length :=
  length_point_land hs.landed hfits.length_eq

theorem mem_active_next (hs : solver.Performs before s) (hfits : StepFits s.here s.delta s.kept)
    (b : Bound α) : b ∈ s.next.active.members ↔
      b ∈ s.kept.members ∨ ∃ stop, s.block = some stop ∧ b = stop.bound :=
  mem_active_land hs.landed hfits.length_eq b

variable [IsStrictOrderedRing α]

theorem isClosest (hs : solver.Performs before s) :
    IsClosest solver.bounds s.here.point s.delta s.kept s.block :=
  isClosest_closestBlock hs.stopped

theorem getElem?_next (hs : solver.Performs before s) (hfits : StepFits s.here s.delta s.kept)
    {i : Nat} {v : α} (hv : s.here.point[i]? = some v) :
    s.next.point[i]? = some (v + s.delta.getD i 0 * Block.limit s.block) := by
  have hi : i < s.delta.length := by
    rw [hfits.length_eq]
    exact (List.getElem?_eq_some_iff.mp hv).1
  exact getElem?_point_land hs.landed hfits.length_eq hs.isClosest hv (getElem?_of_lt hi)

theorem tight_next (hs : solver.Performs before s) (hfits : StepFits s.here s.delta s.kept)
    (htight : s.here.Tight) : s.next.Tight := by
  intro b hb
  rcases (hs.mem_active_next hfits b).mp hb with hkept | ⟨stop, hstop, rfl⟩
  · have hactive := hfits.kept_subset b hkept
    rw [hs.getElem?_next hfits (htight b hactive), hfits.pinned b hactive]
    simp
  · obtain ⟨-, hmet, -⟩ := hs.isClosest.met stop hstop
    obtain ⟨v, step, hv, hd, hlarge, -, hscale⟩ := hmet.2
    have hne := ne_zero_of_negligibleStep_le hlarge
    have hgetD : s.delta.getD stop.bound.index 0 = step := by simp [hd]
    rw [hs.getElem?_next hfits hv, hgetD, hstop]
    simp only [Block.limit]
    rw [hscale, Bound.add_mul_crossing _ v hne]

theorem within_next (hs : solver.Performs before s) (hfits : StepFits s.here s.delta s.kept)
    (hforward : ¬ s.Reversed) {distance : Nat → α}
    (h : Within solver.bounds distance s.here.point) :
    Within solver.bounds (fun i => distance i + skipped (s.delta.getD i 0)) s.next.point := by
  rw [within_iff] at h ⊢
  intro b hb
  obtain ⟨v, hv, hnonneg, hgap⟩ := h b hb
  have hd : s.delta[b.index]? = some (s.delta.getD b.index 0) := by
    apply getElem?_of_lt
    rw [hfits.length_eq]
    exact (List.getElem?_eq_some_iff.mp hv).1
  refine ⟨_, hs.getElem?_next hfits hv, add_nonneg hnonneg (skipped_nonneg _), ?_⟩
  exact hs.isClosest.gap_nonneg (not_lt.mp hforward) hb hv hd
    (fun hkept => hfits.pinned b (hfits.kept_subset b hkept)) hnonneg hgap

end Performs

/-! ## Whole runs -/

variable {first here : Iterate α} {past : List (Stage α σ)} {state : σ}

theorem Runs.length_point (hruns : solver.Runs first past here state)
    (hfits : solver.EveryStep first StepFits) : here.point.length = first.point.length := by
  induction hruns with
  | start => rfl
  | step hruns hlt hs ih =>
    rw [hs.length_next (hfits.of_performs hruns hlt hs), ih]

/-- The problem itself breaks off the run: it refuses the point of an iterate that the run comes to, or
has no step there. -/
def BreaksOff (solver : Solver α σ) (first : Iterate α) (fault : Fault α) : Prop :=
  (∃ past here before, solver.Runs first past here before ∧
      solver.problem.evaluate (.ofVector here.point) before = .error fault) ∨
    ∃ here state, solver.Asks first here state ∧
      (solver.problem.step solver.damping here.active state).delta = .error fault

theorem breaksOff_of_fault (hfits : solver.EveryStep first StepFits)
    (hlong : ∀ b ∈ solver.bounds, b.index < first.point.length) {fault : Fault α}
    (h : (solver.traceFrom first).fault? = some fault) : solver.BreaksOff first fault := by
  obtain ⟨past, here, before, hruns, heval | ⟨state, hlt, hcontinues, hnext⟩⟩ := fault_of_traceFrom h
  · exact Or.inl ⟨past, here, before, hruns, Problem.errorAt_eq_error_iff.mp heval⟩
  · refine Or.inr ⟨here, state, ⟨past, before, hruns, hlt, hcontinues⟩, ?_⟩
    cases hdelta : (solver.problem.step solver.damping here.active state).delta with
    | error fault' =>
      simp only [advance, hdelta] at hnext
      rw [Except.error.inj hnext]
    | ok delta =>
      -- A step that fits is taken, so the fault would not be there.
      have hfit := hfits past here before state delta hruns hlt hcontinues hdelta
      have hlength := hruns.length_point hfits
      obtain ⟨block, hblock⟩ := exists_closestBlock
        (solver.problem.step solver.damping here.active state).active
        (fun b hb _ => hlength ▸ hlong b hb)
        (fun b hb _ => hfit.length_eq ▸ hlength ▸ hlong b hb)
      simp only [advance, hdelta, hblock] at hnext
      rw [land_eq hfit.length_eq] at hnext
      cases hnext

variable [IsStrictOrderedRing α]

theorem Runs.tight (hruns : solver.Runs first past here state)
    (hfits : solver.EveryStep first StepFits) (h : first.Tight) : here.Tight := by
  induction hruns with
  | start => exact h
  | step hruns hlt hs ih => exact hs.tight_next (hfits.of_performs hruns hlt hs) ih

/-- As long as every reversed step lands within the distance that was skipped, so does the run. -/
theorem Runs.within (hruns : solver.Runs first past here state)
    (hfits : solver.EveryStep first StepFits) (h : Feasible solver.bounds first.point)
    (hreversed : ∀ past s after, solver.Runs first (s :: past) s.next after → s.Reversed →
      Within solver.bounds (skippedSum (s :: past)) s.next.point) :
    Within solver.bounds (skippedSum past) here.point := by
  induction hruns with
  | start => exact feasible_iff_within_zero.mp h
  | @step past s before hruns hlt hs ih =>
    by_cases hback : s.Reversed
    · exact hreversed past s s.after (hruns.step hlt hs) hback
    · have hnext := hs.within_next (hfits.of_performs hruns hlt hs) hback ih
      have hsum : (fun i => skippedSum past i + skipped (s.delta.getD i 0)) = skippedSum (s :: past) := by
        funext i
        unfold skippedSum
        rw [List.map_cons, List.sum_cons, add_comm]
      rwa [hsum] at hnext

end Solver

end BoundedFit
