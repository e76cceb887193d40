import BoundedFit.Proofs.ActiveSet
import BoundedFit.Proofs.Run.Tight
import BoundedFit.Proofs.Run.Visits
import BoundedFit.Proofs.State

/-!
# How the active set changes

Only the clamp pins a coordinate twice.
-/

namespace BoundedFit

/-! ## Order after the clamp -/

section Clamp

variable {α : Type} [Sub α] [Neg α] [Zero α] [LinearOrder α]

theorem ordered_clampTo {here : Iterate α} (h : here.active.Ordered) (b : Bound α) :
    (here.clampTo b).active.Ordered := by
  unfold Iterate.clampTo
  split
  · exact h
  · split
    · exact h.insert b
    · exact h

theorem ordered_foldl_clampTo {here : Iterate α} (h : here.active.Ordered) (bounds : List (Bound α)) :
    (bounds.foldl Iterate.clampTo here).active.Ordered := by
  induction bounds generalizing here with
  | nil => exact h
  | cons b bounds ih => exact ih (ordered_clampTo h b)

theorem ordered_clamp (bounds : List (Bound α)) (x : List α) : (clamp bounds x).active.Ordered :=
  ordered_foldl_clampTo ActiveSet.ordered_empty bounds

end Clamp

/-! ## One step -/

namespace DenseState

section Gradient

variable {α : Type} [Add α] [Sub α] [Mul α] [Div α] [Neg α] [Zero α] [One α]
  [LT α] [DecidableLT α] [Scalar α] {s : DenseState α} {damping : α} {active : ActiveSet α}
  {delta : List α}

/-- At the proposed step, the bound lets go. -/
def LetsGo (s : DenseState α) (delta : List α) (b : Bound α) : Prop :=
  ∃ gradient, gradientAt s.jacobian s.residual delta = .ok gradient ∧ b.letsGo gradient = true

theorem exists_released (h : (s.step damping active).1 = .ok delta) :
    ∃ released : List (Bound α), (∀ b, b ∈ released ↔ b ∈ active.members ∧ s.LetsGo delta b) ∧
      ∀ b, b ∈ (s.step damping active).2.members ↔ b ∈ active.members ∧ b ∉ released := by
  rcases step_cases h with ⟨hnil, -, hkept⟩ | ⟨free, released, -, -, hrelease⟩
  · exact ⟨[], by simp [hnil], by simp [hkept]⟩
  · obtain ⟨gradient, hgradient, hreleased, hkept⟩ := of_release_eq_ok hrelease
    refine ⟨released, fun b => ?_, fun b => ?_⟩
    · simp [hreleased, LetsGo, hgradient]
    · simp [hkept, hreleased, ActiveSet.filter]
      tauto

end Gradient

end DenseState

variable {α : Type} [Field α] [LinearOrder α]

/-- How a step changes the active set: the members in `released` let go, and the bound `hit` gets
pinned. -/
structure Stage.Changes (s : Stage α (DenseState α)) (released : List (Bound α))
    (hit : Option (Bound α)) : Prop where
  released_iff : ∀ b, b ∈ released ↔ b ∈ s.here.active.members ∧ s.state.LetsGo s.delta b
  active_iff : ∀ b, b ∈ s.next.active.members ↔
    b ∈ s.here.active.members ∧ b ∉ released ∨ hit = some b
  of_hit : ∀ b, hit = some b → b ∉ released ∧ s.here.active.Frees b.index
  stays : ∀ b ∈ s.here.active.members, s.next.point[b.index]? = s.here.point[b.index]?

section Steps

variable [IsStrictOrderedRing α] {solver : Solver α (DenseState α)}
  {evaluate : Tensor α → DenseState α → Except (Fault α) (DenseState α)} {before : DenseState α}
  {s : Stage α (DenseState α)}

theorem Solver.Performs.frees_block (hs : solver.Performs before s)
    (hfits : StepFits s.here s.delta s.kept) {stop : Block α} (hstop : s.block = some stop) :
    s.here.active.Frees stop.bound.index := by
  intro b hb hindex
  have hmoves := (hs.isClosest.met stop hstop).2.1.component_ne_zero
  exact hmoves (hindex ▸ hfits.pinned b hb)

theorem Solver.Performs.stays (hs : solver.Performs before s)
    (hfits : StepFits s.here s.delta s.kept) {b : Bound α} (hb : b ∈ s.here.active.members) :
    s.next.point[b.index]? = s.here.point[b.index]? := by
  rcases hv : s.here.point[b.index]? with _ | v
  · rw [List.getElem?_eq_none_iff] at hv ⊢
    rwa [hs.length_next hfits]
  · rw [hs.getElem?_next hfits hv, hfits.pinned b hb]
    simp

theorem Solver.Performs.changes [Scalar α] (hproblem : solver.problem = .ofDense evaluate)
    (hs : solver.Performs before s) (hfits : StepFits s.here s.delta s.kept) :
    ∃ released, s.Changes released (s.block.map Block.bound) := by
  obtain ⟨hstep, -⟩ := hs.step_ofDense hproblem
  obtain ⟨released, hreleased, hkept⟩ := DenseState.exists_released (congrArg Prod.fst hstep)
  simp only [hstep] at hkept
  refine ⟨released, ?_⟩
  constructor
  case released_iff => exact hreleased
  case active_iff =>
    intro b
    rw [hs.mem_active_next hfits, hkept]
    simp only [Option.map_eq_some_iff, @eq_comm _ b]
  case of_hit =>
    intro b hb
    obtain ⟨stop, hstop, rfl⟩ := Option.map_eq_some_iff.mp hb
    have hfree := hs.frees_block hfits hstop
    exact ⟨fun hgone => hfree _ ((hreleased _).mp hgone).1 rfl, hfree⟩
  case stays => exact fun b hb => hs.stays hfits hb

end Steps

/-! ## Whole runs -/

theorem ordered_land {x delta : List α} {active : ActiveSet α} {block : Option (Block α)}
    {next : Iterate α} (hland : Iterate.land ⟨x, active⟩ delta block = .ok next)
    (h : active.Ordered) : next.active.Ordered := by
  unfold Iterate.land at hland
  split at hland
  · cases hland
  · obtain rfl := Except.ok.inj hland
    cases block with
    | none => exact h
    | some stop => exact h.insert stop.bound

/-- An active set of a run whose clamp left `clamped`: bounds of the solver in increasing order, of which
only those left by the clamp share a coordinate. -/
structure ActiveSet.Arises (active : ActiveSet α) (bounds : List (Bound α)) (clamped : ActiveSet α) :
    Prop where
  subset : ∀ b ∈ active.members, b ∈ bounds
  ordered : active.Ordered
  of_shared : ∀ b ∈ active.members, ∀ c ∈ active.members, b ≠ c → b.index = c.index →
    b ∈ clamped.members ∧ c ∈ clamped.members

theorem arises_clamp (bounds : List (Bound α)) (x : List α) :
    (clamp bounds x).active.Arises bounds (clamp bounds x).active :=
  ⟨fun _ => mem_of_mem_active_clamp, ordered_clamp bounds x, fun _ hb _ hc _ _ => ⟨hb, hc⟩⟩

namespace Solver

variable [Scalar α] {solver : Solver α (DenseState α)}
  {evaluate : Tensor α → DenseState α → Except (Fault α) (DenseState α)} {first here : Iterate α}
  {past : List (Stage α (DenseState α))} {before state : DenseState α}
  {s : Stage α (DenseState α)} {clamped : ActiveSet α}

theorem Performs.ordered_next (hproblem : solver.problem = .ofDense evaluate)
    (hs : solver.Performs before s) (h : s.here.active.Ordered) : s.next.active.Ordered := by
  obtain ⟨hstep, -⟩ := hs.step_ofDense hproblem
  have hkept : s.kept.Ordered := by
    have hdelta := congrArg Prod.fst hstep
    rw [← show (s.state.step solver.damping s.here.active).2 = s.kept from congrArg Prod.snd hstep]
    rcases DenseState.step_cases hdelta with ⟨-, -, hkept⟩ | ⟨free, released, -, -, hrelease⟩
    · rwa [hkept]
    · obtain ⟨gradient, -, -, hkept⟩ := of_release_eq_ok hrelease
      rw [hkept]
      exact h.filter _
  exact ordered_land hs.landed hkept

variable [IsStrictOrderedRing α]

theorem Performs.arises_next (hproblem : solver.problem = .ofDense evaluate)
    (hs : solver.Performs before s) (hfits : StepFits s.here s.delta s.kept)
    (h : s.here.active.Arises solver.bounds clamped) :
    s.next.active.Arises solver.bounds clamped := by
  obtain ⟨released, hchanges⟩ := hs.changes hproblem hfits
  have hcases : ∀ b ∈ s.next.active.members,
      b ∈ s.here.active.members ∨ s.block.map Block.bound = some b := by
    intro b hb
    exact ((hchanges.active_iff b).mp hb).imp_left And.left
  constructor
  case subset =>
    intro b hb
    rcases hcases b hb with hb | hhit
    · exact h.subset b hb
    · obtain ⟨stop, hstop, rfl⟩ := Option.map_eq_some_iff.mp hhit
      exact (hs.isClosest.met stop hstop).1
  case ordered => exact hs.ordered_next hproblem h.ordered
  case of_shared =>
    -- A bound that is hit shares its coordinate with no old member, so both of two are old.
    intro b hb c hc hne hindex
    rcases hcases b hb with hb | hb <;> rcases hcases c hc with hc | hc
    · exact h.of_shared b hb c hc hne hindex
    · exact absurd hindex ((hchanges.of_hit c hc).2 b hb)
    · exact absurd hindex.symm ((hchanges.of_hit b hb).2 c hc)
    · exact absurd (Option.some.inj (hb.symm.trans hc)) hne

theorem Runs.arises (hproblem : solver.problem = .ofDense evaluate)
    (hfits : solver.EveryStep first StepFits) (hruns : solver.Runs first past here state)
    (h : first.active.Arises solver.bounds clamped) : here.active.Arises solver.bounds clamped := by
  induction hruns with
  | start => exact h
  | step hruns hlt hs ih => exact hs.arises_next hproblem (hfits.of_performs hruns hlt hs) ih

/-- An iteration takes out the members that let go and puts in at most one bound, on a coordinate that
was free. -/
theorem active_changes (hproblem : solver.problem = .ofDense evaluate) (hcols : HasColumns evaluate)
    {guess : Tensor α} (hstart : solver.start guess = .ok first) :
    (solver.traceFrom first).iterates.IsChain (fun here next =>
        ∃ before s released, solver.Performs before s ∧ s.here = here ∧ s.next = next ∧
          s.Changes released (s.block.map Block.bound)) ∧
      (∀ it ∈ (solver.traceFrom first).iterates, it.active.Arises solver.bounds first.active) ∧
      ∀ result, solver.optimize guess = .ok result →
        ActiveSet.Arises ⟨result.active⟩ solver.bounds first.active ∧
          (result.active.Pairwise fun a b => a.key < b.key) ∧ result.active.Nodup := by
  have hfits := everyStep_ofDense hproblem hcols first
  have harises : ∀ it ∈ (solver.traceFrom first).iterates,
      it.active.Arises solver.bounds first.active := by
    intro it hit
    obtain ⟨past, state, hruns⟩ := runs_of_mem_iterates hit
    obtain ⟨x, -, -, rfl⟩ := of_start_eq_ok hstart
    exact hruns.arises hproblem hfits (arises_clamp solver.bounds x)
  refine ⟨isChain_iterates fun past before s hruns hlt hs => ?_, harises, fun result hresult => ?_⟩
  · obtain ⟨released, hchanges⟩ := hs.changes hproblem (hfits.of_performs hruns hlt hs)
    exact ⟨before, s, released, hs, rfl, rfl, hchanges⟩
  · have hfinal := harises _ (Trace.final_mem_iterates _)
    rw [active_of_optimize hstart hresult]
    exact ⟨hfinal, hfinal.ordered, hfinal.ordered.imp fun hlt heq => hlt.ne (congrArg _ heq)⟩

/-- The distance of a point of the plane from `(2, 3)`. -/
def plane : LinearProblem ℚ := ⟨.ofFn 2 2 fun i j => if i = j then 1 else 0, [2, 3], rfl⟩

def slide : Solver ℚ (DenseState ℚ) :=
  ⟨plane.toProblem, [⟨0, 0, .lower⟩, ⟨1, 1, .upper⟩], 0, 2, false⟩

theorem iterates_slide :
    (slide.traceFrom (clamp slide.bounds [-1, 0])).iterates.map
        (fun it => (it.point, it.active.members.map Bound.index)) =
      [([0, 0], [0]), ([0, 1], [1]), ([2, 1], [1])] := by
  decide +kernel

theorem active_changes_slide :
    slide.start (.ofVector [-1, 0]) = .ok (clamp slide.bounds [-1, 0]) ∧
      ∃ (s : Stage ℚ (DenseState ℚ)) (released : List (Bound ℚ)),
        s.Changes released (s.block.map Block.bound) ∧ s.here.point = [0, 0] ∧
          s.next.point = [0, 1] ∧ released ≠ [] ∧ s.block ≠ none := by
  have hstart : slide.start (.ofVector [-1, 0]) = .ok (clamp slide.bounds [-1, 0]) :=
    start_ofVector (by decide)
  have hproblem : slide.problem = .ofDense plane.evaluate := rfl
  obtain ⟨hchain, -, -⟩ := active_changes hproblem plane.hasColumns hstart
  obtain ⟨here, rest, hiterates, hhere, hrest⟩ := List.map_eq_cons_iff.mp iterates_slide
  obtain ⟨next, rest, rfl, hnext, -⟩ := List.map_eq_cons_iff.mp hrest
  rw [hiterates] at hchain
  obtain ⟨⟨before, s, released, -, rfl, rfl, hchanges⟩, -⟩ := List.isChain_cons_cons.mp hchain
  obtain ⟨hpoint, hold⟩ := Prod.mk.inj hhere
  obtain ⟨hpoint', hnew⟩ := Prod.mk.inj hnext
  obtain ⟨b, _, hb, hindex, -⟩ := List.map_eq_cons_iff.mp hold
  obtain ⟨c, _, hc, hindex', -⟩ := List.map_eq_cons_iff.mp hnew
  refine ⟨hstart, s, released, hchanges, hpoint, hpoint', ?_, ?_⟩
  · rintro rfl
    have hb : b ∈ s.next.active.members := (hchanges.active_iff b).mpr (.inl (by simp [hb]))
    have hmem := List.mem_map_of_mem (f := Bound.index) hb
    rw [hnew, hindex] at hmem
    exact absurd hmem (by decide)
  · intro hnone
    have hc : c ∈ s.next.active.members := by simp [hc]
    have hmem := List.mem_map_of_mem (f := Bound.index)
      (((hchanges.active_iff c).mp hc).resolve_right (by simp [hnone])).1
    rw [hold, hindex'] at hmem
    exact absurd hmem (by decide)

end Solver

end BoundedFit
