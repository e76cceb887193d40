import BoundedFit.Proofs.Dominated.Block

/-!
# Runs without a dominated bound

Both solvers take the same steps.
-/

namespace BoundedFit

/-! ## Traces that are alike -/

/-- The traces visit the same points and end in the same way, with iterates that are alike. -/
inductive Trace.Alike {α : Type} (shared : Bound α → Prop) : Trace α → Trace α → Prop
  | unevaluated {here other : Iterate α} (fault : Fault α) : here.Alike shared other →
      Alike shared (.unevaluated here fault) (.unevaluated other fault)
  | stuck {here other : Iterate α} (error : α) (block : Option (Block α)) (fault : Fault α) :
      here.Alike shared other →
      Alike shared (.stuck here error block fault) (.stuck other error block fault)
  | settled {here other : Iterate α} (error : α) : here.Alike shared other →
      Alike shared (.settled here error) (.settled other error)
  | exhausted {here other : Iterate α} (error : α) : here.Alike shared other →
      Alike shared (.exhausted here error) (.exhausted other error)
  | moved {here other : Iterate α} {rest rest' : Trace α} (error : α) (block : Option (Block α)) :
      here.Alike shared other → Alike shared rest rest' →
      Alike shared (.moved here error block rest) (.moved other error block rest')

namespace Trace.Alike

variable {α : Type} {shared : Bound α → Prop} {t u : Trace α}

theorem visits_eq (h : t.Alike shared u) : t.visits = u.visits := by
  induction h with
  | unevaluated fault hhere => rfl
  | stuck error block fault hhere => simp only [visits, hhere.point]
  | settled error hhere => simp only [visits, hhere.point]
  | exhausted error hhere => simp only [visits, hhere.point]
  | moved error block hhere _ ih => simp only [visits, hhere.point, ih]

theorem forall₂_iterates (h : t.Alike shared u) :
    List.Forall₂ (Iterate.Alike shared) t.iterates u.iterates := by
  induction h with
  | unevaluated fault hhere => exact .cons hhere .nil
  | stuck error block fault hhere => exact .cons hhere .nil
  | settled error hhere => exact .cons hhere .nil
  | exhausted error hhere => exact .cons hhere .nil
  | moved error block hhere _ ih => exact .cons hhere ih

theorem points_eq (h : t.Alike shared u) : t.points = u.points := by
  have hpoints := h.forall₂_iterates.imp fun here other hhere => hhere.point
  unfold points
  rwa [← List.forall₂_eq_eq_eq, List.forall₂_map_left_iff, List.forall₂_map_right_iff]

theorem fault?_eq (h : t.Alike shared u) : t.fault? = u.fault? := by
  induction h with
  | moved error block hhere _ ih => exact ih
  | _ => rfl

theorem isSettled_eq (h : t.Alike shared u) : t.isSettled = u.isSettled := by
  induction h with
  | moved error block hhere _ ih => exact ih
  | _ => rfl

theorem final (h : t.Alike shared u) : t.final.Alike shared u.final := by
  induction h with
  | moved error block hhere _ ih => exact ih
  | _ => assumption

end Trace.Alike

/-- The steps are stopped by the same bound, and fail in the same way or lead to the same state and to
iterates that are alike. -/
inductive Advance.Alike {α σ : Type} (shared : Bound α → Prop) : Advance α σ → Advance α σ → Prop
  | failed (block : Option (Block α)) (fault : Fault α) :
      Alike shared ⟨block, .error fault⟩ ⟨block, .error fault⟩
  | landed {next other : Iterate α} (block : Option (Block α)) (after : σ) : next.Alike shared other →
      Alike shared ⟨block, .ok (next, after)⟩ ⟨block, .ok (other, after)⟩

/-! ## Iterates within their bounds' reach -/

/-- The point has all bounded coordinates, and only bounds of the list are pinned. -/
structure Iterate.Spans {α : Type} (bounds : List (Bound α)) (here : Iterate α) : Prop where
  long : ∀ b ∈ bounds, b.index < here.point.length
  pinned : ∀ b ∈ here.active.members, b ∈ bounds

theorem Vec.lt_length_zipStretched? {α : Type} {f : α → α → α} {u v w : List α}
    (h : Vec.zipStretched? f u v = some w) {i : Nat} (hu : i < u.length) (hv : i < v.length) :
    i < w.length := by
  rw [(of_zipStretched?_eq_some h).2]
  split
  · exact hv
  · exact hu

section Spans

variable {α : Type} [Field α] [LinearOrder α] {bounds : List (Bound α)} {here next : Iterate α}
  {delta : List α} {block : Option (Block α)}

theorem spans_clamp {x : List α} (hlong : ∀ b ∈ bounds, b.index < x.length) :
    (clamp bounds x).Spans bounds := by
  refine ⟨fun b hb => ?_, fun b hb => mem_of_mem_active_clamp hb⟩
  rw [length_point_clamp]
  exact hlong b hb

theorem Iterate.Spans.land (h : here.Spans bounds) (hdelta : ∀ b ∈ bounds, b.index < delta.length)
    (hblock : ∀ stop, block = some stop → stop.bound ∈ bounds)
    (hland : here.land delta block = .ok next) : next.Spans bounds := by
  unfold Iterate.land at hland
  split at hland
  · cases hland
  · rename_i point hpoint
    obtain rfl := Except.ok.inj hland
    have hlong : ∀ b ∈ bounds, b.index < point.length := by
      intro b hb
      refine Vec.lt_length_zipStretched? hpoint (h.long b hb) ?_
      rw [length_shorten]
      exact hdelta b hb
    cases block with
    | none => exact ⟨hlong, h.pinned⟩
    | some stop =>
      refine ⟨fun b hb => ?_, fun b hb => ?_⟩
      · rw [Iterate.pin, List.length_set]
        exact hlong b hb
      · rcases (ActiveSet.mem_insert _ _ _).mp hb with rfl | hb
        · exact hblock stop rfl
        · exact h.pinned b hb

omit [Field α] in
theorem Iterate.Alike.pin {shared : Bound α → Prop} {other : Iterate α} (h : here.Alike shared other)
    (block : Option (Block α)) : (here.pin block).Alike shared (other.pin block) := by
  cases block with
  | none => exact h
  | some stop =>
    exact ⟨congrArg (·.set stop.bound.index stop.bound.value) h.point, h.active.insert stop.bound⟩

end Spans

/-! ## One step of both solvers -/

namespace Solver

/-- The same solver with other bounds. -/
def withBounds {α σ : Type} (solver : Solver α σ) (bounds : List (Bound α)) : Solver α σ :=
  { solver with bounds }

variable {α : Type} [Field α] [LinearOrder α] [IsStrictOrderedRing α] [Scalar α]
  {solver : Solver α (DenseState α)}
  {evaluate : Tensor α → DenseState α → Except (Fault α) (DenseState α)}
  {shared : Bound α → Prop} {c : Bound α} {before after : List (Bound α)} {here other : Iterate α}

theorem Performs.spans (hproblem : solver.problem = .ofDense evaluate)
    (hsigned : ∀ b ∈ solver.bounds, Word.isSigned b.index = true) {state : DenseState α}
    {s : Stage α (DenseState α)} (hs : solver.Performs state s) (h : s.here.Spans solver.bounds) :
    s.next.Spans solver.bounds := by
  obtain ⟨hstep, -⟩ := hs.step_ofDense hproblem
  have hdelta : (s.state.step solver.damping s.here.active).1 = .ok s.delta := by rw [hstep]
  have hkept : ∀ b ∈ s.kept.members, b ∈ s.here.active.members := by
    have hsubset := (DenseState.of_step_eq_ok hdelta).2.2
    rwa [hstep] at hsubset
  have hpinned : ∀ b ∈ s.kept.members, s.delta[b.index]? = some 0 :=
    fun b hb => DenseState.getElem?_of_pinned hdelta (hkept b hb)
  have hlong : ∀ b ∈ solver.bounds, b.index < s.delta.length := by
    have hstopped := hs.stopped
    rw [closestBlock_eq_empty hpinned, closestBlock_empty h.long hsigned] at hstopped
    split at hstopped
    · cases hstopped
    · rename_i hany
      intro b hb
      by_contra hbeyond
      exact hany (List.any_eq_true.mpr ⟨b, hb, by simpa using hbeyond⟩)
  have hkeeps : (⟨s.here.point, s.kept⟩ : Iterate α).Spans solver.bounds :=
    ⟨h.long, fun b hb => h.pinned b (hkept b hb)⟩
  exact hkeeps.land hlong (fun stop hstop => ((isClosest_closestBlock hs.stopped).met stop hstop).1) hs.landed

theorem closestBlock_alike {state : DenseState α} {delta : List α} {active active' : ActiveSet α}
    (hbounds : solver.bounds = before ++ c :: after) (hdominated : c.DominatedBy before after)
    (hsigned : ∀ b ∈ solver.bounds, Word.isSigned b.index = true)
    (hspans : here.Spans solver.bounds)
    (hdelta : (state.step solver.damping active).1 = .ok delta)
    (hdelta' : (state.step solver.damping active').1 = .ok delta) :
    closestBlock solver.bounds here.point delta (state.step solver.damping active).2 =
      closestBlock (before ++ after) here.point delta (state.step solver.damping active').2 := by
  have hpinned : ∀ active : ActiveSet α, (state.step solver.damping active).1 = .ok delta →
      ∀ b ∈ (state.step solver.damping active).2.members, delta[b.index]? = some 0 :=
    fun active hok b hb =>
      DenseState.getElem?_of_pinned hok ((DenseState.of_step_eq_ok hok).2.2 b hb)
  have hlong := hspans.long
  rw [closestBlock_eq_empty (hpinned _ hdelta), closestBlock_eq_empty (hpinned _ hdelta')]
  rw [hbounds] at hlong hsigned ⊢
  exact closestBlock_of_dominated hdominated hlong hsigned

theorem advance_alike (hproblem : solver.problem = .ofDense evaluate)
    (hbounds : solver.bounds = before ++ c :: after) (hdominated : c.DominatedBy before after)
    (hsigned : ∀ b ∈ solver.bounds, Word.isSigned b.index = true)
    (hspans : here.Spans solver.bounds) (h : here.Alike shared other) (state : DenseState α) :
    (solver.advance here state).Alike shared
      ((solver.withBounds (before ++ after)).advance other state) := by
  have hsigned' : other.active.Signed := by
    intro b hb
    obtain ⟨b', hb', hindex, -⟩ := h.active.symm.exists_mem hb
    rw [← hindex]
    exact hsigned b' (hspans.pinned b' hb')
  have hsteps : (state.step solver.damping here.active).1 = (state.step solver.damping other.active).1 ∧
      (state.step solver.damping here.active).2.Alike shared
        (state.step solver.damping other.active).2 :=
    DenseState.step_congr h.active (fun b hb => hsigned b (hspans.pinned b hb)) hsigned'
  obtain ⟨hdelta, hkept⟩ := hsteps
  unfold advance withBounds
  dsimp only
  rw [hproblem]
  dsimp only [Problem.ofDense]
  rw [← hdelta, ← h.point]
  rcases hstep : (state.step solver.damping here.active).1 with fault | delta
  · exact .failed none fault
  dsimp only
  -- The kept bounds do not stop the step, so the same bound does in both solvers.
  rw [← closestBlock_alike hbounds hdominated hsigned hspans hstep (hdelta ▸ hstep)]
  rcases closestBlock solver.bounds here.point delta (state.step solver.damping here.active).2
    with fault | block
  · exact .failed none fault
  unfold Iterate.land
  dsimp only
  rcases Vec.zipStretched? (· + ·) here.point (shorten delta block) with _ | point
  · exact .failed block .lengths
  · have hmoved : Iterate.Alike shared ⟨point, (state.step solver.damping here.active).2⟩
        ⟨point, (state.step solver.damping other.active).2⟩ := ⟨rfl, hkept⟩
    exact .landed block state (hmoved.pin block)

/-! ## Whole runs -/

theorem trace_alike (hproblem : solver.problem = .ofDense evaluate)
    (hbounds : solver.bounds = before ++ c :: after) (hdominated : c.DominatedBy before after)
    (hsigned : ∀ b ∈ solver.bounds, Word.isSigned b.index = true) (n : Nat)
    (hspans : here.Spans solver.bounds) (h : here.Alike shared other) (state : DenseState α) :
    (solver.trace n here state).Alike shared
      ((solver.withBounds (before ++ after)).trace n other state) := by
  induction n generalizing here other state with
  | zero =>
    unfold trace withBounds
    dsimp only
    rw [← h.point]
    rcases solver.problem.errorAt here.point state with fault | ⟨error, found⟩
    · exact .unevaluated fault h
    · exact .exhausted error h
  | succ n ih =>
    have hproblem' : (solver.withBounds (before ++ after)).problem = solver.problem := rfl
    unfold trace
    rw [hproblem', ← h.point]
    rcases heval : solver.problem.errorAt here.point state with fault | ⟨error, found⟩
    · exact .unevaluated fault h
    dsimp only
    split
    · exact .settled error h
    rename_i hlarge
    have hadvance := advance_alike hproblem hbounds hdominated hsigned hspans h found
    generalize hhere : solver.advance here found = taken at hadvance ⊢
    generalize (solver.withBounds (before ++ after)).advance other found =
      taken' at hadvance ⊢
    cases hadvance with
    | failed block fault => exact .stuck error block fault h
    | @landed next next' block rest hnext =>
      have hstep : (solver.advance here found).next = .ok (next, rest) := by rw [hhere]
      obtain ⟨s, hs, rfl, rfl, rfl, rfl⟩ := performs_of_advance ⟨error, heval, hlarge⟩ hstep
      exact .moved error block h (ih (hs.spans hproblem hsigned hspans) hnext s.after)

theorem Runs.spans {first : Iterate α} {past : List (Stage α (DenseState α))} {state : DenseState α}
    (hproblem : solver.problem = .ofDense evaluate)
    (hsigned : ∀ b ∈ solver.bounds, Word.isSigned b.index = true)
    (hruns : solver.Runs first past here state) (hfirst : first.Spans solver.bounds) :
    here.Spans solver.bounds := by
  induction hruns with
  | start => exact hfirst
  | step _ _ hs ih => exact hs.spans hproblem hsigned ih

theorem lt_length_best {first : Iterate α} (hproblem : solver.problem = .ofDense evaluate)
    (hsigned : ∀ b ∈ solver.bounds, Word.isSigned b.index = true) (hfirst : first.Spans solver.bounds)
    {b : Bound α} (hb : b ∈ solver.bounds) :
    b.index < (best first.point (solver.traceFrom first)).point.length := by
  obtain ⟨it, hit, heq⟩ := List.mem_map.mp (best_point_mem solver first)
  obtain ⟨past, state, hruns⟩ := runs_of_mem_iterates hit
  rw [← heq]
  exact (hruns.spans hproblem hsigned hfirst).long b hb

end Solver

end BoundedFit
