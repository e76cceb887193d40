import BoundedFit.Proofs.Block
import BoundedFit.Proofs.Relabel.Step

/-!
# Runs of a relabelled problem

Only the order of an active set depends on the places.
-/

namespace BoundedFit.Relabelling

variable {n : Nat} (P : Relabelling n) {α : Type} [Field α]

/-! ## Problems and blocks -/

def onTensor (x : Tensor α) : Tensor α :=
  match x.toVector? with
  | some v => .ofVector (P.onVector v)
  | none => x

@[simp] theorem onTensor_ofVector (v : List α) :
    P.onTensor (.ofVector v) = .ofVector (P.onVector v) := rfl

/-- The problem in the relabelled coordinates: the same residual, and the derivative with its columns
relabelled. -/
def onEvaluate (evaluate : Tensor α → DenseState α → Except (Fault α) (DenseState α))
    (x : Tensor α) (before : DenseState α) : Except (Fault α) (DenseState α) :=
  (evaluate (P.symm.onTensor x) (P.symm.onState before)).map P.onState

variable {evaluate : Tensor α → DenseState α → Except (Fault α) (DenseState α)}

theorem onEvaluate_onVector (x : List α) (before : DenseState α) :
    P.onEvaluate evaluate (.ofVector (P.onVector x)) (P.onState before) =
      (evaluate (.ofVector x) before).map P.onState := by
  unfold onEvaluate
  rw [onTensor_ofVector, P.symm_onVector_onVector, P.symm_onState_onState]

def onBlock (block : Block α) : Block α := ⟨P.onBound block.bound, block.scale⟩

theorem limit_onBlock (closest : Option (Block α)) :
    Block.limit (closest.map P.onBlock) = Block.limit closest := by
  cases closest <;> rfl

theorem shorten_onBlock {delta : List α} (hdelta : delta.length = n) (block : Option (Block α)) :
    shorten (P.onVector delta) (block.map P.onBlock) = P.onVector (shorten delta block) := by
  cases block with
  | none => rfl
  | some stop => exact (P.onVector_map_mul hdelta stop.scale).symm

/-! ## Iterates and traces -/

/-- The second iterate is the first one relabelled. The point has `n` coordinates, and only they are
pinned. -/
structure OnIterate (here there : Iterate α) : Prop where
  length_eq : here.point.length = n
  inRange : ∀ b ∈ here.active.members, b.index < n
  point : there.point = P.onVector here.point
  active : P.OnActive here.active there.active

/-- The second trace is the first one relabelled. -/
inductive OnTrace : Trace α → Trace α → Prop
  | unevaluated {here there : Iterate α} (fault : Fault α) : P.OnIterate here there →
      OnTrace (.unevaluated here fault) (.unevaluated there fault)
  | stuck {here there : Iterate α} (error : α) (block : Option (Block α)) (fault : Fault α) :
      P.OnIterate here there →
      OnTrace (.stuck here error block fault) (.stuck there error (block.map P.onBlock) fault)
  | settled {here there : Iterate α} (error : α) : P.OnIterate here there →
      OnTrace (.settled here error) (.settled there error)
  | exhausted {here there : Iterate α} (error : α) : P.OnIterate here there →
      OnTrace (.exhausted here error) (.exhausted there error)
  | moved {here there : Iterate α} {rest rest' : Trace α} (error : α) (block : Option (Block α)) :
      P.OnIterate here there → OnTrace rest rest' →
      OnTrace (.moved here error block rest) (.moved there error (block.map P.onBlock) rest')

namespace OnTrace

variable {P} {t u : Trace α}

theorem visits_eq (h : P.OnTrace t u) :
    u.visits = t.visits.map fun visit => (P.onVector visit.1, visit.2) := by
  induction h with
  | unevaluated fault hhere => rfl
  | stuck error block fault hhere => simp [Trace.visits, hhere.point]
  | settled error hhere => simp [Trace.visits, hhere.point]
  | exhausted error hhere => simp [Trace.visits, hhere.point]
  | moved error block hhere _ ih => simp [Trace.visits, hhere.point, ih]

theorem points_eq (h : P.OnTrace t u) : u.points = t.points.map P.onVector := by
  induction h with
  | unevaluated fault hhere => simp [Trace.points, Trace.iterates, hhere.point]
  | stuck error block fault hhere => simp [Trace.points, Trace.iterates, hhere.point]
  | settled error hhere => simp [Trace.points, Trace.iterates, hhere.point]
  | exhausted error hhere => simp [Trace.points, Trace.iterates, hhere.point]
  | moved error block hhere _ ih =>
    simp only [Trace.points, Trace.iterates, List.map_cons, hhere.point] at ih ⊢
    rw [ih]

theorem fault?_eq (h : P.OnTrace t u) : u.fault? = t.fault? := by
  induction h with
  | moved error block hhere _ ih => exact ih
  | _ => rfl

theorem isSettled_eq (h : P.OnTrace t u) : u.isSettled = t.isSettled := by
  induction h with
  | moved error block hhere _ ih => exact ih
  | _ => rfl

theorem final (h : P.OnTrace t u) : P.OnIterate t.final u.final := by
  induction h with
  | moved error block hhere _ ih => exact ih
  | _ => assumption

theorem length_of_mem_points (h : P.OnTrace t u) : ∀ x ∈ t.points, x.length = n := by
  induction h with
  | moved error block hhere _ ih =>
    intro x hx
    rcases List.mem_cons.mp hx with rfl | hx
    · exact hhere.length_eq
    · exact ih x hx
  | _ =>
    rename_i hhere
    intro x hx
    rw [List.mem_singleton.mp hx]
    exact hhere.length_eq

end OnTrace

variable [LinearOrder α]

/-! ## Clamping -/

variable {P} {here there : Iterate α}

theorem OnIterate.moveTo (h : P.OnIterate here there) {b : Bound α} (hb : b.index < n) :
    P.OnIterate ⟨here.point.set b.index b.value, here.active.insert b⟩
      ⟨there.point.set (P.onBound b).index (P.onBound b).value,
        there.active.insert (P.onBound b)⟩ where
  length_eq := by simpa using h.length_eq
  inRange c hc := by
    rcases (ActiveSet.mem_insert _ _ _).mp hc with rfl | hc
    · exact hb
    · exact h.inRange c hc
  point := by
    rw [h.point, P.onVector_set h.length_eq]
    rfl
  active := h.active.insert b

theorem OnIterate.clampTo (h : P.OnIterate here there) {b : Bound α} (hb : b.index < n) :
    P.OnIterate (here.clampTo b) (there.clampTo (P.onBound b)) := by
  have hget : there.point[(P.onBound b).index]? =
      here.point[b.index]?.map (turn (P.flips b.index)) := by
    rw [h.point]
    exact P.getElem?_onVector h.length_eq b.index
  unfold Iterate.clampTo
  rw [hget]
  rcases here.point[b.index]? with _ | v
  · exact h
  · simp only [Option.map_some, P.gap_onBound]
    split
    · exact h.moveTo hb
    · exact h

theorem onIterate_clamp {bounds : List (Bound α)} (hbounds : ∀ b ∈ bounds, b.index < n)
    {x : List α} (hx : x.length = n) :
    P.OnIterate (clamp bounds x) (clamp (bounds.map P.onBound) (P.onVector x)) := by
  have hall : ∀ {here there : Iterate α}, P.OnIterate here there →
      P.OnIterate (bounds.foldl Iterate.clampTo here)
        ((bounds.map P.onBound).foldl Iterate.clampTo there) := by
    induction bounds with
    | nil => exact fun h => h
    | cons b bounds ih =>
      rw [List.forall_mem_cons] at hbounds
      exact fun h => ih hbounds.2 (h.clampTo hbounds.1)
  refine hall ⟨hx, ?_, rfl, ?_⟩
  · intro b hb
    cases hb
  · intro b
    exact iff_of_false List.not_mem_nil List.not_mem_nil

/-! ## Stopping -/

theorem exists_coordinate {β : Type} {x : List β} {i : Nat} (h : i < x.length) :
    ∃ v, coordinate x i = .ok v := by
  unfold coordinate
  rw [List.getElem?_eq_getElem h]
  exact ⟨_, rfl⟩

variable [IsStrictOrderedRing α] {x delta : List α} {active active' : ActiveSet α}
  {bounds : List (Bound α)}

theorem closerBlock_onVector (hx : x.length = n) (hdelta : delta.length = n)
    (h : P.OnActive active active') {b : Bound α} (hb : b.index < n) (closest : Option (Block α)) :
    closerBlock (P.onVector x) (P.onVector delta) active' (closest.map P.onBlock) (P.onBound b) =
      (closerBlock x delta active closest b).map (Option.map P.onBlock) := by
  obtain ⟨v, hv⟩ := exists_coordinate (x := x) (by omega : b.index < x.length)
  obtain ⟨step, hstep⟩ := exists_coordinate (x := delta) (by omega : b.index < delta.length)
  unfold closerBlock
  rw [h.contains_eq, P.coordinate_onVector b hdelta hb, P.coordinate_onVector b hx hb, hv, hstep]
  simp only [Except.map, bind, Except.bind, Scalar.abs_eq, abs_turn, P.crossing?_onBound,
    P.limit_onBlock, pure, Except.pure]
  split
  · rfl
  split
  · rfl
  rcases b.crossing? v step with _ | scale
  · rfl
  · dsimp only
    split <;> rfl

theorem closestBlock_onVector (hbounds : ∀ b ∈ bounds, b.index < n) (hx : x.length = n)
    (hdelta : delta.length = n) (h : P.OnActive active active') :
    closestBlock (bounds.map P.onBound) (P.onVector x) (P.onVector delta) active' =
      (closestBlock bounds x delta active).map (Option.map P.onBlock) := by
  have hall : ∀ closest : Option (Block α),
      (bounds.map P.onBound).foldlM (closerBlock (P.onVector x) (P.onVector delta) active')
          (closest.map P.onBlock) =
        (bounds.foldlM (closerBlock x delta active) closest).map (Option.map P.onBlock) := by
    induction bounds with
    | nil => exact fun closest => rfl
    | cons b bounds ih =>
      rw [List.forall_mem_cons] at hbounds
      intro closest
      rw [List.map_cons, List.foldlM_cons, List.foldlM_cons,
        closerBlock_onVector hx hdelta h hbounds.1]
      rcases closerBlock x delta active closest b with fault | closer
      · rfl
      · exact ih hbounds.2 closer
  exact hall none

/-! ## Landing -/

omit [IsStrictOrderedRing α] in
theorem OnIterate.pin (h : P.OnIterate here there) {block : Option (Block α)}
    (hblock : ∀ stop, block = some stop → stop.bound.index < n) :
    P.OnIterate (here.pin block) (there.pin (block.map P.onBlock)) := by
  cases block with
  | none => exact h
  | some stop => exact h.moveTo (hblock stop rfl)

omit [IsStrictOrderedRing α] in
theorem OnIterate.land (h : P.OnIterate here there) (hdelta : delta.length = n)
    {block : Option (Block α)} (hblock : ∀ stop, block = some stop → stop.bound.index < n) :
    ∃ next next', here.land delta block = .ok next ∧
      there.land (P.onVector delta) (block.map P.onBlock) = .ok next' ∧ P.OnIterate next next' := by
  have hstep : (shorten delta block).length = n := by rw [length_shorten, hdelta]
  have hmoved : P.OnIterate ⟨List.zipWith (· + ·) here.point (shorten delta block), here.active⟩
      ⟨List.zipWith (· + ·) there.point (P.onVector (shorten delta block)), there.active⟩ := by
    refine ⟨by simp [h.length_eq, hstep], h.inRange, ?_, h.active⟩
    rw [h.point, P.onVector_add h.length_eq hstep]
  refine ⟨_, _, ?_, ?_, hmoved.pin hblock⟩
  · unfold Iterate.land
    rw [Vec.zipStretched?_of_length_eq _ (by rw [h.length_eq, hstep])]
  · unfold Iterate.land
    rw [P.shorten_onBlock hdelta, Vec.zipStretched?_of_length_eq _
      (by rw [h.point, P.length_onVector, P.length_onVector, h.length_eq, hstep])]

/-! ## One step of both solvers -/

variable (P) in
/-- The solver of the relabelled problem under the relabelled bounds. -/
def onSolver (evaluate : Tensor α → DenseState α → Except (Fault α) (DenseState α))
    [Scalar α] (solver : Solver α (DenseState α)) : Solver α (DenseState α) :=
  { solver with
    problem := .ofDense (P.onEvaluate evaluate)
    bounds := solver.bounds.map P.onBound }

variable (P) in
/-- Both steps fail for the same reason, or they lead to the same state and iterate, relabelled. -/
inductive OnAdvance : Advance α (DenseState α) → Advance α (DenseState α) → Prop
  | failed (block : Option (Block α)) (fault : Fault α) :
      OnAdvance ⟨block, .error fault⟩ ⟨block.map P.onBlock, .error fault⟩
  | landed {next next' : Iterate α} (block : Option (Block α)) (after : DenseState α) :
      P.OnIterate next next' →
      OnAdvance ⟨block, .ok (next, after)⟩ ⟨block.map P.onBlock, .ok (next', P.onState after)⟩

section Solver

variable [Scalar α] [ExactScalar α] {solver : Solver α (DenseState α)} {state : DenseState α}

theorem advance_onSolver (hproblem : solver.problem = .ofDense evaluate)
    (hdamping : 0 ≤ solver.damping) (hbounds : ∀ b ∈ solver.bounds, b.index < n)
    (hcols : state.jacobian.cols = n) (h : P.OnIterate here there) :
    P.OnAdvance (solver.advance here state)
      ((P.onSolver evaluate solver).advance there (P.onState state)) := by
  obtain ⟨hdelta, hkept⟩ := P.step_onState hcols hdamping h.inRange h.active
  unfold Solver.advance onSolver
  dsimp only
  rw [hproblem]
  dsimp only [Problem.ofDense]
  rw [hdelta, h.point]
  rcases hstep : (state.step solver.damping here.active).1 with fault | delta
  · exact .failed none fault
  obtain ⟨hlength, -, hsubset⟩ := DenseState.of_step_eq_ok hstep
  rw [hcols] at hlength
  dsimp only [Except.map]
  rw [closestBlock_onVector hbounds h.length_eq hlength hkept]
  rcases hblock : closestBlock solver.bounds here.point delta
    (state.step solver.damping here.active).2 with fault | block
  · exact .failed none fault
  have hstops : ∀ stop, block = some stop → stop.bound.index < n := fun stop hstop =>
    hbounds _ ((isClosest_closestBlock hblock).met stop hstop).1
  have hkeeps : P.OnIterate ⟨here.point, (state.step solver.damping here.active).2⟩
      ⟨P.onVector here.point, ((P.onState state).step solver.damping there.active).2⟩ :=
    ⟨h.length_eq, fun b hb => h.inRange b (hsubset b hb), rfl, hkept⟩
  obtain ⟨next, next', hland, hland', hnext⟩ := hkeeps.land hlength hstops
  dsimp only [Except.map]
  rw [hland, hland']
  exact .landed block state hnext

/-! ## Whole runs -/

omit [IsStrictOrderedRing α] [ExactScalar α] in
theorem errorAt_onVector (x : List α) (before : DenseState α) :
    (Problem.ofDense (P.onEvaluate evaluate)).errorAt (P.onVector x) (P.onState before) =
      ((Problem.ofDense evaluate).errorAt x before).map
        fun found => (found.1, P.onState found.2) := by
  unfold Problem.errorAt Problem.ofDense
  dsimp only
  rw [P.onEvaluate_onVector]
  rcases evaluate (.ofVector x) before with fault | found <;> rfl

theorem trace_onSolver (hproblem : solver.problem = .ofDense evaluate)
    (hdamping : 0 ≤ solver.damping) (hbounds : ∀ b ∈ solver.bounds, b.index < n)
    (hcols : ∀ x before state, x.length = n → evaluate (.ofVector x) before = .ok state →
      state.jacobian.cols = n) (steps : Nat) (h : P.OnIterate here there) (before : DenseState α) :
    P.OnTrace (solver.trace steps here before)
      ((P.onSolver evaluate solver).trace steps there (P.onState before)) := by
  have hproblem' : (P.onSolver evaluate solver).problem = .ofDense (P.onEvaluate evaluate) := rfl
  induction steps generalizing here there before with
  | zero =>
    unfold Solver.trace
    rw [hproblem, hproblem', h.point, errorAt_onVector]
    rcases (Problem.ofDense evaluate).errorAt here.point before with fault | ⟨error, found⟩
    · exact .unevaluated fault h
    · exact .exhausted error h
  | succ steps ih =>
    unfold Solver.trace
    rw [hproblem, hproblem', h.point, errorAt_onVector]
    rcases heval : (Problem.ofDense evaluate).errorAt here.point before with fault | ⟨error, found⟩
    · exact .unevaluated fault h
    dsimp only [Except.map]
    split
    · exact .settled error h
    have hfound := hcols _ _ _ h.length_eq (Problem.errorAt_eq_ok_iff.mp heval).1
    have hadvance := advance_onSolver hproblem hdamping hbounds hfound h
    generalize solver.advance here found = taken at hadvance ⊢
    generalize (P.onSolver evaluate solver).advance there (P.onState found) = taken' at hadvance ⊢
    cases hadvance with
    | failed block fault => exact .stuck error block fault h
    | landed block after hnext => exact .moved error block h (ih hnext after)

end Solver

end BoundedFit.Relabelling
