import BoundedFit.Solver.Log
import BoundedFit.Proofs.Clamp
import BoundedFit.Proofs.Descent
import BoundedFit.Proofs.Relabel.Trace

/-! # Results of a relabelled problem -/

namespace BoundedFit.Relabelling

variable {n : Nat} (P : Relabelling n) {α : Type} [Field α]

/-- The second result is the first one relabelled. The order of its active set may be another. -/
structure OnResult (result other : Result α) : Prop where
  solution : other.solution = P.onVector result.solution
  error : other.error = result.error
  errors : other.errors = result.errors
  bestErrors : other.bestErrors = result.bestErrors
  iterations : other.iterations = result.iterations
  status : other.status = result.status
  active : ∀ b, P.onBound b ∈ other.active ↔ b ∈ result.active

/-- Both fail for a reason of the same kind, or the second returns the relabelled result. -/
inductive OnOutcome : Except (Fault α) (Result α) → Except (Fault α) (Result α) → Prop
  | failed {fault fault' : Fault α} : fault'.kind = fault.kind →
      OnOutcome (.error fault) (.error fault')
  | returned {result other : Result α} : P.OnResult result other →
      OnOutcome (.ok result) (.ok other)

/-! ## Best points -/

section Best

variable [LinearOrder α] [Scalar α]

def onBest (best : Best α) : Best α := ⟨P.onVector best.point, best.error⟩

theorem update_onBest (best : Best α) (visit : List α × α) :
    (P.onBest best).update (P.onVector visit.1, visit.2) = P.onBest (best.update visit) := by
  unfold Best.update onBest
  dsimp only
  split <;> rfl

variable {P} {t u : Trace α}

theorem OnTrace.best_eq (h : P.OnTrace t u) (guess : List α) :
    Solver.best (P.onVector guess) u = P.onBest (Solver.best guess t) := by
  have hall : ∀ (visits : List (List α × α)) (best : Best α),
      (visits.map fun visit => (P.onVector visit.1, visit.2)).foldl Best.update (P.onBest best) =
        P.onBest (visits.foldl Best.update best) := by
    intro visits
    induction visits with
    | nil => exact fun best => rfl
    | cons visit visits ih =>
      intro best
      rw [List.map_cons, List.foldl_cons, List.foldl_cons, P.update_onBest, ih]
  unfold Solver.best
  rw [h.visits_eq]
  exact hall t.visits ⟨guess, none⟩

theorem OnTrace.summary (h : P.OnTrace t u) (guess : List α) {solver : Solver α (DenseState α)}
    {evaluate : Tensor α → DenseState α → Except (Fault α) (DenseState α)} :
    P.OnResult (solver.summary guess t)
      ((P.onSolver evaluate solver).summary (P.onVector guess) u) := by
  have hbest := h.best_eq guess
  have herrors : u.errors = t.errors := by
    unfold Trace.errors
    rw [h.visits_eq, List.map_map]
    rfl
  have hlength : u.visits.length = t.visits.length := by rw [h.visits_eq, List.length_map]
  unfold Solver.summary
  rw [hbest, herrors, hlength, h.isSettled_eq]
  exact ⟨rfl, rfl, rfl, rfl, rfl, rfl, h.final.active⟩

end Best

/-! ## Accepted points and bounds -/

section Check

variable [LinearOrder α] [IsStrictOrderedRing α] {bounds : List (Bound α)} {x : List α}

theorem accept_onBound (hx : x.length = n) (b : Bound α) :
    (P.onBound b).accept (P.onVector x) = .ok () ↔ b.accept x = .ok () := by
  have hget : (P.onVector x)[(P.onBound b).index]? = x[b.index]?.map (turn (P.flips b.index)) :=
    P.getElem?_onVector hx b.index
  have hvalue : |(P.onBound b).value| = |b.value| := abs_turn _ _
  rw [Bound.accept_eq_ok_iff, Bound.accept_eq_ok_iff, hget, hvalue]
  simp [P.gap_onBound]

theorem acceptAll_onBound (hx : x.length = n) :
    acceptAll (bounds.map P.onBound) (P.onVector x) = .ok () ↔ acceptAll bounds x = .ok () := by
  rw [acceptAll_eq_ok_iff, acceptAll_eq_ok_iff, List.forall_mem_map]
  exact forall₂_congr fun b _ => P.accept_onBound hx b

theorem consistent_onBound (h : Consistent bounds) : Consistent (bounds.map P.onBound) := by
  intro low hlow high hhigh hindex hlower hupper
  obtain ⟨b, hb, rfl⟩ := List.mem_map.mp hlow
  obtain ⟨c, hc, rfl⟩ := List.mem_map.mp hhigh
  have hplace : b.index = c.index := P.place.injective hindex
  unfold onBound at hlower hupper ⊢
  dsimp only at hlower hupper ⊢
  rw [← hplace] at hupper ⊢
  have hbside : b.side = Side.lower.turn (P.flips b.index) := by rw [← hlower, Side.turn_turn]
  have hcside : c.side = Side.upper.turn (P.flips b.index) := by rw [← hupper, Side.turn_turn]
  generalize P.flips b.index = flip at hbside hcside ⊢
  cases flip with
  | false => exact h b hb c hc hplace hbside hcside
  | true => exact neg_le_neg (h c hc b hb hplace.symm hcside hbside)

end Check

/-! ## Outcomes -/

section Outcome

variable [LinearOrder α] [IsStrictOrderedRing α] [Scalar α] {solver : Solver α (DenseState α)}
  {evaluate : Tensor α → DenseState α → Except (Fault α) (DenseState α)} {settings : Settings α}
  {bounds : List (Bound α)}

variable {P} in
theorem OnTrace.conclude {t u : Trace α} (h : P.OnTrace t u) {guess : List α}
    (hguess : guess.length = n) (hbounds : ∀ b ∈ solver.bounds, b.index < n) :
    P.OnOutcome (solver.conclude guess t)
      ((P.onSolver evaluate solver).conclude (P.onVector guess) u) := by
  have hbest : (Solver.best guess t).point.length = n := by
    rcases Solver.best_point guess t with hpoint | hpoint
    · rw [hpoint, hguess]
    · exact h.length_of_mem_points _ hpoint
  have haccept : acceptAll (P.onSolver evaluate solver).bounds
      (P.onVector (Solver.best guess t).point) = .ok () ↔
        acceptAll solver.bounds (Solver.best guess t).point = .ok () := P.acceptAll_onBound hbest
  have hlong : ∀ c ∈ solver.bounds.map P.onBound,
      c.index < (P.onVector (Solver.best guess t).point).length := by
    rw [P.length_onVector, hbest]
    exact P.index_lt_of_mem_map hbounds
  have hsummary : P.OnResult (solver.summary guess t)
      ((P.onSolver evaluate solver).summary (P.onVector guess) u) := h.summary guess
  unfold Solver.conclude
  rw [h.fault?_eq, h.best_eq]
  rcases t.fault? with _ | fault
  · unfold onBest
    dsimp only
    rcases hall : acceptAll solver.bounds (Solver.best guess t).point with fault | accepted
    · rcases hall' : acceptAll (P.onSolver evaluate solver).bounds
        (P.onVector (Solver.best guess t).point) with fault' | accepted'
      · refine .failed ?_
        rw [kind_acceptAll hlong hall', kind_acceptAll (by rwa [hbest]) hall]
      · rw [haccept.mp hall'] at hall
        cases hall
    · rw [haccept.mpr hall]
      exact .returned hsummary
  · exact .failed rfl

theorem make_onSolver (hmake : Solver.make (.ofDense evaluate) bounds settings = .ok solver) :
    Solver.make (.ofDense (P.onEvaluate evaluate)) (bounds.map P.onBound) settings =
      .ok (P.onSolver evaluate solver) := by
  obtain ⟨hcheck, -, -, rfl, -⟩ := Solver.of_make_eq_ok hmake
  have hconsistent := P.consistent_onBound (consistent_of_checkConsistent hcheck)
  exact Solver.make_of_make hmake (checkConsistent_of_consistent hconsistent)

omit [IsStrictOrderedRing α] in
theorem points_run {guess : Tensor α} {first : Iterate α} (h : solver.start guess = .ok first) :
    (solver.run guess).points = (solver.traceFrom first).points := by
  unfold Solver.run
  rw [h]

variable [ExactScalar α]

/-- Relabelling the coordinates commutes with solving. Faults are of the same kind. -/
theorem optimize_onSolver (hmake : Solver.make (.ofDense evaluate) bounds settings = .ok solver)
    (hcols : ∀ x before state, x.length = n → evaluate (.ofVector x) before = .ok state →
      state.jacobian.cols = n) {x : List α} (hx : x.length = n) :
    Solver.make (.ofDense (P.onEvaluate evaluate)) (bounds.map P.onBound) settings =
        .ok (P.onSolver evaluate solver) ∧
      ((P.onSolver evaluate solver).run (.ofVector (P.onVector x))).points =
        (solver.run (.ofVector x)).points.map P.onVector ∧
      P.OnOutcome (solver.optimize (.ofVector x))
        ((P.onSolver evaluate solver).optimize (.ofVector (P.onVector x))) := by
  refine ⟨P.make_onSolver hmake, ?_⟩
  obtain ⟨-, hdamping, hproblem, rfl, hdamped, -⟩ := Solver.of_make_eq_ok hmake
  by_cases hbounds : ∀ b ∈ solver.bounds, b.index < n
  · have hstart : solver.start (.ofVector x) = .ok (clamp solver.bounds x) :=
      Solver.start_ofVector (by rwa [hx])
    have hstart' : (P.onSolver evaluate solver).start (.ofVector (P.onVector x)) =
        .ok (clamp (solver.bounds.map P.onBound) (P.onVector x)) := by
      apply Solver.start_ofVector
      rw [P.length_onVector, hx]
      exact P.index_lt_of_mem_map hbounds
    have hclamp := onIterate_clamp (P := P) hbounds hx
    have hfresh : solver.problem.fresh = DenseState.empty := by rw [hproblem]; rfl
    have htrace : P.OnTrace (solver.traceFrom (clamp solver.bounds x))
        ((P.onSolver evaluate solver).traceFrom
          (clamp (solver.bounds.map P.onBound) (P.onVector x))) := by
      unfold Solver.traceFrom
      rw [hfresh]
      exact trace_onSolver hproblem (hdamped ▸ hdamping) hbounds hcols _ hclamp .empty
    constructor
    · rw [points_run hstart, points_run hstart']
      exact htrace.points_eq
    · rw [Solver.optimize_of_start hstart, Solver.optimize_of_start hstart', hclamp.point]
      exact htrace.conclude hclamp.length_eq hbounds
  -- Both guesses lack a bounded coordinate.
  · push Not at hbounds
    obtain ⟨b, hb, hbeyond⟩ := hbounds
    obtain ⟨fault, hrefused, hkind⟩ :=
      Solver.start_of_short (Tensor.toVector?_ofVector x) ⟨b, hb, by omega⟩
    have hshort : ∃ c ∈ (P.onSolver evaluate solver).bounds, (P.onVector x).length ≤ c.index := by
      refine ⟨P.onBound b, List.mem_map_of_mem hb, ?_⟩
      rw [P.length_onVector, hx]
      exact not_lt.mp ((P.place_lt_iff b.index).not.mpr (by omega))
    obtain ⟨fault', hrefused', hkind'⟩ :=
      Solver.start_of_short (Tensor.toVector?_ofVector (P.onVector x)) hshort
    constructor
    · unfold Solver.run
      rw [hrefused, hrefused']
      rfl
    · unfold Solver.optimize
      rw [hrefused, hrefused']
      exact .failed (hkind'.trans hkind.symm)

end Outcome

/-- The two coordinates change places, and the first one is negated. -/
def quarterTurn : Relabelling 2 where
  place := Equiv.swap 0 1
  flips i := i == 0
  place_lt_iff i := by
    rw [Equiv.swap_apply_def]
    split_ifs <;> omega

theorem optimize_quarterTurn :
    Solver.make (.ofDense Solver.nearest.evaluate) [⟨0, 1, .lower⟩] ⟨0, 1, false⟩ =
        .ok Solver.nearestFromAbove ∧
      (quarterTurn.onSolver Solver.nearest.evaluate Solver.nearestFromAbove).bounds =
        [⟨1, -1, .upper⟩] ∧
      ((quarterTurn.onSolver Solver.nearest.evaluate Solver.nearestFromAbove).run
        (.ofVector [0, -3])).points = [[0, -3], [4 / 3, -1]] ∧
      quarterTurn.OnOutcome (Solver.nearestFromAbove.optimize (.ofVector [3, 0]))
        ((quarterTurn.onSolver Solver.nearest.evaluate Solver.nearestFromAbove).optimize
          (.ofVector [0, -3])) := by
  have hmake : Solver.make (.ofDense Solver.nearest.evaluate) [⟨0, 1, .lower⟩] ⟨0, 1, false⟩ =
      .ok Solver.nearestFromAbove := by
    have hcheck : checkConsistent [(⟨0, 1, .lower⟩ : Bound ℝ)] = .ok () := by
      apply checkConsistent_of_consistent
      intro low hlow high hhigh _ _ hupper
      rw [List.mem_singleton.mp hhigh] at hupper
      cases hupper
    exact Solver.make_of_isOk _ (by rw [hcheck]; rfl) le_rfl (by decide)
  have hcols : ∀ x before state, x.length = 2 →
      Solver.nearest.evaluate (.ofVector x) before = .ok state → state.jacobian.cols = 2 :=
    fun x before state hx heval => (Solver.nearest.hasColumns x before state heval).trans hx
  have hstart : Solver.nearestFromAbove.start (.ofVector [3, 0]) = .ok ⟨[3, 0], .empty⟩ := by
    rw [Solver.start_ofVector (by simp [Solver.nearestFromAbove])]
    norm_num [clamp, Solver.nearestFromAbove, Iterate.clampTo, Bound.gap, Side.orient]
  have hpoints : (Solver.nearestFromAbove.run (.ofVector [3, 0])).points =
      [[3, 0], [1, 4 / 3]] := by
    rw [points_run hstart, Solver.traceFrom_nearestFromAbove]
    rfl
  have hturned : ∀ u v : ℝ, quarterTurn.onVector [u, v] = [v, -u] := by
    intro u v
    simp [onVector, quarterTurn, Vec.ofFn, turn, List.range_succ]
  obtain ⟨-, hrun, houtcome⟩ :=
    quarterTurn.optimize_onSolver hmake hcols (x := [3, 0]) rfl
  rw [hpoints, List.map_cons, List.map_cons, List.map_nil, hturned, hturned] at hrun
  rw [hturned] at houtcome
  refine ⟨hmake, ?_, hrun, houtcome⟩
  simp [onSolver, Solver.nearestFromAbove, onBound, quarterTurn, turn, Side.turn]

end BoundedFit.Relabelling
