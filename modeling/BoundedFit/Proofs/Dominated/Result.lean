import BoundedFit.Proofs.Dominated.Trace
import BoundedFit.Proofs.Run.Tight

/-! # Results without a dominated bound -/

namespace BoundedFit

/-! ## Outcomes that agree -/

/-- The results are the same, up to their active sets. -/
structure Result.Agrees {α : Type} (result other : Result α) : Prop where
  solution : result.solution = other.solution
  error : result.error = other.error
  errors : result.errors = other.errors
  bestErrors : result.bestErrors = other.bestErrors
  iterations : result.iterations = other.iterations
  status : result.status = other.status

/-- Both fail for a reason of the same kind, or both return, and their results agree. -/
inductive SameOutcome {α : Type} :
    Except (Fault α) (Result α) → Except (Fault α) (Result α) → Prop
  | failed {fault fault' : Fault α} : fault.kind = fault'.kind →
      SameOutcome (.error fault) (.error fault')
  | returned {result other : Result α} : result.Agrees other → SameOutcome (.ok result) (.ok other)

/-- The same bounds, up to `c`. -/
def SameExcept {α : Type} (c : Bound α) (bounds others : List (Bound α)) : Prop :=
  ∀ b, b ≠ c → (b ∈ bounds ↔ b ∈ others)

section Accept

variable {α : Type} [Field α] [LinearOrder α] [IsStrictOrderedRing α] {c d : Bound α}
  {before after : List (Bound α)} {x : List α}

theorem Bound.accept_of_tighter (hindex : d.index = c.index) (hside : d.side = c.side)
    (htighter : 0 < c.gap d.value) (h : d.accept x = .ok ()) : c.accept x = .ok () := by
  rw [Bound.accept_eq_ok_iff] at h ⊢
  obtain ⟨v, hv, hgap⟩ := h
  refine ⟨v, hindex ▸ hv, ?_⟩
  rw [Bound.gap_of_same_side hside] at hgap
  have hdistance : |d.value| ≤ |c.value| + c.gap d.value := by
    have habs : |d.value - c.value| = c.gap d.value := by
      rw [← abs_of_pos htighter, Bound.gap, Side.abs_orient]
    linarith [abs_sub_abs_le_abs_sub d.value c.value]
  have htolerance : (feasibilityTolerance : α) ≤ 1 := by
    unfold feasibilityTolerance
    norm_num
  have hsmall : feasibilityTolerance * c.gap d.value ≤ c.gap d.value :=
    mul_le_of_le_one_left htighter.le htolerance
  have hlarge := mul_le_mul_of_nonneg_left hdistance (feasibilityTolerance_pos (α := α)).le
  linarith

theorem acceptAll_of_dominated (hdominated : c.DominatedBy before after) :
    acceptAll (before ++ c :: after) x = .ok () ↔ acceptAll (before ++ after) x = .ok () := by
  rw [acceptAll_eq_ok_iff, acceptAll_eq_ok_iff]
  refine ⟨fun h b hb => h b (mem_with c hb), fun h b hb => ?_⟩
  have hc : c.accept x = .ok () := by
    rcases hdominated with ⟨d, hd, hindex, hside, htighter⟩ | hc
    · exact Bound.accept_of_tighter hindex hside htighter (h d hd)
    · exact h c (List.mem_append_left _ hc)
  rw [List.mem_append, List.mem_cons] at hb
  rcases hb with hb | rfl | hb
  · exact h b (List.mem_append_left _ hb)
  · exact hc
  · exact h b (List.mem_append_right _ hb)

end Accept

namespace Solver

variable {α : Type} [Field α] [LinearOrder α] [IsStrictOrderedRing α] [Scalar α]
  {solver : Solver α (DenseState α)} {shared : Bound α → Prop} {c : Bound α}
  {before after : List (Bound α)}

omit [IsStrictOrderedRing α] in
theorem best_eq_of_alike {t u : Trace α} (h : t.Alike shared u) (guess : List α) :
    best guess t = best guess u := by
  unfold best
  rw [h.visits_eq]

omit [IsStrictOrderedRing α] in
theorem summary_agrees {t u : Trace α} (h : t.Alike shared u) (guess : List α)
    (bounds : List (Bound α)) :
    (solver.summary guess t).Agrees ((solver.withBounds bounds).summary guess u) := by
  have hbest := best_eq_of_alike h guess
  have herrors : t.errors = u.errors := congrArg (List.map Prod.snd) h.visits_eq
  unfold summary
  rw [hbest, herrors, h.isSettled_eq, h.visits_eq]
  exact ⟨rfl, rfl, rfl, rfl, rfl, rfl⟩

theorem conclude_sameOutcome (hbounds : solver.bounds = before ++ c :: after)
    (hdominated : c.DominatedBy before after) {t u : Trace α} (h : t.Alike shared u)
    {guess : List α} (hlong : ∀ b ∈ before ++ c :: after, b.index < (best guess t).point.length) :
    SameOutcome (solver.conclude guess t)
      ((solver.withBounds (before ++ after)).conclude guess u) := by
  unfold conclude withBounds
  dsimp only
  rw [← h.fault?_eq, ← best_eq_of_alike h guess, hbounds]
  rcases t.fault? with _ | fault
  · dsimp only
    have haccept := acceptAll_of_dominated (x := (best guess t).point) hdominated
    rcases hall : acceptAll (before ++ c :: after) (best guess t).point with fault | u
    · rcases hfewer : acceptAll (before ++ after) (best guess t).point with fault' | u'
      · refine .failed ?_
        rw [kind_acceptAll hlong hall, kind_acceptAll (fun b hb => hlong b (mem_with c hb)) hfewer]
      · rw [haccept.mpr hfewer] at hall
        cases hall
    · rw [haccept.mp hall]
      exact .returned (summary_agrees h guess _)
  · exact .failed rfl

/-! ## Both solvers from one guess -/

variable {evaluate : Tensor α → DenseState α → Except (Fault α) (DenseState α)}
  {settings : Settings α}

omit [IsStrictOrderedRing α] [Scalar α] in
theorem make_of_fewer {problem : Problem α (DenseState α)} {bounds fewer : List (Bound α)}
    (hmake : make problem bounds settings = .ok solver) (hfewer : ∀ b ∈ fewer, b ∈ bounds) :
    make problem fewer settings = .ok (solver.withBounds fewer) := by
  obtain ⟨hcheck, -, hproblem, -⟩ := of_make_eq_ok hmake
  have hcheck' : checkConsistent fewer = .ok () :=
    checkConsistent_of_consistent ((consistent_of_checkConsistent hcheck).mono hfewer)
  rw [← hproblem] at hmake ⊢
  exact make_of_make hmake hcheck'

variable {x : List α}

theorem traceFrom_alike (hproblem : solver.problem = .ofDense evaluate)
    (hbounds : solver.bounds = before ++ c :: after) (hdominated : c.DominatedBy before after)
    (hcons : Consistent (before ++ c :: after)) (hlong : ∀ b ∈ before ++ c :: after, b.index < x.length)
    (hsigned : ∀ b ∈ solver.bounds, Word.isSigned b.index = true) (hshared : ¬ shared c)
    (hfollowed : (∀ d, ¬ shared d) ∨ Followed before c after x) :
    (solver.traceFrom (clamp (before ++ c :: after) x)).Alike shared
      ((solver.withBounds (before ++ after)).traceFrom (clamp (before ++ after) x)) := by
  have hstart := alike_clamp hcons hlong hdominated hshared hfollowed
  have hspans := spans_clamp hlong
  unfold traceFrom
  rw [← hbounds] at hspans hstart ⊢
  exact trace_alike hproblem hbounds hdominated hsigned _ hspans hstart _

omit [IsStrictOrderedRing α] [Scalar α] in
theorem start_of_dominated (hbounds : solver.bounds = before ++ c :: after)
    (hdominated : c.DominatedBy before after) (guess : Tensor α) :
    (∃ fault fault', solver.start guess = .error fault ∧
        (solver.withBounds (before ++ after)).start guess = .error fault' ∧
        fault.kind = fault'.kind) ∨
      ∃ x, guess.toVector? = some x ∧ (∀ b ∈ before ++ c :: after, b.index < x.length) ∧
        solver.start guess = .ok (clamp (before ++ c :: after) x) ∧
        (solver.withBounds (before ++ after)).start guess = .ok (clamp (before ++ after) x) := by
  rcases hguess : guess.toVector? with _ | x
  · refine Or.inl ⟨.guessRank, .guessRank, ?_, ?_, rfl⟩
    · unfold start
      rw [hguess]
    · unfold start
      rw [hguess]
  by_cases hlong : ∀ b ∈ before ++ c :: after, b.index < x.length
  · refine Or.inr ⟨x, rfl, hlong, ?_, ?_⟩
    · rw [← hbounds] at hlong ⊢
      exact start_of_long hguess hlong
    · exact start_of_long hguess fun b hb => hlong b (mem_with c hb)
  · push Not at hlong
    obtain ⟨b, hb, hshort⟩ := hlong
    obtain ⟨d, hd, hindex⟩ := hdominated.mem_of_mem ⟨b, hb, rfl⟩
    have hshort' : ∃ d ∈ (solver.withBounds (before ++ after)).bounds, x.length ≤ d.index :=
      ⟨d, hd, hindex ▸ hshort⟩
    obtain ⟨fault, hrefused, hkind⟩ := start_of_short hguess ⟨b, hbounds ▸ hb, hshort⟩
    obtain ⟨fault', hrefused', hkind'⟩ := start_of_short hguess hshort'
    exact Or.inl ⟨fault, fault', hrefused, hrefused', hkind.trans hkind'.symm⟩

/-- The points that a run from the guess hands to the problem. A refused guess is not evaluated. -/
def evaluatedPoints (solver : Solver α (DenseState α)) (guess : Tensor α) : List (List α) :=
  match solver.start guess with
  | .error _ => []
  | .ok first => (solver.traceFrom first).points

/-- The active sets of two runs are the same up to `c`, at every iterate and in the result. -/
structure SameActiveExcept (c : Bound α) (solver other : Solver α (DenseState α)) (guess : Tensor α)
    (first first' : Iterate α) : Prop where
  iterates : List.Forall₂ (fun here there => SameExcept c here.active.members there.active.members)
    (solver.traceFrom first).iterates (other.traceFrom first').iterates
  results : ∀ result result', solver.optimize guess = .ok result →
    other.optimize guess = .ok result' → SameExcept c result.active result'.active

theorem sameActiveExcept_iff (hproblem : solver.problem = .ofDense evaluate)
    (hbounds : solver.bounds = before ++ c :: after) (hdominated : c.DominatedBy before after)
    (hcons : Consistent (before ++ c :: after)) (hlong : ∀ b ∈ before ++ c :: after, b.index < x.length)
    (hsigned : ∀ b ∈ solver.bounds, Word.isSigned b.index = true) {guess : Tensor α}
    (hstart : solver.start guess = .ok (clamp (before ++ c :: after) x))
    (hstart' : (solver.withBounds (before ++ after)).start guess = .ok (clamp (before ++ after) x)) :
    SameActiveExcept c solver (solver.withBounds (before ++ after)) guess
        (clamp (before ++ c :: after) x) (clamp (before ++ after) x) ↔
      Followed before c after x := by
  constructor
  · rintro ⟨hiterates, -⟩
    obtain ⟨later, hlater⟩ := exists_iterates_traceFrom solver (clamp (before ++ c :: after) x)
    obtain ⟨later', hlater'⟩ :=
      exists_iterates_traceFrom (solver.withBounds (before ++ after)) (clamp (before ++ after) x)
    rw [hlater, hlater'] at hiterates
    rcases hiterates with _ | ⟨hfirst, -⟩
    exact followed_of_agree hcons hlong hfirst
  · intro hfollowed
    have halike : (solver.traceFrom (clamp (before ++ c :: after) x)).Alike (· ≠ c)
        ((solver.withBounds (before ++ after)).traceFrom (clamp (before ++ after) x)) :=
      traceFrom_alike hproblem hbounds hdominated hcons hlong hsigned (not_not.mpr rfl)
        (Or.inr hfollowed)
    constructor
    case iterates => exact halike.forall₂_iterates.imp fun here there h => h.active.agree
    case results =>
      intro result result' hresult hresult'
      rw [active_of_optimize hstart hresult, active_of_optimize hstart' hresult']
      exact halike.final.active.agree

/-- Leaving out a dominated bound changes neither the evaluated points nor the outcome, and the active
sets only where the clamp skips a looser bound for it. The length of an array is a word. -/
theorem optimize_without_dominated
    (hmake : make (.ofDense evaluate) (before ++ c :: after) settings = .ok solver)
    (hdominated : c.DominatedBy before after) (guess : Tensor α)
    (hword : ∀ x, guess.toVector? = some x → Word.isSigned x.length = true) :
    make (.ofDense evaluate) (before ++ after) settings =
        .ok (solver.withBounds (before ++ after)) ∧
      solver.evaluatedPoints guess = (solver.withBounds (before ++ after)).evaluatedPoints guess ∧
      SameOutcome (solver.optimize guess) ((solver.withBounds (before ++ after)).optimize guess) ∧
      ∀ x, guess.toVector? = some x → (∀ b ∈ before ++ c :: after, b.index < x.length) →
        (SameActiveExcept c solver (solver.withBounds (before ++ after)) guess
            (clamp (before ++ c :: after) x) (clamp (before ++ after) x) ↔
          Followed before c after x) := by
  obtain ⟨hcheck, -, hproblem, hbounds, -, -⟩ := of_make_eq_ok hmake
  have hcons := consistent_of_checkConsistent hcheck
  refine ⟨make_of_fewer hmake fun b hb => mem_with c hb, ?_⟩
  rcases start_of_dominated hbounds hdominated guess with
    ⟨fault, fault', hrefused, hrefused', hkind⟩ | ⟨x, hguess, hlong, hstart, hstart'⟩
  · refine ⟨?_, ?_, ?_⟩
    · unfold evaluatedPoints
      rw [hrefused, hrefused']
    · unfold optimize
      rw [hrefused, hrefused']
      exact .failed hkind
    · -- A guess that has all bounded coordinates is not refused.
      intro x hguess hlong
      rw [← hbounds] at hlong
      rw [start_of_long hguess hlong] at hrefused
      cases hrefused
  have hsigned : ∀ b ∈ solver.bounds, Word.isSigned b.index = true := by
    rw [hbounds]
    exact fun b hb => Word.isSigned_of_lt (hlong b hb) (hword x hguess)
  have halike : (solver.traceFrom (clamp (before ++ c :: after) x)).Alike (fun _ => False)
      ((solver.withBounds (before ++ after)).traceFrom (clamp (before ++ after) x)) :=
    traceFrom_alike hproblem hbounds hdominated hcons hlong hsigned not_false
      (Or.inl fun _ => not_false)
  refine ⟨?_, ?_, ?_⟩
  · unfold evaluatedPoints
    rw [hstart, hstart']
    exact halike.points_eq
  · have hpoint : (clamp (before ++ c :: after) x).point = (clamp (before ++ after) x).point :=
      point_clamp_of_dominated hcons hlong hdominated
    rw [optimize_of_start hstart, optimize_of_start hstart', ← hpoint]
    apply conclude_sameOutcome hbounds hdominated halike
    rw [← hbounds] at hlong ⊢
    exact fun b hb => lt_length_best hproblem hsigned (spans_clamp hlong) hb
  · intro y hguess' _
    rw [hguess] at hguess'
    obtain rfl := Option.some.inj hguess'
    exact sameActiveExcept_iff hproblem hbounds hdominated hcons hlong hsigned hstart hstart'

/-! ## A bound that is skipped -/

/-- The coordinate is at least this. -/
def atLeast (v : ℚ) : Bound ℚ := ⟨0, v, .lower⟩

theorem atLeast_dominatedBy {u v : ℚ} (h : u < v) {before after : List (Bound ℚ)}
    (hv : atLeast v ∈ before ++ after) : (atLeast u).DominatedBy before after :=
  Or.inl ⟨atLeast v, hv, rfl, rfl, sub_pos.mpr h⟩

def approach (bounds : List (Bound ℚ)) : Solver ℚ (DenseState ℚ) :=
  ⟨distance.toProblem, bounds, 1, 5, false⟩

theorem sameActive_of_increasing :
    Followed [atLeast 0] (atLeast 1) [atLeast 2] [-1] ∧
      (approach [atLeast 0, atLeast 1, atLeast 2]).evaluatedPoints (.ofVector [-1]) =
        (approach [atLeast 0, atLeast 2]).evaluatedPoints (.ofVector [-1]) ∧
      SameOutcome ((approach [atLeast 0, atLeast 1, atLeast 2]).optimize (.ofVector [-1]))
        ((approach [atLeast 0, atLeast 2]).optimize (.ofVector [-1])) ∧
      SameActiveExcept (atLeast 1) (approach [atLeast 0, atLeast 1, atLeast 2])
        (approach [atLeast 0, atLeast 2]) (.ofVector [-1])
        (clamp [atLeast 0, atLeast 1, atLeast 2] [-1]) (clamp [atLeast 0, atLeast 2] [-1]) := by
  have hmake : make (.ofDense distance.evaluate) ([atLeast 0] ++ atLeast 1 :: [atLeast 2])
      ⟨1, 5, false⟩ = .ok (approach [atLeast 0, atLeast 1, atLeast 2]) :=
    make_of_isOk _ (by decide +kernel) (by decide) (by decide)
  have hdominated : (atLeast 1).DominatedBy [atLeast 0] [atLeast 2] :=
    atLeast_dominatedBy one_lt_two (by simp)
  have hword : ∀ x, (Tensor.ofVector [(-1 : ℚ)]).toVector? = some x →
      Word.isSigned x.length = true := by
    intro x hx
    rw [Tensor.toVector?_ofVector] at hx
    obtain rfl := Option.some.inj hx
    decide
  have hfollowed : Followed [atLeast 0] (atLeast 1) [atLeast 2] [-1] := by decide +kernel
  have hlong : ∀ b ∈ [atLeast 0] ++ atLeast 1 :: [atLeast 2], b.index < [(-1 : ℚ)].length := by decide
  obtain ⟨-, hpoints, houtcome, hactive⟩ :=
    optimize_without_dominated hmake hdominated (.ofVector [-1]) hword
  exact ⟨hfollowed, hpoints, houtcome,
    (hactive [-1] (Tensor.toVector?_ofVector _) hlong).mpr hfollowed⟩

/-- From -1, the clamp moves onto 1 first and skips 0. Without the bound 1 it moves onto 0 first, and
pins it. -/
theorem not_sameActive_of_skipped :
    make (.ofDense distance.evaluate) [atLeast 1, atLeast 0, atLeast 2] ⟨1, 0, false⟩ =
        .ok (clampOnly [atLeast 1, atLeast 0, atLeast 2]) ∧
      make (.ofDense distance.evaluate) [atLeast 0, atLeast 2] ⟨1, 0, false⟩ =
        .ok (clampOnly [atLeast 0, atLeast 2]) ∧
      (atLeast 1).DominatedBy [] [atLeast 0, atLeast 2] ∧
      ∃ result other, (clampOnly [atLeast 1, atLeast 0, atLeast 2]).optimize (.ofVector [-1]) =
          .ok result ∧
        (clampOnly [atLeast 0, atLeast 2]).optimize (.ofVector [-1]) = .ok other ∧
        result.active.map Bound.value = [1, 2] ∧ other.active.map Bound.value = [0, 2] ∧
        ¬ SameExcept (atLeast 1) result.active other.active := by
  have hrun : ((clampOnly [atLeast 1, atLeast 0, atLeast 2]).optimize (.ofVector [-1])).toOption.map
      (fun result => result.active.map Bound.value) = some [1, 2] := by decide +kernel
  have hrun' : ((clampOnly [atLeast 0, atLeast 2]).optimize (.ofVector [-1])).toOption.map
      (fun result => result.active.map Bound.value) = some [0, 2] := by decide +kernel
  refine ⟨make_of_isOk _ (by decide +kernel) (by decide) (by decide),
    make_of_isOk _ (by decide +kernel) (by decide) (by decide),
    atLeast_dominatedBy one_lt_two (by simp), ?_⟩
  rcases hresult : (clampOnly [atLeast 1, atLeast 0, atLeast 2]).optimize (.ofVector [-1])
    with fault | result
  · rw [hresult] at hrun
    cases hrun
  rcases hother : (clampOnly [atLeast 0, atLeast 2]).optimize (.ofVector [-1]) with fault | other
  · rw [hother] at hrun'
    cases hrun'
  rw [hresult] at hrun
  rw [hother] at hrun'
  have hvalues : result.active.map Bound.value = [1, 2] := Option.some.inj hrun
  have hvalues' : other.active.map Bound.value = [0, 2] := Option.some.inj hrun'
  refine ⟨result, other, rfl, rfl, hvalues, hvalues', fun hsame => ?_⟩
  obtain ⟨b, hb, hzero⟩ : ∃ b ∈ other.active, b.value = 0 := by
    rw [← List.mem_map, hvalues']
    exact List.mem_cons_self
  have hne : b ≠ atLeast 1 := by
    rintro rfl
    exact absurd hzero one_ne_zero
  have hpinned : (0 : ℚ) ∈ result.active.map Bound.value :=
    hzero ▸ List.mem_map_of_mem ((hsame b hne).mpr hb)
  rw [hvalues] at hpinned
  exact absurd hpinned (by decide)

end Solver

end BoundedFit
