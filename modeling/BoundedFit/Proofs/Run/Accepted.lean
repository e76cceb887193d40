import BoundedFit.Problem.Dense
import BoundedFit.Proofs.Feasible
import BoundedFit.Proofs.Linear.Extended
import BoundedFit.Proofs.Run.Best

/-!
# What the final check lets through

Also a coordinate that is no number.
-/

namespace BoundedFit

open Extended

/-! ## The final check -/

namespace Bound

variable {α : Type} [Field α] [LinearOrder α]

theorem excess_notANumber : excess (notANumber : Extended α) = 0 := by simp [excess]

theorem excess_number (slack : α) : excess (number slack) = number (max 0 (-slack)) := by
  rw [← excess_eq_max]
  unfold excess
  simp only [neg_number, zero_eq, number_lt_number]
  split <;> rfl

variable [IsStrictOrderedRing α] {b : Bound (Extended α)} {w : α}

theorem tolerance_eq (hb : b.value = number w) :
    feasibilityTolerance * (1 + Scalar.abs b.value) =
      number (feasibilityTolerance * (1 + |w|)) := by
  have habs : Scalar.abs (number w) = number |w| := by
    rw [← Scalar.abs_eq]
    unfold Scalar.abs
    simp only [neg_number, zero_eq, number_lt_number]
    split <;> rfl
  rw [hb, habs]
  rfl

theorem accept_extended_iff (hb : b.value ≠ notANumber) (x : List (Extended α)) :
    b.accept x = .ok () ↔
      ∃ v, x[b.index]? = some v ∧
        (v = notANumber ∨
          b.isSatisfied x (feasibilityTolerance * (1 + Scalar.abs b.value)) = .ok true) := by
  obtain ⟨w, hw⟩ : ∃ w, b.value = number w := by
    rcases hvalue : b.value with w | _
    · exact ⟨w, rfl⟩
    · exact absurd hvalue hb
  have hroom : 0 ≤ feasibilityTolerance * (1 + |w|) :=
    mul_nonneg feasibilityTolerance_pos.le (by linarith [abs_nonneg w])
  unfold accept isSatisfied violation slack coordinate gap
  rw [tolerance_eq hw, hw]
  rcases hv : x[b.index]? with _ | v | _
  · simp [Except.map, bind, Except.bind]
  · have hiff : ¬ feasibilityTolerance * (1 + |w|) < max 0 (-b.side.orient (v - w)) ↔
        -(feasibilityTolerance * (1 + |w|)) ≤ b.side.orient (v - w) := by
      rw [not_lt, max_le_iff, neg_le]
      exact and_iff_right hroom
    simp only [Except.map, bind, Except.bind, number_sub_number, Side.orient_number, excess_number,
      number_lt_number, neg_number, number_le_number, ← hiff]
    split
    · rename_i hout
      exact iff_of_false (by simp [throw, throwThe, MonadExceptOf.throw]) (by simp [hout])
    · rename_i hin
      exact iff_of_true rfl ⟨_, rfl, Or.inr (by simp [hin])⟩
  · simp [Except.map, bind, Except.bind, Side.orient_notANumber, excess_notANumber, zero_eq,
      not_lt.mpr hroom, pure, Except.pure]

theorem isSatisfied_of_notANumber {α : Type} [Sub α] [Neg α] [LE α] [DecidableLE α]
    {b : Bound (Extended α)} {x : List (Extended α)} (hx : x[b.index]? = some notANumber)
    (tolerance : Extended α) : b.isSatisfied x tolerance = .ok false := by
  simp [isSatisfied, slack, coordinate, gap, hx, Except.map, Side.orient_notANumber]

theorem isSatisfied_of_accept (hb : b.value ≠ notANumber) {x : List (Extended α)}
    (h : b.accept x = .ok ()) :
    ∃ v, x[b.index]? = some v ∧
      b.isSatisfied x (feasibilityTolerance * (1 + Scalar.abs b.value)) =
        .ok (decide (v ≠ notANumber)) := by
  obtain ⟨v, hv, hor⟩ := (accept_extended_iff hb x).mp h
  refine ⟨v, hv, ?_⟩
  rcases hor with rfl | hsatisfied
  · rw [isSatisfied_of_notANumber hv]
    rfl
  · have hne : v ≠ notANumber := by
      rintro rfl
      rw [isSatisfied_of_notANumber hv] at hsatisfied
      cases hsatisfied
    rw [hsatisfied, decide_eq_true hne]

end Bound

/-! ## Coordinates that stay numbers -/

section Clamp

variable {α : Type} [Sub α] [Neg α] [Zero α] [LT α] [LE α] [DecidableLT α] [DecidableLE α]

theorem Iterate.clampTo_ne_notANumber {b : Bound (Extended α)} (hb : b.value ≠ notANumber)
    {here : Iterate (Extended α)} {i : Nat} (h : here.point[i]? ≠ some notANumber) :
    (here.clampTo b).point[i]? ≠ some notANumber := by
  unfold clampTo
  split
  · exact h
  · split
    · dsimp only
      rw [List.getElem?_set]
      split
      · split <;> simp [hb]
      · exact h
    · exact h

theorem clamp_ne_notANumber {bounds : List (Bound (Extended α))}
    (hvalues : ∀ b ∈ bounds, b.value ≠ notANumber) {x : List (Extended α)} {i : Nat}
    (h : x[i]? ≠ some notANumber) : (clamp bounds x).point[i]? ≠ some notANumber := by
  unfold clamp
  generalize hhere : (⟨x, .empty⟩ : Iterate (Extended α)) = here
  have hstart : here.point[i]? ≠ some notANumber := by rwa [← hhere]
  clear hhere
  induction bounds generalizing here with
  | nil => exact hstart
  | cons b bounds ih =>
    rw [List.forall_mem_cons] at hvalues
    exact ih hvalues.2 _ (Iterate.clampTo_ne_notANumber hvalues.1 hstart)

end Clamp

/-- Wherever a bounded coordinate is no number, the error is no number either. -/
def Problem.Exposes {α σ : Type} (problem : Problem (Extended α) σ)
    (bounds : List (Bound (Extended α))) : Prop :=
  ∀ x before state, (∃ b ∈ bounds, x[b.index]? = some notANumber) →
    problem.evaluate (.ofVector x) before = .ok state → problem.error state = notANumber

theorem LinearProblem.exposes {α : Type} [Field α] [LinearOrder α] [Scalar α]
    (p : LinearProblem (Extended α)) (hrows : p.matrix.rows ≠ [])
    (bounds : List (Bound (Extended α))) : p.toProblem.Exposes bounds := by
  rintro x before state ⟨b, -, hx⟩ heval
  simp only [toProblem, Problem.ofDense, evaluate, Tensor.toVector?_ofVector] at heval ⊢
  split at heval
  · rename_i hlength
    obtain rfl := Except.ok.inj heval
    have hmem : notANumber ∈ x := List.mem_of_getElem? hx
    apply Vec.dot_of_mem_notANumber rfl
    obtain ⟨row, hrow⟩ := List.exists_mem_of_ne_nil _ hrows
    have hcols : row.length = x.length := by rw [p.matrix.length_of_mem row hrow, hlength, numVariables]
    have hentry : notANumber ∈ p.matrix.mulVec x :=
      List.mem_map.mpr ⟨row, hrow, Vec.dot_of_mem_notANumber hcols hmem⟩
    have hheight : (p.matrix.mulVec x).length = p.target.length := by
      rw [p.matrix.length_mulVec, p.length_target]
    exact Vec.notANumber_mem_zipWith_left notANumber_sub hheight hentry
  · cases heval

namespace Solver

variable {α σ : Type} [Field α] [LinearOrder α] [Scalar α]

section Result

variable {solver : Solver (Extended α) σ} {guess : Tensor (Extended α)}
  {first : Iterate (Extended α)} {result : Result (Extended α)}

theorem solution_cases (hstart : solver.start guess = .ok first)
    (h : solver.optimize guess = .ok result) :
    result.solution = first.point ∨
      ∃ before state, solver.problem.evaluate (.ofVector result.solution) before = .ok state ∧
        solver.problem.error state ≠ notANumber := by
  obtain ⟨-, -, rfl⟩ := of_optimize_eq_ok hstart h
  have hbest := isBest_best first.point (solver.traceFrom first)
  rcases herror : (best first.point (solver.traceFrom first)).error with _ | e
  · exact Or.inl (hbest.guess_of_none herror)
  · right
    have hfind := hbest.find?_of_some e herror
    have hsame : Scalar.same e e = true := by simpa using List.find?_some hfind
    obtain ⟨n, hn⟩ := List.mem_iff_getElem?.mp (List.mem_of_find?_eq_some hfind)
    obtain ⟨past, here, before, state, -, -, hpoint, heval⟩ := evaluates_of_getElem? hn
    rw [hpoint, Problem.errorAt_eq_ok_iff] at heval
    refine ⟨before, state, heval.1, ?_⟩
    rw [heval.2]
    exact (le_self_iff le_refl e).mp (isComparable_iff.mp hsame)

theorem solution_ne_notANumber (hvalues : ∀ b ∈ solver.bounds, b.value ≠ notANumber)
    (hexposes : solver.problem.Exposes solver.bounds)
    (hguess : ∀ x, guess.toVector? = some x → ∀ b ∈ solver.bounds, x[b.index]? ≠ some notANumber)
    (hstart : solver.start guess = .ok first) (h : solver.optimize guess = .ok result) :
    ∀ b ∈ solver.bounds, result.solution[b.index]? ≠ some notANumber := by
  intro b hb hnone
  rcases solution_cases hstart h with hfirst | ⟨before, state, heval, herror⟩
  · obtain ⟨x, hx, -, rfl⟩ := of_start_eq_ok hstart
    rw [hfirst] at hnone
    exact clamp_ne_notANumber hvalues (hguess x hx b hb) hnone
  · exact herror (hexposes _ before state ⟨b, hb, hnone⟩ heval)

variable [IsStrictOrderedRing α]

/-- At the returned point a bound holds within its tolerance exactly if the coordinate is a number. It
is one if it was one in the guess and errors show where it is not. -/
theorem isSatisfied_of_optimize {problem : Problem (Extended α) σ} {settings : Settings (Extended α)}
    {bounds : List (Bound (Extended α))} (hmake : make problem bounds settings = .ok solver)
    (hvalues : ∀ b ∈ bounds, b.value ≠ notANumber) (h : solver.optimize guess = .ok result) :
    (∀ b ∈ bounds, ∃ v, result.solution[b.index]? = some v ∧
      b.isSatisfied result.solution (feasibilityTolerance * (1 + Scalar.abs b.value)) =
        .ok (decide (v ≠ notANumber))) ∧
    (problem.Exposes bounds →
      (∀ x, guess.toVector? = some x → ∀ b ∈ bounds, x[b.index]? ≠ some notANumber) →
      ∀ b ∈ bounds,
        b.isSatisfied result.solution (feasibilityTolerance * (1 + Scalar.abs b.value)) =
          .ok true) := by
  obtain ⟨-, -, rfl, rfl, -, -⟩ := of_make_eq_ok hmake
  obtain ⟨first, hstart⟩ := exists_start_of_optimize h
  have haccept : ∀ b ∈ solver.bounds, b.accept result.solution = .ok () := by
    obtain ⟨-, hall, rfl⟩ := of_optimize_eq_ok hstart h
    exact acceptAll_eq_ok_iff.mp hall
  refine ⟨fun b hb => Bound.isSatisfied_of_accept (hvalues b hb) (haccept b hb), ?_⟩
  intro hexposes hguess b hb
  obtain ⟨v, hv, hsatisfied⟩ := Bound.isSatisfied_of_accept (hvalues b hb) (haccept b hb)
  have hne : v ≠ notANumber := by
    rintro rfl
    exact solution_ne_notANumber hvalues hexposes hguess hstart h b hb hv
  rw [hsatisfied, decide_eq_true hne]

end Result

/-- The residual is the only coordinate of a point. -/
def identity : LinearProblem (Extended ℚ) := ⟨⟨1, [[1]], by simp⟩, [0], rfl⟩

/-- A solver that evaluates the clamped guess and takes no step. -/
def unmoved (b : Bound (Extended ℚ)) : Solver (Extended ℚ) (DenseState (Extended ℚ)) :=
  ⟨identity.toProblem, [b], 1, 0, false⟩

theorem isSatisfied_unmoved :
    make identity.toProblem [⟨0, 1, .lower⟩] ⟨1, 0, false⟩ = .ok (unmoved ⟨0, 1, .lower⟩) ∧
      ∃ result, (unmoved ⟨0, 1, .lower⟩).optimize (.ofVector [-1]) = .ok result ∧
        result.solution = [1] ∧
        (⟨0, 1, .lower⟩ : Bound (Extended ℚ)).isSatisfied result.solution
          (feasibilityTolerance * (1 + Scalar.abs 1)) = .ok true := by
  have hmake : make identity.toProblem [⟨0, 1, .lower⟩] ⟨1, 0, false⟩ =
      .ok (unmoved ⟨0, 1, .lower⟩) :=
    make_of_isOk _ (by decide +kernel) (by decide) (by decide)
  have hrun : ((unmoved ⟨0, 1, .lower⟩).optimize (.ofVector [-1])).toOption.map Result.solution =
      some [1] := by decide +kernel
  rcases hresult : (unmoved ⟨0, 1, .lower⟩).optimize (.ofVector [-1]) with fault | result
  · rw [hresult] at hrun
    cases hrun
  rw [hresult] at hrun
  have hguess : ∀ x, (Tensor.ofVector [(-1 : Extended ℚ)]).toVector? = some x →
      ∀ b ∈ [(⟨0, 1, .lower⟩ : Bound (Extended ℚ))], x[b.index]? ≠ some notANumber := by
    intro x hx
    obtain rfl := Option.some.inj hx
    decide
  have hsatisfied := (isSatisfied_of_optimize hmake (by decide) hresult).2
    (identity.exposes (by simp [identity]) _) hguess
  exact ⟨hmake, result, rfl, Option.some.inj hrun, hsatisfied _ (List.mem_singleton_self _)⟩

theorem not_isSatisfied_unmoved :
    make identity.toProblem [⟨0, 0, .lower⟩] ⟨1, 0, false⟩ = .ok (unmoved ⟨0, 0, .lower⟩) ∧
      ∃ result, (unmoved ⟨0, 0, .lower⟩).optimize (.ofVector [notANumber]) = .ok result ∧
        result.solution = [notANumber] ∧
        (⟨0, 0, .lower⟩ : Bound (Extended ℚ)).isSatisfied result.solution
          (feasibilityTolerance * (1 + Scalar.abs 0)) = .ok false := by
  refine ⟨make_of_isOk _ (by decide +kernel) (by decide) (by decide), ?_⟩
  have hrun : ((unmoved ⟨0, 0, .lower⟩).optimize (.ofVector [notANumber])).toOption.map
      Result.solution = some [notANumber] := by decide +kernel
  rcases hresult : (unmoved ⟨0, 0, .lower⟩).optimize (.ofVector [notANumber]) with fault | result
  · rw [hresult] at hrun
    cases hrun
  rw [hresult] at hrun
  have hsolution : result.solution = [notANumber] := Option.some.inj hrun
  refine ⟨result, rfl, hsolution, ?_⟩
  rw [hsolution]
  exact Bound.isSatisfied_of_notANumber rfl _

end Solver

end BoundedFit
