import BoundedFit.Proofs.Clamp
import BoundedFit.Proofs.Stage
import BoundedFit.Proofs.Step

/-!
# Active bounds hold with equality

The steps keep that; the clamp need not.
-/

namespace BoundedFit.Solver

variable {α : Type} [Field α] [LinearOrder α] [IsStrictOrderedRing α] [Scalar α]
  {evaluate : Tensor α → DenseState α → Except (Fault α) (DenseState α)} {bounds : List (Bound α)}
  {settings : Settings α} {solver : Solver α (DenseState α)}

/-- The active bounds hold with equality at every iterate, and the reported ones at the last, exactly
if the first bound that a coordinate of the guess violates leaves no bound on it violated. -/
theorem tight_iterates_iff (hmake : make (.ofDense evaluate) bounds settings = .ok solver)
    (hcols : HasColumns evaluate) {x : List α} (hlong : ∀ b ∈ bounds, b.index < x.length) :
    solver.start (.ofVector x) = .ok (clamp bounds x) ∧
      (((∀ it ∈ (solver.traceFrom (clamp bounds x)).iterates, it.Tight) ∧
          ∀ result, solver.optimize (.ofVector x) = .ok result → ∀ b ∈ result.active,
            (solver.traceFrom (clamp bounds x)).final.point[b.index]? = some b.value) ↔
        SettledByFirst bounds x) := by
  obtain ⟨hcheck, -, hproblem, rfl, -, -⟩ := of_make_eq_ok hmake
  have hstart := start_ofVector hlong
  have hclamp := tight_clamp_iff (consistent_of_checkConsistent hcheck) hlong
  have hfits := everyStep_ofDense hproblem hcols (clamp solver.bounds x)
  refine ⟨hstart, ?_⟩
  constructor
  · rintro ⟨htight, -⟩
    rw [← hclamp]
    exact htight _ (mem_iterates_traceFrom solver _)
  · intro hsettled
    have htight : ∀ it ∈ (solver.traceFrom (clamp solver.bounds x)).iterates, it.Tight := by
      intro it hit
      obtain ⟨past, state, hruns⟩ := runs_of_mem_iterates hit
      exact hruns.tight hfits (hclamp.mpr hsettled)
    refine ⟨htight, ?_⟩
    intro result hresult b hb
    rw [active_of_optimize hstart hresult] at hb
    exact htight _ (Trace.final_mem_iterates _) b hb

/-- The distance of one coordinate from zero. -/
def distance : LinearProblem ℚ := ⟨⟨1, [[1]], by simp⟩, [0], rfl⟩

def aboveZeroAndOne : List (Bound ℚ) := [⟨0, 0, .lower⟩, ⟨0, 1, .lower⟩]

def clampOnly (bounds : List (Bound ℚ)) : Solver ℚ (DenseState ℚ) :=
  ⟨distance.toProblem, bounds, 1, 0, false⟩

theorem tight_of_tightestFirst :
    SettledByFirst aboveZeroAndOne.reverse [-1] ∧
      ∀ it ∈ ((clampOnly aboveZeroAndOne.reverse).traceFrom
        (clamp aboveZeroAndOne.reverse [-1])).iterates, it.Tight := by
  have hmake : make (.ofDense distance.evaluate) aboveZeroAndOne.reverse ⟨1, 0, false⟩ =
      .ok (clampOnly aboveZeroAndOne.reverse) :=
    make_of_isOk _ (by decide +kernel) (by decide) (by decide)
  have hlong : ∀ b ∈ aboveZeroAndOne.reverse, b.index < [(-1 : ℚ)].length := by decide
  have hsettled : SettledByFirst aboveZeroAndOne.reverse [-1] := by decide +kernel
  have htight := tight_iterates_iff hmake distance.hasColumns hlong
  exact ⟨hsettled, (htight.2.mpr hsettled).1⟩

/-- With the tighter bound last, both bounds are reported as active at the point 1. -/
theorem not_tight_of_tightestLast :
    make (.ofDense distance.evaluate) aboveZeroAndOne ⟨1, 0, false⟩ =
        .ok (clampOnly aboveZeroAndOne) ∧
      ((clampOnly aboveZeroAndOne).optimize (.ofVector [-1])).toOption.map
        (fun result => (result.solution, result.active.map Bound.value)) = some ([1], [0, 1]) ∧
      ¬ ∀ it ∈ ((clampOnly aboveZeroAndOne).traceFrom (clamp aboveZeroAndOne [-1])).iterates,
        it.Tight := by
  refine ⟨make_of_isOk _ (by decide +kernel) (by decide) (by decide), ?_, ?_⟩
  · decide +kernel
  · decide +kernel

end BoundedFit.Solver
