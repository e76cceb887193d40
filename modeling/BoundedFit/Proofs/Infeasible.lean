import BoundedFit.Proofs.Run.Tight

/-! # Bounds without a feasible point -/

namespace BoundedFit

variable {α : Type} [Field α] [LinearOrder α] [IsStrictOrderedRing α] {bounds : List (Bound α)}

theorem Feasible.consistent {x : List α} (h : Feasible bounds x) : Consistent bounds := by
  intro low hlow high hhigh hindex hl hu
  obtain ⟨v, hv, habove⟩ := (low.holds_iff x).mp (h low hlow)
  have hbelow := (h high hhigh).gap_nonneg (hindex ▸ hv)
  rw [Bound.gap_of_lower hl] at habove
  rw [Bound.gap_of_upper hu] at hbelow
  linarith

theorem consistent_iff_exists_feasible {n : Nat} (hn : ∀ b ∈ bounds, b.index < n) :
    Consistent bounds ↔ ∃ x, x.length = n ∧ Feasible bounds x := by
  constructor
  · intro hcons
    have hzeros : (List.replicate n (0 : α)).length = n := List.length_replicate
    exact ⟨_, (length_point_clamp bounds _).trans hzeros, feasible_clamp hcons (by rwa [hzeros])⟩
  · rintro ⟨x, -, hx⟩
    exact hx.consistent

namespace Solver

/-- With valid settings, a solver is refused as infeasible exactly if no point satisfies all
bounds. -/
theorem make_infeasible_iff {σ : Type} (problem : Problem α σ) {settings : Settings α}
    (hdamping : 0 ≤ settings.damping) (hcap : 0 ≤ settings.maxIterations) {n : Nat}
    (hn : ∀ b ∈ bounds, b.index < n) :
    ((∃ fault, make problem bounds settings = .error fault ∧ fault.kind = .infeasible) ↔
      ¬ ∃ x, x.length = n ∧ Feasible bounds x) ∧
    (Consistent bounds → ∃ solver, make problem bounds settings = .ok solver ∧
      solver.bounds = bounds) := by
  rw [← consistent_iff_exists_feasible hn, ← infeasible_iff_not_consistent,
    make_of_valid problem bounds hdamping hcap]
  refine ⟨?_, fun hcons => ?_⟩
  · cases checkConsistent bounds with
    | error fault => simp [Except.map]
    | ok => simp [Except.map]
  · rw [checkConsistent_of_consistent hcons]
    exact ⟨_, rfl, rfl⟩

/-- The first coordinate is bounded by the same value from both sides, the second one twice from above. -/
def touching : List (Bound ℚ) := [⟨1, 2, .upper⟩, ⟨0, 1, .upper⟩, ⟨0, 1, .lower⟩, ⟨1, 3, .upper⟩]

/-- A lower bound above one of the two upper bounds is enough for a refusal. -/
theorem make_infeasible_touching :
    (∃ solver, make distance.toProblem touching ⟨1, 0, false⟩ = .ok solver ∧
      solver.bounds = touching) ∧
    ∃ fault, make distance.toProblem (touching ++ [⟨1, 5 / 2, .lower⟩]) ⟨1, 0, false⟩ =
      .error fault ∧ fault.kind = .infeasible := by
  constructor
  · have hfeasible : Feasible touching [1, 2] := by
      simp [Feasible, touching, Bound.holds_iff, Bound.gap, Side.orient]
      norm_num
    have hbelow : ∀ b ∈ touching, b.index < 2 := by decide
    exact (make_infeasible_iff _ (by decide) (by decide) hbelow).2 hfeasible.consistent
  · have hbelow : ∀ b ∈ touching ++ [⟨1, 5 / 2, .lower⟩], b.index < 2 := by decide
    refine (make_infeasible_iff _ (by decide) (by decide) hbelow).1.mpr ?_
    rintro ⟨x, -, hx⟩
    have hle := hx.consistent ⟨1, 5 / 2, .lower⟩ (by simp) ⟨1, 2, .upper⟩ (by simp [touching])
      rfl rfl rfl
    norm_num at hle

end Solver

end BoundedFit
