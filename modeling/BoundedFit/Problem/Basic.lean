import BoundedFit.ActiveSet
import BoundedFit.Linear.Tensor.Basic

/-! # Least-squares problems -/

namespace BoundedFit

/-- A proposed step, with the active set and the state afterwards. -/
structure Proposal (α σ : Type) where
  delta : Except (Fault α) (List α)
  active : ActiveSet α
  state : σ

/-- A problem evaluates points, of any rank, into states of its own choice, and refuses what it cannot
evaluate. The residual and the Jacobian are only asked for when a derivative is checked. -/
structure Problem (α σ : Type) where
  fresh : σ
  evaluate : Tensor α → σ → Except (Fault α) σ
  error : σ → α
  residual : σ → List α
  jacobian : σ → DenseMatrix α
  step : α → ActiveSet α → σ → Proposal α σ

/-- The error at a vector, and the state after its evaluation. -/
def Problem.errorAt {α σ : Type} (problem : Problem α σ) (x : List α) (state : σ) :
    Except (Fault α) (α × σ) :=
  (problem.evaluate (.ofVector x) state).map fun state => (problem.error state, state)

end BoundedFit
