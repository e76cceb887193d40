import BoundedFit.Step.Damped
import BoundedFit.Step.Release

/-!
# Dense evaluation states

An update that is refused leaves a state as it was.
-/

namespace BoundedFit

/-- The residual and the derivative at one point. -/
structure DenseState (α : Type) where
  residual : List α
  jacobian : DenseMatrix α

namespace DenseState

variable {α : Type}

def empty : DenseState α := ⟨[], DenseMatrix.empty⟩

/-- The state with this residual and derivative, if they are a vector and a matrix of as many
rows. -/
def ofArrays (residual jacobian : Tensor α) : Except (Fault α) (DenseState α) :=
  match residual.toVector?, jacobian.toMatrix? with
  | none, _ => .error .stateResidualRank
  | some _, none => .error .stateJacobianRank
  | some r, some J =>
    if J.height = r.length then .ok ⟨r, J⟩ else .error (.stateRows jacobian.shape r.length)

/-- Stores a residual and a derivative. Arrays that cannot be read or that are refused leave the state
as it was. -/
def update (s : DenseState α) (arrays : Except (Fault α) (Tensor α × Tensor α)) :
    Except (Fault α) Unit × DenseState α :=
  match arrays.bind fun (residual, jacobian) => ofArrays residual jacobian with
  | .ok updated => (.ok (), updated)
  | .error fault => (.error fault, s)

/-- The sum of the squared residuals. -/
def error [Add α] [Mul α] [Zero α] (s : DenseState α) : α := Vec.dot s.residual s.residual

variable [Add α] [Sub α] [Mul α] [Div α] [Neg α] [Zero α] [One α]
  [LT α] [DecidableLT α] [Scalar α]

/-- The damped step over the coordinates that are not pinned, and the active set after letting go
of the bounds that no longer bind at that step. -/
def step (s : DenseState α) (damping : α) (active : ActiveSet α) :
    Except (Fault α) (List α) × ActiveSet α :=
  if active.isEmpty then (dampedStep s.jacobian s.residual damping, active)
  else
    let solved := do
      let free ← active.freeMask s.jacobian.cols
      restrictedStep s.jacobian s.residual damping free
    match solved with
    | .error fault => (.error fault, active)
    | .ok delta =>
      let (released, rest) := release s.jacobian s.residual delta active
      (released.map fun _ => delta, rest)

end DenseState

end BoundedFit
