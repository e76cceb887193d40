import BoundedFit.ActiveSet
import BoundedFit.Bound.Array
import BoundedFit.Linear.Tensor.Product

/-!
# Letting go of bounds

A bound lets go if moving inside, after the step, would lower the linearised error.
-/

namespace BoundedFit

variable {α : Type} [Add α] [Mul α] [Neg α] [Zero α] [LT α] [DecidableLT α]

/-- The derivative of half the linearised objective at the step, `Jᵀ (J δ + r)`. -/
def gradientAt (J : DenseMatrix α) (r delta : List α) : Except (Fault α) (List α) :=
  if delta.length ≠ J.cols then .error .lengths
  else
    match Vec.zipStretched? (· + ·) (J.mulVec delta) r with
    | none => .error .lengths
    | some u => if u.length = J.height then .ok (J.transposeMulVec u) else .error .lengths

/-- Whether an inward move along the coordinate of `b` descends. -/
def Bound.letsGo (gradient : List α) (b : Bound α) : Bool :=
  b.side.orient (gradient.getD b.index 0) < 0

/-- The bounds that let go, and the active set afterwards. A fault leaves the set as it is. -/
def release (J : DenseMatrix α) (r delta : List α) (active : ActiveSet α) :
    Except (Fault α) (List (Bound α)) × ActiveSet α :=
  match gradientAt J r delta with
  | .error fault => (.error fault, active)
  | .ok gradient =>
    match active.toList.find? (gradient.length ≤ ·.index) with
    | some b => (.error (.noPosition b.index), active)
    | none =>
      (.ok (active.toList.filter (Bound.letsGo gradient)),
        active.filter fun b => !b.letsGo gradient)

/-! ## Arrays of any rank -/

/-- As `gradientAt`, for arrays of any rank. -/
def gradientOf (J r delta : Tensor α) : Except (Fault α) (Tensor α) :=
  let gradient? := do
    let image ← J.product? delta
    let u ← image.zip? (· + ·) r
    J.transpose.product? u
  match gradient? with
  | some gradient => .ok gradient
  | none => .error .lengths

/-- As `Bound.letsGo`, where the gradient has to have a single entry at the coordinate. A single
number has no coordinates. -/
def Bound.letsGoAt (gradient : Tensor α) (b : Bound α) : Except (Fault α) Bool := do
  if gradient.rank = 0 then throw .scalarIndex
  let v ← theOne (← rowAt gradient b.index)
  return decide (b.side.orient v < 0)

/-- As `release`, for arrays of any rank. -/
def releaseOf (J r delta : Tensor α) (active : ActiveSet α) :
    Except (Fault α) (List (Bound α)) × ActiveSet α :=
  match J.toMatrix?, r.toVector?, delta.toVector? with
  | some J, some r, some delta => release J r delta active
  | _, _, _ =>
    let judged : Except (Fault α) (List (Bound α × Bool)) := do
      let gradient ← gradientOf J r delta
      active.toList.mapM fun b => return (b, ← b.letsGoAt gradient)
    match judged with
    | .error fault => (.error fault, active)
    | .ok judged =>
      (.ok ((judged.filter fun (_, gone) => gone).map Prod.fst),
        ⟨(judged.filter fun (_, gone) => !gone).map Prod.fst⟩)

end BoundedFit
