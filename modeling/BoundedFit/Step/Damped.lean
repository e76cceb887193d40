import BoundedFit.Fault.Basic
import BoundedFit.Linear.Cholesky
import BoundedFit.Linear.Tensor.Basic

/-!
# Damped steps

Over all coordinates, or over the free ones with zeros at the others.
-/

namespace BoundedFit

variable {α : Type} [Add α] [Sub α] [Mul α] [Div α] [Neg α] [Zero α] [One α]
  [LT α] [DecidableLT α] [Scalar α]

/-- The matrix `damping · I + Jᵀ J`. -/
def normalMatrix (J : DenseMatrix α) (damping : α) : List (List α) :=
  J.columns.zipIdx.map fun (u, i) =>
    J.columns.zipIdx.map fun (v, j) => damping * (if i = j then 1 else 0) + Vec.dot u v

def normalRhs (J : DenseMatrix α) (r : List α) : List α := (J.transposeMulVec r).map (-·)

/-- Solves `(damping · I + Jᵀ J) δ = -Jᵀ r`. -/
def dampedStep (J : DenseMatrix α) (r : List α) (damping : α) : Except (Fault α) (List α) :=
  if r.length ≠ J.height then .error .residualLength
  else if damping < 0 then .error (.negativeDamping damping)
  else if !(normalMatrix J damping).all (·.all Scalar.isFinite) then .error .notFinite
  else
    match Cholesky.factor? J.cols (normalMatrix J damping) with
    | none => .error .notDefinite
    | some factor =>
      if (normalRhs J r).all Scalar.isFinite then .ok (Cholesky.solve factor (normalRhs J r))
      else .error .notFinite

/-- Puts the entries of `step` where `free` is true and zeros elsewhere. -/
def scatter : List Bool → List α → List α
  | [], _ => []
  | true :: free, v :: step => v :: scatter free step
  | true :: free, [] => 0 :: scatter free []
  | false :: free, step => 0 :: scatter free step

/-- The step over the coordinates where `free` is true. Without any, nothing is solved. -/
def restrictedStep (J : DenseMatrix α) (r : List α) (damping : α) (free : List Bool) :
    Except (Fault α) (List α) :=
  if h : free.length = J.cols then
    if free.any id then (dampedStep (J.select free h) r damping).map (scatter free)
    else .ok (List.replicate J.cols 0)
  else .error .maskLength

/-! ## Arrays of unchecked rank -/

def dampedStepOf (J r : Tensor α) (damping : α) : Except (Fault α) (List α) :=
  match J.toMatrix?, r.toVector? with
  | none, _ => .error .jacobianRank
  | some _, none => .error .residualLength
  | some J, some r => dampedStep J r damping

/-- The mask is compared with the second axis of the array before anything else is looked at. -/
def restrictedStepOf (J r : Tensor α) (damping : α) (free : Tensor Bool) :
    Except (Fault α) (List α) :=
  match J.shape[1]? with
  | none => .error .noAxis
  | some n =>
    if free.shape ≠ [n] then .error .maskLength
    else if !free.entries.any id then .ok (List.replicate n 0)
    else
      match J.toMatrix?, r.toVector? with
      | none, _ => .error .jacobianRank
      | some _, none => .error .residualLength
      | some J, some r => restrictedStep J r damping free.entries

omit [Add α] [Sub α] [Mul α] [Div α] [Neg α] [One α] [LT α] [DecidableLT α] [Scalar α] in
theorem length_scatter (free : List Bool) (step : List α) :
    (scatter free step).length = free.length := by
  fun_induction scatter free step <;> simp_all

end BoundedFit
