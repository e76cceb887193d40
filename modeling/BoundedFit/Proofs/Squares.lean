import BoundedFit.Proofs.Linear.Objective
import BoundedFit.Proofs.Stationary

/-!
# Squared errors of linear problems

A convex quadratic function of the point.
-/

namespace BoundedFit

namespace LinearProblem

variable {α : Type} [Field α] (p : LinearProblem α)

/-- The state after the evaluation at `x`. -/
def stateAt (x : List α) : DenseState α := ⟨p.residual x, p.matrix⟩

def squaredError (x : List α) : α := (p.stateAt x).error

theorem length_residual (x : List α) : (p.residual x).length = p.matrix.height := by
  simp [residual, p.matrix.length_mulVec, p.length_target]

theorem residual_eq {x y : List α} (hx : x.length = p.numVariables)
    (hy : y.length = p.numVariables) :
    p.residual y = List.zipWith (· + ·) (p.residual x)
      (p.matrix.mulVec (List.zipWith (· - ·) y x)) := by
  unfold residual numVariables at *
  rw [Vec.eq_ofFn x 0, Vec.eq_ofFn y 0, Vec.eq_ofFn p.target 0, hx, hy, p.length_target,
    Vec.zipWith_ofFn, DenseMatrix.mulVec_ofFn, DenseMatrix.mulVec_ofFn, DenseMatrix.mulVec_ofFn,
    Vec.zipWith_ofFn, Vec.zipWith_ofFn, Vec.zipWith_ofFn]
  apply Vec.ofFn_congr
  intro i _
  simp only [mul_sub, Finset.sum_sub_distrib]
  ring

theorem squaredError_eq {x y : List α} (hx : x.length = p.numVariables)
    (hy : y.length = p.numVariables) :
    p.squaredError y = p.squaredError x +
      2 * Vec.dot (List.zipWith (· - ·) y x) (p.stateAt x).gradient +
      Vec.dot (p.matrix.mulVec (List.zipWith (· - ·) y x))
        (p.matrix.mulVec (List.zipWith (· - ·) y x)) := by
  have hway : (List.zipWith (· - ·) y x).length = p.matrix.cols := by
    simp [hx, hy, numVariables]
  have hproduct : Vec.dot (List.zipWith (· - ·) y x) (p.stateAt x).gradient =
      Vec.dot (p.matrix.mulVec (List.zipWith (· - ·) y x)) (p.residual x) :=
    p.matrix.dot_transposeMulVec hway (p.length_residual x)
  have hsquare : p.squaredError y = Vec.dot (p.residual y) (p.residual y) := rfl
  rw [hproduct, hsquare, p.residual_eq hx hy,
    Vec.dot_self_add (p.length_residual x) (p.matrix.length_mulVec _)]
  rfl

variable [LinearOrder α] [IsStrictOrderedRing α]

theorem squaredError_le_of_dot_nonneg {x y : List α} (hx : x.length = p.numVariables)
    (hy : y.length = p.numVariables)
    (h : 0 ≤ Vec.dot (List.zipWith (· - ·) y x) (p.stateAt x).gradient) :
    p.squaredError x ≤ p.squaredError y := by
  rw [p.squaredError_eq hx hy]
  have hsquare := Vec.dot_self_nonneg (p.matrix.mulVec (List.zipWith (· - ·) y x))
  linarith

/-! ## Taking a part of a step -/

variable [Scalar α] [ExactScalar α]

/-- The part `t` of a step lowers the error by at least `t` times its damped square and the square of
its image. -/
theorem squaredError_add_le {x delta : List α} {damping t : α} {active : ActiveSet α}
    (hx : x.length = p.numVariables) (hdamping : 0 ≤ damping)
    (h : ((p.stateAt x).step damping active).1 = .ok delta) (h0 : 0 ≤ t) (h1 : t ≤ 1) :
    p.squaredError (List.zipWith (fun v step => v + step * t) x delta) +
        t * (damping * Vec.dot delta delta +
          Vec.dot (p.matrix.mulVec delta) (p.matrix.mulVec delta)) ≤
      p.squaredError x := by
  have hdelta : delta.length = x.length := (DenseState.of_step_eq_ok h).1.trans hx.symm
  have hrows : (p.stateAt x).residual.length = (p.stateAt x).jacobian.height := p.length_residual x
  have hy : (List.zipWith (fun v step => v + step * t) x delta).length = p.numVariables := by
    simp [hdelta, hx]
  have hway : List.zipWith (· - ·) (List.zipWith (fun v step => v + step * t) x delta) x =
      delta.map (· * t) := by
    apply List.ext_getElem
    · simp [hdelta]
    · intro i _ _
      simp
  have hproduct : Vec.dot delta (p.stateAt x).gradient =
      -(damping * Vec.dot delta delta +
        Vec.dot (p.matrix.mulVec delta) (p.matrix.mulVec delta)) := by
    rw [DenseState.gradient, (p.stateAt x).jacobian.dot_transposeMulVec (hdelta.trans hx) hrows]
    exact DenseState.dot_image_of_step hrows h
  rw [p.squaredError_eq hx hy, hway, DenseMatrix.mulVec_map_mul, Vec.dot_map_mul, Vec.dot_map_mul,
    Vec.dot_comm _ ((p.matrix.mulVec delta).map _), Vec.dot_map_mul, hproduct]
  have hdamped := mul_nonneg hdamping (Vec.dot_self_nonneg delta)
  have himage := Vec.dot_self_nonneg (p.matrix.mulVec delta)
  have hpart : t * (t * Vec.dot (p.matrix.mulVec delta) (p.matrix.mulVec delta)) ≤
      t * Vec.dot (p.matrix.mulVec delta) (p.matrix.mulVec delta) :=
    mul_le_mul_of_nonneg_left (mul_le_of_le_one_left himage h1) h0
  linarith [mul_nonneg h0 hdamped]

end LinearProblem

end BoundedFit
