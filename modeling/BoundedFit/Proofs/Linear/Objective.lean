import BoundedFit.Proofs.Linear.Normal

/-!
# The linearised error

A convex quadratic function of the step.
-/

namespace BoundedFit

/-! ## Squares of vectors -/

namespace Vec

variable {α : Type} [Field α]

theorem dot_map_mul (u v : List α) (t : α) : dot (u.map (· * t)) v = t * dot u v := by
  induction u generalizing v with
  | nil => simp [dot, sum]
  | cons a u ih =>
    cases v with
    | nil => simp [dot, sum]
    | cons b v =>
      rw [List.map_cons, dot_cons, dot_cons, ih]
      ring

theorem dot_self_add {n : Nat} {u w : List α} (hu : u.length = n) (hw : w.length = n) :
    dot (List.zipWith (· + ·) u w) (List.zipWith (· + ·) u w) =
      dot u u + 2 * dot w u + dot w w := by
  have hsum : (List.zipWith (· + ·) u w).length = n := by simp [hu, hw]
  rw [dot_add hsum hu hw, dot_comm _ u, dot_comm _ w, dot_add hu hu hw, dot_add hw hu hw,
    dot_comm u w]
  ring

theorem exists_way {n : Nat} {u v : List α} (hu : u.length = n) (hv : v.length = n) :
    ∃ w : List α, w.length = n ∧ List.zipWith (· + ·) u w = v ∧
      ∀ i, w.getD i 0 = v.getD i 0 - u.getD i 0 := by
  refine ⟨List.zipWith (· - ·) v u, by simp [hu, hv], ?_, fun i => ?_⟩
  · apply List.ext_getElem (by simp [hu, hv])
    intro i _ _
    simp
  · by_cases hi : i < n <;> simp [hu, hv, hi]

theorem exists_ne_zero_of_add_ne {u w : List α} (hw : w.length = u.length)
    (hne : List.zipWith (· + ·) u w ≠ u) : ∃ a ∈ w, a ≠ 0 := by
  by_contra hnone
  push Not at hnone
  apply hne
  apply List.ext_getElem (by simp [hw])
  intro i _ _
  rw [List.getElem_zipWith, hnone _ (List.getElem_mem _), add_zero]

variable [LinearOrder α] [IsStrictOrderedRing α]

theorem dot_self_nonneg (u : List α) : 0 ≤ dot u u := by
  rw [dot_eq_sum rfl rfl]
  exact Finset.sum_nonneg fun i _ => mul_self_nonneg _

theorem eq_zero_of_dot_self {u : List α} (h : dot u u = 0) : ∀ a ∈ u, a = 0 := by
  induction u with
  | nil => intro a ha; cases ha
  | cons a u ih =>
    rw [dot_cons] at h
    obtain ⟨hhead, htail⟩ :=
      (add_eq_zero_iff_of_nonneg (mul_self_nonneg a) (dot_self_nonneg u)).mp h
    rw [List.forall_mem_cons]
    exact ⟨mul_self_eq_zero.mp hhead, ih htail⟩

theorem dot_self_pos_iff {u : List α} : 0 < dot u u ↔ ∃ a ∈ u, a ≠ 0 := by
  constructor
  · intro hpos
    by_contra hnone
    push Not at hnone
    refine hpos.ne' (dot_eq_zero rfl fun i => ?_)
    rcases hi : u[i]? with _ | a
    · simp [hi]
    · simp [hi, hnone a (List.mem_of_getElem? hi)]
  · rintro ⟨a, ha, hne⟩
    apply lt_of_le_of_ne (dot_self_nonneg u)
    intro hzero
    exact hne (eq_zero_of_dot_self hzero.symm a ha)

theorem imp_dot_self_pos_iff {u v : List α} :
    ((∃ a ∈ v, a ≠ 0) → 0 < dot u u) ↔ ((∀ b ∈ u, b = 0) → ∀ a ∈ v, a = 0) := by
  rw [dot_self_pos_iff, ← not_imp_not]
  push Not
  rfl

end Vec

namespace DenseMatrix

variable {α : Type} [Field α] (J : DenseMatrix α)

theorem mulVec_map_mul (v : List α) (t : α) : J.mulVec (v.map (· * t)) = (J.mulVec v).map (· * t) := by
  unfold mulVec
  rw [List.map_map]
  apply List.map_congr_left
  intro row _
  rw [Function.comp_apply, Vec.dot_comm, Vec.dot_map_mul, Vec.dot_comm, mul_comm]

theorem mulVec_add {v w : List α} (hv : v.length = J.cols) (hw : w.length = J.cols) :
    J.mulVec (List.zipWith (· + ·) v w) = List.zipWith (· + ·) (J.mulVec v) (J.mulVec w) := by
  unfold mulVec
  rw [List.zipWith_map, List.zipWith_self]
  apply List.map_congr_left
  intro row hrow
  exact Vec.dot_add (J.length_of_mem row hrow) hv hw

theorem transposeMulVec_add {u w : List α} (hu : u.length = J.height) (hw : w.length = J.height) :
    J.transposeMulVec (List.zipWith (· + ·) u w) =
      List.zipWith (· + ·) (J.transposeMulVec u) (J.transposeMulVec w) := by
  unfold transposeMulVec
  rw [List.zipWith_map, List.zipWith_self]
  apply List.map_congr_left
  intro column hcolumn
  obtain ⟨j, -, rfl⟩ := List.mem_map.mp hcolumn
  exact Vec.dot_add (J.length_column j) hu hw

/-! ## Errors that a step foretells -/

/-- The square of the residual that the derivative foretells after the step. -/
def linearisedError (r delta : List α) : α :=
  Vec.dot (List.zipWith (· + ·) (J.mulVec delta) r) (List.zipWith (· + ·) (J.mulVec delta) r)

/-- The linearised error, and the square of the step weighed with the damping. -/
def dampedError (r : List α) (damping : α) (delta : List α) : α :=
  J.linearisedError r delta + damping * Vec.dot delta delta

variable {r delta w : List α}

theorem linearisedError_add (hr : r.length = J.height) (hdelta : delta.length = J.cols)
    (hw : w.length = J.cols) :
    J.linearisedError r (List.zipWith (· + ·) delta w) =
      J.linearisedError r delta + 2 * Vec.dot w (J.slope r delta) +
        Vec.dot (J.mulVec w) (J.mulVec w) := by
  have himage := J.length_mulVec delta
  have hway := J.length_mulVec w
  have hforetold : (List.zipWith (· + ·) (J.mulVec delta) r).length = J.height := by
    simp [himage, hr]
  have hsum : List.zipWith (· + ·) (J.mulVec (List.zipWith (· + ·) delta w)) r =
      List.zipWith (· + ·) (List.zipWith (· + ·) (J.mulVec delta) r) (J.mulVec w) := by
    rw [J.mulVec_add hdelta hw]
    apply List.ext_getElem
    · simp [himage, hway, hr]
    · intro i _ _
      simp only [List.getElem_zipWith]
      ring
  unfold linearisedError slope
  rw [hsum, Vec.dot_self_add hforetold hway, J.dot_transposeMulVec hw hforetold]

theorem dampedError_add (hr : r.length = J.height) (hdelta : delta.length = J.cols)
    (hw : w.length = J.cols) (damping : α) :
    J.dampedError r damping (List.zipWith (· + ·) delta w) =
      J.dampedError r damping delta +
        2 * (damping * Vec.dot w delta + Vec.dot w (J.slope r delta)) +
        (damping * Vec.dot w w + Vec.dot (J.mulVec w) (J.mulVec w)) := by
  unfold dampedError
  rw [J.linearisedError_add hr hdelta hw, Vec.dot_self_add hdelta hw]
  ring

end DenseMatrix

end BoundedFit
