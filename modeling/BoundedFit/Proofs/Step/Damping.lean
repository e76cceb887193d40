import BoundedFit.Proofs.Step.Least

/-!
# More damping means shorter steps

Exchanging the steps of two dampings lowers neither damped error.
-/

namespace BoundedFit

variable {α : Type} [Field α] {J : DenseMatrix α} {r delta : List α} {damping : α}
  {free : Nat → Prop}

theorem DenseMatrix.dampedError_zero (hr : r.length = J.height) (damping : α) :
    J.dampedError r damping (List.replicate J.cols 0) = Vec.dot r r := by
  have hzero := Vec.getD_zeros (α := α) J.cols
  have hself : Vec.dot (List.replicate J.cols (0 : α)) (List.replicate J.cols 0) = 0 :=
    Vec.dot_eq_zero rfl fun i => by rw [hzero, zero_mul]
  unfold dampedError linearisedError
  rw [J.foretold_of_zero hr List.length_replicate hzero, hself, mul_zero, add_zero]

/-! ## Directions of descent -/

theorem IsStep.dot_gradient (hr : r.length = J.height) (h : IsStep J r damping free delta) :
    Vec.dot delta (J.transposeMulVec r) =
      -(damping * Vec.dot delta delta + Vec.dot (J.mulVec delta) (J.mulVec delta)) := by
  have himage := J.length_mulVec delta
  have hforetold : (List.zipWith (· + ·) (J.mulVec delta) r).length = J.height := by
    simp [himage, hr]
  have hflat := h.dot_slope h.length_eq h.pinned
  rw [DenseMatrix.slope, J.dot_transposeMulVec h.length_eq hforetold, Vec.dot_add himage himage hr]
    at hflat
  rw [J.dot_transposeMulVec h.length_eq hr]
  linear_combination hflat

variable [LinearOrder α]

/-- The squared residual falls along the step, at least as fast as the damping takes the square of the
step. -/
structure FallsAlong (J : DenseMatrix α) (r : List α) (damping : α) (delta : List α) : Prop where
  rate_le : Vec.dot delta (J.transposeMulVec r) ≤ -(damping * Vec.dot delta delta)
  rate_neg : (∃ a ∈ delta, a ≠ 0) → Vec.dot delta (J.transposeMulVec r) < 0

variable [IsStrictOrderedRing α]

theorem IsStep.fallsAlong (hr : r.length = J.height) (hdef : J.DefiniteOn damping free)
    (h : IsStep J r damping free delta) : FallsAlong J r damping delta := by
  have hrate := h.dot_gradient hr
  constructor
  · linarith [Vec.dot_self_nonneg (J.mulVec delta)]
  · intro hne
    linarith [hdef delta h.length_eq h.pinned hne]

/-! ## Two dampings -/

theorem IsStep.dampedError_le (hr : r.length = J.height) (hdef : J.DefiniteOn damping free)
    (h : IsStep J r damping free delta) {d : List α} (hd : d.length = J.cols)
    (hpinned : ∀ i, ¬ free i → d.getD i 0 = 0) :
    J.dampedError r damping delta ≤ J.dampedError r damping d := by
  rcases eq_or_ne d delta with rfl | hne
  · exact le_rfl
  · exact (h.dampedError_lt hr hdef hd hpinned hne).le

/-- Of two pairs of an error and a size, each is the cheaper one at its own price of the size. The pair of
the higher price has the smaller size and the larger error. -/
theorem le_and_le_of_exchange {low high error error' size size' : α} (hlow : 0 ≤ low)
    (hlt : low < high) (hbest : error + low * size ≤ error' + low * size')
    (hbest' : error' + high * size' ≤ error + high * size) : size' ≤ size ∧ error ≤ error' := by
  have hsize : size' ≤ size := by
    have hdifference : (high - low) * size' ≤ (high - low) * size := by linarith
    exact le_of_mul_le_mul_left hdifference (sub_pos.mpr hlt)
  have hprice : low * size' ≤ low * size := mul_le_mul_of_nonneg_left hsize hlow
  exact ⟨hsize, by linarith⟩

variable [Scalar α] [ExactScalar α] {mask : List Bool}

theorem isStep_of_restrictedStep (hr : r.length = J.height) (hdamping : 0 ≤ damping)
    (h : restrictedStep J r damping mask = .ok delta) :
    J.DefiniteOn damping (fun i => mask[i]? = some true) ∧
      IsStep J r damping (fun i => mask[i]? = some true) delta := by
  have hsolved := solved_restrictedStep hr hdamping (length_mask_of_restrictedStep h)
  exact Solved.of_ok (h ▸ hsolved)

/-- Of the steps for two dampings over the same free coordinates, the one for the stronger damping is
not longer and foretells an error that is not smaller. -/
theorem shorter_of_moreDamping {mild strong : α} {long short : List α} (hr : r.length = J.height)
    (hmild : 0 ≤ mild) (hlt : mild < strong) (hlong : restrictedStep J r mild mask = .ok long)
    (hshort : restrictedStep J r strong mask = .ok short) :
    Vec.dot short short ≤ Vec.dot long long ∧
      J.linearisedError r long ≤ J.linearisedError r short ∧
      J.linearisedError r short ≤ Vec.dot r r ∧
      FallsAlong J r mild long ∧ FallsAlong J r strong short := by
  have hstrong : 0 ≤ strong := hmild.trans hlt.le
  obtain ⟨hdef, hstep⟩ := isStep_of_restrictedStep hr hmild hlong
  obtain ⟨hdef', hstep'⟩ := isStep_of_restrictedStep hr hstrong hshort
  obtain ⟨hshorter, hworse⟩ := le_and_le_of_exchange hmild hlt
    (hstep.dampedError_le hr hdef hstep'.length_eq hstep'.pinned)
    (hstep'.dampedError_le hr hdef' hstep.length_eq hstep.pinned)
  have hstay : J.dampedError r strong short ≤ Vec.dot r r := by
    rw [← J.dampedError_zero hr strong]
    exact hstep'.dampedError_le hr hdef' List.length_replicate fun i _ => Vec.getD_zeros J.cols i
  have hcost : 0 ≤ strong * Vec.dot short short := mul_nonneg hstrong (Vec.dot_self_nonneg short)
  unfold DenseMatrix.dampedError at hstay
  exact ⟨hshorter, hworse, by linarith, hstep.fallsAlong hr hdef, hstep'.fallsAlong hr hdef'⟩

theorem restrictedStep_wide_damped {damping : ℝ} (hdamping : 0 < damping) :
    restrictedStep wide [10] damping [true, true, false] =
      .ok [-10 / (damping + 5), -20 / (damping + 5), 0] := by
  have hne : damping + 5 ≠ 0 := by linarith
  have hmask : [true, true, false].length = wide.cols := rfl
  have hsolved := solved_restrictedStep (J := wide) (r := [10]) rfl hdamping.le hmask
  refine hsolved.eq_ok rfl (DenseMatrix.definiteOn_of_pos hdamping) ⟨rfl, fun i hi => ?_, ?_⟩
  · rcases i with _ | _ | _ | i <;> simp at hi ⊢
  · intro i hi hfree
    have hlt : i < 2 := by
      have hcols : i < 3 := hi
      have hne : i ≠ 2 := by
        rintro rfl
        simp at hfree
      omega
    interval_cases i <;>
      simp [wide, DenseMatrix.slope, DenseMatrix.mulVec, DenseMatrix.transposeMulVec,
        DenseMatrix.columns, DenseMatrix.column, Vec.dot, Vec.sum, List.range_succ] <;>
      field_simp <;> ring

theorem shorter_wide :
    restrictedStep wide [10] 5 [true, true, false] = .ok [-1, -2, 0] ∧
      restrictedStep wide [10] 15 [true, true, false] = .ok [-1 / 2, -1, 0] ∧
      wide.linearisedError [10] [-1, -2, 0] ≤ wide.linearisedError [10] [-1 / 2, -1, 0] ∧
      FallsAlong wide [10] 15 [-1 / 2, -1, 0] := by
  have hlong : restrictedStep wide [10] 5 [true, true, false] = .ok [-1, -2, 0] := by
    rw [restrictedStep_wide_damped (by norm_num)]
    norm_num
  have hshort : restrictedStep wide [10] 15 [true, true, false] = .ok [-1 / 2, -1, 0] := by
    rw [restrictedStep_wide_damped (by norm_num)]
    norm_num
  obtain ⟨-, hworse, -, -, hfalls⟩ :=
    shorter_of_moreDamping rfl (by norm_num) (by norm_num) hlong hshort
  exact ⟨hlong, hshort, hworse, hfalls⟩

end BoundedFit
