import Mathlib.Algebra.Group.Ext
import BoundedFit.Proofs.ActiveSet
import BoundedFit.Proofs.Linear.Objective
import BoundedFit.Proofs.Step.Restricted

/-!
# Which bounds let go

The other members of the active set do not matter.
-/

namespace BoundedFit

variable {α : Type} [Field α]

/-- The step with the coordinate of the bound moved by `t` into the allowed side. -/
def Bound.inward (b : Bound α) (delta : List α) (t : α) : List α :=
  delta.modify b.index (· + b.side.orient t)

variable {J : DenseMatrix α} {r delta : List α} {b : Bound α}

/-! ## Moves of one coordinate -/

theorem Vec.modify_add {n i : Nat} {v : List α} (hv : v.length = n) (amount : α) :
    v.modify i (· + amount) =
      List.zipWith (· + ·) v (Vec.ofFn n fun k => if k = i then amount else 0) := by
  apply List.ext_getElem (by simp [hv])
  intro k hk _
  rw [List.getElem_modify]
  rcases eq_or_ne i k with rfl | hki
  · simp [Vec.ofFn]
  · simp [Vec.ofFn, hki, hki.symm]

theorem DenseMatrix.linearisedError_modify (hr : r.length = J.height) (hdelta : delta.length = J.cols)
    {i : Nat} (hi : i < J.cols) (amount : α) :
    J.linearisedError r (delta.modify i (· + amount)) =
      J.linearisedError r delta + 2 * (amount * (J.slope r delta).getD i 0) +
        amount ^ 2 * Vec.dot (J.column i) (J.column i) := by
  have hway : (Vec.ofFn J.cols fun k => if k = i then amount else 0).length = J.cols :=
    Vec.length_ofFn _ _
  have hproduct : Vec.dot (Vec.ofFn J.cols fun k => if k = i then amount else 0) (J.slope r delta) =
      amount * (J.slope r delta).getD i 0 := by
    rw [Vec.eq_ofFn (J.slope r delta) 0, J.length_slope, Vec.dot_ofFn, Vec.getD_ofFn _ _ hi]
    simp [hi]
  have himage : J.mulVec (Vec.ofFn J.cols fun k => if k = i then amount else 0) =
      (J.column i).map (· * amount) := by
    rw [mulVec_ofFn, column_eq J hi, Vec.map_ofFn]
    apply Vec.ofFn_congr
    intro k _
    simp [hi]
  rw [Vec.modify_add hdelta, J.linearisedError_add hr hdelta hway, hproduct, himage, Vec.dot_map_mul,
    Vec.dot_comm, Vec.dot_map_mul]
  ring

theorem linearisedError_inward (hr : r.length = J.height) (hdelta : delta.length = J.cols)
    (hb : b.index < J.cols) (t : α) :
    J.linearisedError r (b.inward delta t) =
      J.linearisedError r delta +
        t * (2 * b.side.orient ((J.slope r delta).getD b.index 0) +
          t * Vec.dot (J.column b.index) (J.column b.index)) := by
  unfold Bound.inward
  rw [DenseMatrix.linearisedError_modify hr hdelta hb]
  cases b.side <;> simp only [Side.orient] <;> ring

variable [LinearOrder α] [IsStrictOrderedRing α]

theorem exists_pos_lt_zero_iff {rate square : α} (hsquare : 0 ≤ square) :
    (∃ t, 0 < t ∧ t * (2 * rate + t * square) < 0) ↔ rate < 0 := by
  constructor
  · rintro ⟨t, ht, hlower⟩
    have hfactor : 2 * rate + t * square < 0 := neg_of_mul_neg_right hlower ht.le
    linarith [mul_nonneg ht.le hsquare]
  · intro hrate
    have hpos : 0 < 1 + square := by linarith
    have ht : 0 < -rate / (1 + square) := div_pos (neg_pos.mpr hrate) hpos
    -- So short that the square takes back no more than half of the descent.
    have hshort : -rate / (1 + square) * square ≤ -rate := by
      rw [div_mul_eq_mul_div, div_le_iff₀ hpos]
      linarith
    exact ⟨_, ht, mul_neg_of_pos_of_neg ht (by linarith)⟩

theorem letsGo_iff (hr : r.length = J.height) (hdelta : delta.length = J.cols)
    (hb : b.index < J.cols) :
    b.letsGo (J.slope r delta) = true ↔
      ∃ t, 0 < t ∧ J.linearisedError r (b.inward delta t) < J.linearisedError r delta := by
  simp only [linearisedError_inward hr hdelta hb, add_lt_iff_neg_left]
  rw [exists_pos_lt_zero_iff (Vec.dot_self_nonneg (J.column b.index))]
  exact decide_eq_true_iff

theorem linearisedError_le_of_not_letsGo (hr : r.length = J.height) (hdelta : delta.length = J.cols)
    (hb : b.index < J.cols) (hkept : ¬ b.letsGo (J.slope r delta) = true) {t : α} (ht : 0 ≤ t) :
    J.linearisedError r delta ≤ J.linearisedError r (b.inward delta t) := by
  rcases ht.eq_or_lt with rfl | hpos
  · rw [linearisedError_inward hr hdelta hb, zero_mul, add_zero]
  · by_contra hlower
    exact hkept ((letsGo_iff hr hdelta hb).mpr ⟨t, hpos, not_le.mp hlower⟩)

/-! ## The active set afterwards -/

omit [IsStrictOrderedRing α] in
theorem mem_release_iff {active : ActiveSet α} (hr : r.length = J.height)
    (hdelta : delta.length = J.cols) (hin : ∀ b ∈ active.members, b.index < J.cols) :
    b ∈ (release J r delta active).2.members ↔
      b ∈ active.members ∧ ¬ b.letsGo (J.slope r delta) = true := by
  rw [release_eq hdelta hr hin]
  unfold staying ActiveSet.filter
  rw [List.mem_filter, Bool.not_eq_true', Bool.not_eq_true]

/-- The bounds that let go are those of which some inward move lowers the linearised error. -/
theorem release_inward {active : ActiveSet α} (hr : r.length = J.height)
    (hdelta : delta.length = J.cols) (hactive : active.Ordered)
    (hin : ∀ b ∈ active.members, b.index < J.cols) :
    ∃ released kept, release J r delta active = (.ok released, kept) ∧
      (∀ b ∈ kept.members, b ∈ active.members) ∧
      (∀ b ∈ active.members, b ∉ kept.members ↔
        ∃ t, 0 < t ∧ J.linearisedError r (b.inward delta t) < J.linearisedError r delta) ∧
      (∀ b ∈ kept.members, ∀ t, 0 ≤ t →
        J.linearisedError r delta ≤ J.linearisedError r (b.inward delta t)) ∧
      (∀ b, b ∈ released ↔ b ∈ active.members ∧ b ∉ kept.members) ∧
      released.Pairwise (fun a b => a.key < b.key) ∧
      ∀ other : ActiveSet α, (∀ b ∈ other.members, b.index < J.cols) →
        ∀ b ∈ active.members, b ∈ other.members →
          (b ∈ (release J r delta other).2.members ↔ b ∈ kept.members) := by
  have hkept := fun b => mem_release_iff (b := b) hr hdelta hin
  have hrelease := release_eq hdelta hr hin
  refine ⟨_, _, hrelease, ?_⟩
  rw [hrelease] at hkept
  refine ⟨fun b hb => ((hkept b).mp hb).1, fun b hb => ?_, fun b hb t ht => ?_, fun b => ?_,
    hactive.filter _, fun other hother b hb hb' => ?_⟩
  · rw [hkept b, ← letsGo_iff hr hdelta (hin b hb)]
    tauto
  · obtain ⟨hmem, hstays⟩ := (hkept b).mp hb
    exact linearisedError_le_of_not_letsGo hr hdelta (hin b hmem) hstays ht
  · rw [List.mem_filter, hkept b]
    tauto
  · rw [mem_release_iff hr hdelta hother, hkept b]
    tauto

def tilted : DenseMatrix ℚ := ⟨2, [[1, 1], [0, 1]], by simp⟩

/-- Three bounds, two of them on one coordinate. -/
def squeezed : ActiveSet ℚ := .ofList [⟨1, 3, .upper⟩, ⟨0, 0, .lower⟩, ⟨0, 0, .upper⟩]

theorem members_squeezed : squeezed.members = [⟨0, 0, .upper⟩, ⟨0, 0, .lower⟩, ⟨1, 3, .upper⟩] := rfl

theorem release_tilted :
    release tilted [-1, 0] [2, 0] squeezed =
      (.ok [⟨0, 0, .upper⟩, ⟨1, 3, .upper⟩], ⟨[⟨0, 0, .lower⟩]⟩) := by
  cbv

theorem inward_tilted :
    (∀ t, 0 ≤ t → tilted.linearisedError [-1, 0] [2, 0] ≤
      tilted.linearisedError [-1, 0] ((⟨0, 0, .lower⟩ : Bound ℚ).inward [2, 0] t)) ∧
    ∃ t, 0 < t ∧ tilted.linearisedError [-1, 0] ((⟨0, 0, .upper⟩ : Bound ℚ).inward [2, 0] t) <
      tilted.linearisedError [-1, 0] [2, 0] := by
  have hr : ([-1, 0] : List ℚ).length = tilted.height := rfl
  have hdelta : ([2, 0] : List ℚ).length = tilted.cols := rfl
  have hordered : squeezed.Ordered := ActiveSet.ordered_ofList _
  have hin : ∀ b ∈ squeezed.members, b.index < tilted.cols := by
    simp [members_squeezed, tilted]
  obtain ⟨released, kept, hrelease, -, hgoes, hstays, -⟩ := release_inward hr hdelta hordered hin
  obtain ⟨-, rfl⟩ := Prod.mk.inj (release_tilted.symm.trans hrelease)
  have hupper : ⟨0, 0, .upper⟩ ∈ squeezed.members := by simp [members_squeezed]
  exact ⟨hstays _ (by simp), (hgoes _ hupper).mp (by simp)⟩

end BoundedFit
