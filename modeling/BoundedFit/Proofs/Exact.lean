import Mathlib.Tactic
import Mathlib.Algebra.Order.Field.Basic
import Mathlib.Data.Rat.Sqrt
import BoundedFit.Solver.Result

/-!
# Exact numbers

A bound that a step crosses is met where its gap is zero.
-/

namespace BoundedFit

/-- The root of a rational number is exact if it has a rational root. -/
instance : Scalar ℚ where
  sqrt := Rat.sqrt
  isFinite _ := true

/-! ## Equality -/

section Order

variable {α : Type} [LinearOrder α]

theorem Scalar.same_iff (u v : α) : Scalar.same u v = true ↔ u = v := by
  simp only [Scalar.same, Bool.and_eq_true, decide_eq_true_eq]
  exact le_antisymm_iff.symm

theorem Bound.same_iff (a b : Bound α) : a.same b = true ↔ a = b := by
  unfold Bound.same
  simp only [Bool.and_eq_true, beq_iff_eq, Scalar.same_iff]
  constructor
  · rintro ⟨⟨hi, hv⟩, hs⟩
    cases a; cases b; simp_all
  · rintro rfl
    exact ⟨⟨rfl, rfl⟩, rfl⟩

namespace ActiveSet

theorem contains_iff (s : ActiveSet α) (b : Bound α) : s.contains b = true ↔ b ∈ s.members := by
  simp [contains, List.any_eq_true, Bound.same_iff]

theorem mem_insert (s : ActiveSet α) (b c : Bound α) :
    c ∈ (s.insert b).members ↔ c = b ∨ c ∈ s.members := by
  unfold insert
  split
  · rename_i h
    rw [contains_iff] at h
    constructor
    · exact Or.inr
    · rintro (rfl | hc)
      · exact h
      · exact hc
  · exact mem_insertSorted b c s.members

end ActiveSet

end Order

/-! ## Gaps -/

namespace Side

variable {α : Type} [Field α]

theorem orient_zero (s : Side) : s.orient (0 : α) = 0 := by cases s <;> simp [orient]

theorem orient_add (s : Side) (u v : α) : s.orient (u + v) = s.orient u + s.orient v := by
  cases s <;> simp [orient]; ring

theorem orient_mul (s : Side) (u v : α) : s.orient (u * v) = s.orient u * v := by
  cases s <;> simp [orient]

theorem mul_nonneg_of_orient [LinearOrder α] [IsStrictOrderedRing α] {s : Side} {u v : α}
    (hu : 0 ≤ s.orient u) (hv : 0 ≤ s.orient v) : 0 ≤ u * v := by
  cases s with
  | upper =>
    unfold orient at hu hv
    exact mul_nonneg_of_nonpos_of_nonpos (neg_nonneg.mp hu) (neg_nonneg.mp hv)
  | lower => exact mul_nonneg hu hv

theorem abs_orient [LinearOrder α] [IsStrictOrderedRing α] (s : Side) (v : α) :
    |s.orient v| = |v| := by
  cases s <;> simp [orient]

end Side

namespace Bound

variable {α : Type} [Field α]

theorem gap_value (b : Bound α) : b.gap b.value = 0 := by
  unfold gap
  rw [sub_self, Side.orient_zero]

theorem gap_of_lower {b : Bound α} (h : b.side = .lower) (v : α) : b.gap v = v - b.value := by
  simp [gap, h, Side.orient]

theorem gap_of_upper {b : Bound α} (h : b.side = .upper) (v : α) : b.gap v = b.value - v := by
  simp [gap, h, Side.orient]

theorem gap_add (b : Bound α) (v t : α) : b.gap (v + t) = b.gap v + b.side.orient t := by
  unfold gap
  rw [← Side.orient_add]
  congr 1
  ring

theorem slack_eq_ok_iff (b : Bound α) (x : List α) (g : α) :
    b.slack x = .ok g ↔ ∃ v, x[b.index]? = some v ∧ b.gap v = g := by
  unfold slack coordinate
  cases x[b.index]? <;> simp [Except.map]

theorem add_mul_crossing (b : Bound α) (v : α) {step : α} (h : step ≠ 0) :
    v + step * ((b.value - v) / step) = b.value := by
  rw [mul_div_cancel₀ _ h]
  ring

theorem crossing?_eq_some_iff [LinearOrder α] (b : Bound α) (v step scale : α) :
    b.crossing? v step = some scale ↔ b.gap (v + step) < 0 ∧ scale = (b.value - v) / step := by
  unfold crossing? gap
  split
  · rename_i h
    simp [not_lt.mpr h]
  · rename_i h
    simp [not_le.mp h, eq_comm]

end Bound

section Field

variable {α : Type} [Field α] [LinearOrder α] [IsStrictOrderedRing α]

theorem Scalar.abs_eq (v : α) : Scalar.abs v = |v| := by
  unfold Scalar.abs
  split
  · rename_i h
    exact (abs_of_neg h).symm
  · rename_i h
    exact (abs_of_nonneg (not_lt.mp h)).symm

theorem negligibleStep_pos : 0 < (negligibleStep : α) := by
  unfold negligibleStep
  norm_num

theorem ne_zero_of_negligibleStep_le {step : α} (h : negligibleStep ≤ |step|) : step ≠ 0 :=
  abs_pos.mp (negligibleStep_pos.trans_le h)

end Field

end BoundedFit
