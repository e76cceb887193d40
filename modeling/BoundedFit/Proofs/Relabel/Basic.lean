import Mathlib.Logic.Equiv.Basic
import BoundedFit.Proofs.Exact
import BoundedFit.Proofs.Linear.Normal

/-!
# Relabelled coordinates

Moved to new places, and some of them negated. A negated bound turns its side.
-/

namespace BoundedFit

/-! ## Signs -/

/-- The value, negated or not. -/
def turn {α : Type} [Neg α] (flip : Bool) (v : α) : α := if flip then -v else v

/-- The side of a bound whose coordinate is negated or not. -/
def Side.turn (flip : Bool) : Side → Side
  | upper => if flip then lower else upper
  | lower => if flip then upper else lower

theorem Side.turn_turn (flip : Bool) (s : Side) : (s.turn flip).turn flip = s := by
  cases flip <;> cases s <;> rfl

section Turn

variable {α : Type} [Field α]

@[simp] theorem turn_turn (flip : Bool) (v : α) : turn flip (turn flip v) = v := by
  cases flip <;> simp [turn]

@[simp] theorem turn_zero (flip : Bool) : turn flip (0 : α) = 0 := by
  cases flip <;> simp [turn]

theorem turn_add (flip : Bool) (u v : α) : turn flip (u + v) = turn flip u + turn flip v := by
  cases flip <;> simp [turn]
  ring

theorem turn_sub (flip : Bool) (u v : α) : turn flip (u - v) = turn flip u - turn flip v := by
  cases flip <;> simp [turn]
  ring

theorem turn_mul (flip : Bool) (u v : α) : turn flip (u * v) = turn flip u * v := by
  cases flip <;> simp [turn]

theorem turn_mul_turn (flip : Bool) (u v : α) : turn flip u * turn flip v = u * v := by
  cases flip <;> simp [turn]

theorem turn_div_turn (flip : Bool) (u v : α) : turn flip u / turn flip v = u / v := by
  cases flip <;> simp [turn]

theorem turn_eq_zero_iff {flip : Bool} {v : α} : turn flip v = 0 ↔ v = 0 := by
  cases flip <;> simp [turn]

theorem abs_turn [LinearOrder α] [IsStrictOrderedRing α] (flip : Bool) (v : α) :
    |turn flip v| = |v| := by
  cases flip <;> simp [turn]

theorem Side.orient_turn (flip : Bool) (s : Side) (v : α) :
    (s.turn flip).orient (BoundedFit.turn flip v) = s.orient v := by
  cases flip <;> cases s <;> simp [turn, BoundedFit.turn, orient]

end Turn

/-! ## Relabellings -/

/-- New places for the first `n` coordinates, and which of them are negated. -/
structure Relabelling (n : Nat) where
  place : Equiv.Perm Nat
  flips : Nat → Bool
  place_lt_iff : ∀ i, place i < n ↔ i < n

namespace Relabelling

variable {n : Nat} (P : Relabelling n)

def symm : Relabelling n where
  place := P.place.symm
  flips j := P.flips (P.place.symm j)
  place_lt_iff j := by rw [← P.place_lt_iff, Equiv.apply_symm_apply]

@[simp] theorem symm_symm : P.symm.symm = P := by
  cases P
  simp [symm]

theorem sum_place {α : Type} [AddCommMonoid α] (f : Nat → α) :
    ∑ i ∈ Finset.range n, f (P.place i) = ∑ j ∈ Finset.range n, f j :=
  Finset.sum_equiv P.place (by simp [P.place_lt_iff]) fun _ _ => rfl

/-! ## Vectors -/

section Vectors

variable {α : Type} [Field α]

/-- The vector with its entries at their new places. Vectors of another length stay as they are. -/
def onVector (v : List α) : List α :=
  if v.length = n then
    Vec.ofFn n fun j => turn (P.flips (P.place.symm j)) (v.getD (P.place.symm j) 0)
  else v

variable {v w : List α}

@[simp] theorem length_onVector (v : List α) : (P.onVector v).length = v.length := by
  unfold onVector
  split
  · rename_i h
    rw [Vec.length_ofFn, h]
  · rfl

theorem getElem?_onVector (hv : v.length = n) (i : Nat) :
    (P.onVector v)[P.place i]? = v[i]?.map (turn (P.flips i)) := by
  unfold onVector
  rw [if_pos hv]
  by_cases hi : i < n
  · rw [Vec.getElem?_ofFn _ ((P.place_lt_iff i).mpr hi), Equiv.symm_apply_apply]
    simp [hv, hi]
  · have hplace : ¬ P.place i < n := fun h => hi ((P.place_lt_iff i).mp h)
    rw [List.getElem?_eq_none (by simpa using hplace), List.getElem?_eq_none (by omega)]
    rfl

theorem getD_onVector (hv : v.length = n) (i : Nat) :
    (P.onVector v).getD (P.place i) 0 = turn (P.flips i) (v.getD i 0) := by
  rw [List.getD_eq_getElem?_getD, List.getD_eq_getElem?_getD, P.getElem?_onVector hv]
  cases v[i]? <;> simp

theorem eq_onVector (hv : v.length = n) (hw : w.length = n)
    (h : ∀ i < n, w[P.place i]? = v[i]?.map (turn (P.flips i))) : w = P.onVector v := by
  apply List.ext_getElem?
  intro j
  obtain ⟨i, rfl⟩ := P.place.surjective j
  by_cases hi : i < n
  · rw [h i hi, P.getElem?_onVector hv]
  · have hplace : ¬ P.place i < n := fun h => hi ((P.place_lt_iff i).mp h)
    rw [List.getElem?_eq_none (by omega), List.getElem?_eq_none (by simpa [hv] using hplace)]

theorem symm_onVector_onVector (v : List α) : P.symm.onVector (P.onVector v) = v := by
  by_cases hv : v.length = n
  · symm
    apply P.symm.eq_onVector (by simpa using hv) hv
    intro j _
    obtain ⟨i, rfl⟩ := P.place.surjective j
    rw [P.getElem?_onVector hv]
    simp [symm, Function.comp_def]
  · have hw : (P.onVector v).length ≠ n := by simpa using hv
    unfold onVector at hw ⊢
    rw [if_neg hw, if_neg hv]

theorem onVector_zeros : P.onVector (List.replicate n (0 : α)) = List.replicate n 0 := by
  symm
  apply P.eq_onVector (List.length_replicate) (List.length_replicate)
  intro i hi
  simp [hi, (P.place_lt_iff i).mpr hi]

theorem onVector_map_mul (hv : v.length = n) (t : α) :
    P.onVector (v.map (· * t)) = (P.onVector v).map (· * t) := by
  symm
  apply P.eq_onVector (by simpa using hv) (by simpa using hv)
  intro i _
  rw [List.getElem?_map, List.getElem?_map, P.getElem?_onVector hv]
  cases v[i]? <;> simp [turn_mul]

theorem onVector_add (hv : v.length = n) (hw : w.length = n) :
    P.onVector (List.zipWith (· + ·) v w) =
      List.zipWith (· + ·) (P.onVector v) (P.onVector w) := by
  symm
  apply P.eq_onVector (by simp [hv, hw]) (by simp [hv, hw])
  intro i _
  rw [List.getElem?_zipWith', List.getElem?_zipWith', P.getElem?_onVector hv, P.getElem?_onVector hw]
  cases v[i]? <;> cases w[i]? <;> simp [turn_add]

theorem onVector_set (hv : v.length = n) (i : Nat) (a : α) :
    P.onVector (v.set i a) = (P.onVector v).set (P.place i) (turn (P.flips i) a) := by
  symm
  apply P.eq_onVector (by simpa using hv) (by simpa using hv)
  intro k hk
  rw [List.getElem?_set, List.getElem?_set, P.getElem?_onVector hv]
  by_cases hki : i = k
  · subst hki
    simp [hv, hk, (P.place_lt_iff i).mpr hk]
  · have hplace : P.place i ≠ P.place k := fun h => hki (P.place.injective h)
    rw [if_neg hplace, if_neg hki]

theorem dot_onVector (hv : v.length = n) (hw : w.length = n) :
    Vec.dot (P.onVector v) (P.onVector w) = Vec.dot v w := by
  rw [Vec.dot_eq_sum (by simpa using hv) (by simpa using hw), Vec.dot_eq_sum hv hw, ← P.sum_place]
  apply Finset.sum_congr rfl
  intro i _
  rw [P.getD_onVector hv, P.getD_onVector hw, turn_mul_turn]

end Vectors

/-! ## Bounds -/

section Bounds

variable {α : Type} [Field α]

def onBound (b : Bound α) : Bound α :=
  ⟨P.place b.index, turn (P.flips b.index) b.value, b.side.turn (P.flips b.index)⟩

theorem symm_onBound_onBound (b : Bound α) : P.symm.onBound (P.onBound b) = b := by
  simp [onBound, symm, Side.turn_turn]

theorem onBound_injective : Function.Injective (P.onBound : Bound α → Bound α) :=
  Function.LeftInverse.injective P.symm_onBound_onBound

theorem onBound_symm_onBound (b : Bound α) : P.onBound (P.symm.onBound b) = b := by
  simpa using P.symm.symm_onBound_onBound b

theorem onBound_surjective : Function.Surjective (P.onBound : Bound α → Bound α) :=
  Function.RightInverse.surjective P.onBound_symm_onBound

theorem index_lt_of_mem_map {bounds : List (Bound α)} (h : ∀ b ∈ bounds, b.index < n) :
    ∀ c ∈ bounds.map P.onBound, c.index < n := by
  intro c hc
  obtain ⟨b, hb, rfl⟩ := List.mem_map.mp hc
  exact (P.place_lt_iff b.index).mpr (h b hb)

variable (b : Bound α)

theorem gap_onBound (v : α) : (P.onBound b).gap (turn (P.flips b.index) v) = b.gap v := by
  unfold Bound.gap onBound
  rw [← turn_sub, Side.orient_turn]

theorem crossing?_onBound [LinearOrder α] (v step : α) :
    (P.onBound b).crossing? (turn (P.flips b.index) v) (turn (P.flips b.index) step) =
      b.crossing? v step := by
  unfold Bound.crossing? onBound
  simp only [← turn_add, ← turn_sub, Side.orient_turn, turn_div_turn]

theorem coordinate_onVector {v : List α} (hv : v.length = n) (hb : b.index < n) :
    coordinate (P.onVector v) (P.onBound b).index =
      (coordinate v b.index).map (turn (P.flips b.index)) := by
  have hi : b.index < v.length := by omega
  unfold coordinate onBound
  rw [P.getElem?_onVector hv, List.getElem?_eq_getElem hi]
  rfl

end Bounds

end Relabelling

end BoundedFit
