import BoundedFit.Linear.Tensor.Basic

/-!
# Products and sums of arrays of any rank

Entries are addressed by positions, one index for each axis.
-/

namespace BoundedFit.Tensor

variable {α : Type}

/-- All positions of an array, the last axis moving fastest. -/
def positions : List Nat → List (List Nat)
  | [] => [[]]
  | n :: shape => (List.range n).flatMap fun i => (positions shape).map (i :: ·)

theorem length_positions (shape : List Nat) : (positions shape).length = volume shape := by
  induction shape with
  | nil => rfl
  | cons n shape ih =>
    simp [positions, List.length_flatMap, ih, List.map_const']

def ofFn (shape : List Nat) (entry : List Nat → α) : Tensor α :=
  ⟨shape, (positions shape).map entry, by rw [List.length_map, length_positions]⟩

/-- The place of a position in row-major order. -/
def offset : List Nat → List Nat → Nat
  | _ :: shape, i :: position => i * volume shape + offset shape position
  | _, _ => 0

section Entries

variable [Zero α]

def entryAt (t : Tensor α) (position : List Nat) : α :=
  t.entries.getD (offset t.shape position) 0

/-- All axes in reverse order. -/
def transpose (t : Tensor α) : Tensor α :=
  ofFn t.shape.reverse fun position => t.entryAt position.reverse

end Entries

/-! ## Matching axes -/

/-- The lengths of the common axes of two arrays, given from the last axis on. -/
def commonAxes? : List Nat → List Nat → Option (List Nat)
  | [], t => some t
  | s, [] => some s
  | m :: s, n :: t =>
    if m = n ∨ n = 1 then (commonAxes? s t).map (m :: ·)
    else if m = 1 then (commonAxes? s t).map (n :: ·)
    else none

/-- The position in an array of this shape that stands for a position of the common shape. -/
def clip (shape position : List Nat) : List Nat :=
  (List.zipWith (fun n i => if n = 1 then 0 else i) shape.reverse position.reverse).reverse

/-- Combines two arrays entry by entry. Axes are matched from the last one on, and one that is missing
or of length one is repeated. -/
def zip? [Zero α] (f : α → α → α) (s t : Tensor α) : Option (Tensor α) :=
  (commonAxes? s.shape.reverse t.shape.reverse).map fun axes =>
    ofFn axes.reverse fun position =>
      f (s.entryAt (clip s.shape position)) (t.entryAt (clip t.shape position))

/-! ## Products -/

section Product

variable [Add α] [Mul α] [Zero α]

def contract (n : Nat) (u v : Nat → α) : α := Vec.sum ((List.range n).map fun c => u c * v c)

/-- Contracts the last axis of `a` with the last but one of `b`; a vector is a row or a column. -/
def product? (a b : Tensor α) : Option (Tensor α) :=
  match a.shape.reverse, b.shape.reverse with
  | [], _ => none
  | _, [] => none
  | [k], [l] =>
    if k = l then some (scalar (contract k (fun c => a.entryAt [c]) fun c => b.entryAt [c]))
    else none
  | [k], n :: l :: outer =>
    if k = l then
      some (ofFn (outer.reverse ++ [n]) fun position =>
        contract k (fun c => a.entryAt [c]) fun c =>
          b.entryAt (position.dropLast ++ [c, position.getLastD 0]))
    else none
  | k :: m :: outer, [l] =>
    if k = l then
      some (ofFn (outer.reverse ++ [m]) fun position =>
        contract k (fun c => a.entryAt (position ++ [c])) fun c => b.entryAt [c])
    else none
  | k :: m :: s, n :: l :: t =>
    if k = l then
      (commonAxes? s t).map fun outer =>
        ofFn (outer.reverse ++ [m, n]) fun position =>
          let place := position.take outer.length
          let i := position.getD outer.length 0
          let j := position.getD (outer.length + 1) 0
          contract k (fun c => a.entryAt (clip s.reverse place ++ [i, c])) fun c =>
            b.entryAt (clip t.reverse place ++ [c, j])
    else none

end Product

end BoundedFit.Tensor
