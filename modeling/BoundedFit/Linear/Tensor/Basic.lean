import BoundedFit.Linear.Matrix

/-!
# Arrays of any rank

Functions that need a vector or a matrix ask for one.
-/

namespace BoundedFit

def volume (shape : List Nat) : Nat := shape.foldr (· * ·) 1

@[simp] theorem volume_nil : volume [] = 1 := rfl

/-- An array of any rank, with its entries in row-major order. -/
@[simp] theorem volume_cons (n : Nat) (shape : List Nat) : volume (n :: shape) = n * volume shape := rfl

structure Tensor (α : Type) where
  shape : List Nat
  entries : List α
  length_entries : entries.length = volume shape

namespace Tensor

variable {α β : Type}

def ofShape? (shape : List Nat) (entries : List α) : Option (Tensor α) :=
  if h : entries.length = volume shape then some ⟨shape, entries, h⟩ else none

def scalar (v : α) : Tensor α := ⟨[], [v], rfl⟩

def ofVector (v : List α) : Tensor α := ⟨[v.length], v, by simp⟩

def rank (t : Tensor α) : Nat := t.shape.length

def map (f : α → β) (t : Tensor α) : Tensor β :=
  ⟨t.shape, t.entries.map f, by simp [t.length_entries]⟩

/-! ## Vectors and matrices -/

def toScalar? (t : Tensor α) : Option α :=
  match t.shape, t.entries with
  | [], [v] => some v
  | _, _ => none

def toVector? (t : Tensor α) : Option (List α) :=
  match t.shape with
  | [_] => some t.entries
  | _ => none

/-- Cuts a list into `height` pieces of length `cols`. -/
def pieces (cols : Nat) : Nat → List α → List (List α)
  | 0, _ => []
  | height + 1, entries => entries.take cols :: pieces cols height (entries.drop cols)

theorem length_of_mem_pieces (cols height : Nat) (entries : List α)
    (h : entries.length = height * cols) :
    ∀ row ∈ pieces cols height entries, row.length = cols := by
  induction height generalizing entries with
  | zero => simp [pieces]
  | succ height ih =>
    have hc : (height + 1) * cols = height * cols + cols := by rw [Nat.add_mul, Nat.one_mul]
    simp only [pieces, List.mem_cons, forall_eq_or_imp, List.length_take]
    exact ⟨by omega, ih _ (by simp only [List.length_drop]; omega)⟩

def toMatrix? (t : Tensor α) : Option (DenseMatrix α) :=
  match h : t.shape with
  | [height, cols] =>
    some ⟨cols, pieces cols height t.entries,
      length_of_mem_pieces cols height t.entries (by rw [t.length_entries, h]; simp)⟩
  | _ => none

/-! ## The first axis -/

/-- The array at position `i` of the first axis. -/
def row? (t : Tensor α) (i : Nat) : Option (Tensor α) :=
  match h : t.shape with
  | [] => none
  | n :: inner =>
    if hi : i < n then
      some ⟨inner, (t.entries.drop (i * volume inner)).take (volume inner), by
        have hs := Nat.mul_le_mul_right (volume inner) hi
        rw [Nat.succ_mul] at hs
        rw [List.length_take, List.length_drop, t.length_entries, h, volume_cons]
        omega⟩
    else none

/-- Changes the entries at position `i` of the first axis, if there is such a position. -/
def mapRow? (t : Tensor α) (i : Nat) (f : α → α) : Option (Tensor α) :=
  match t.shape with
  | [] => none
  | n :: inner =>
    if i < n then
      let change (p : Nat) (v : α) : α := if p / volume inner = i then f v else v
      some ⟨t.shape, t.entries.mapIdx change, by simp [t.length_entries]⟩
    else none

/-- No array has more axes. -/
def maxRank : Nat := 64

/-- Puts arrays of one shape on top of each other along a new first axis. -/
def stack? (rows : List (Tensor α)) : Option (Tensor α) :=
  match rows with
  | [] => some (ofVector [])
  | t :: _ =>
    if rows.all (·.shape == t.shape) && t.rank < maxRank then
      ofShape? (rows.length :: t.shape) (rows.flatMap entries)
    else none

/-! ## Text -/

/-- The shape in parentheses, where a single length keeps its comma. -/
def shapeText : List Nat → String
  | [n] => "(" ++ toString n ++ ",)"
  | shape => "(" ++ String.intercalate ", " (shape.map toString) ++ ")"

/-! ## Vectors as arrays -/

theorem toVector?_ofVector (v : List α) : (ofVector v).toVector? = some v := rfl

theorem row?_ofVector (v : List α) (i : Nat) : (ofVector v).row? i = v[i]?.map scalar := by
  by_cases h : i < v.length
  · have hd : (v.drop i).take 1 = [v[i]] := by
      rw [List.drop_eq_getElem_cons h]; rfl
    simp [row?, ofVector, scalar, h, hd]
  · simp [row?, ofVector, h]

end Tensor

end BoundedFit
