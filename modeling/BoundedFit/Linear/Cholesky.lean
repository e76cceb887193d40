import BoundedFit.Linear.Matrix

/-!
# Cholesky factorisation

One pivot at a time; a pivot that is not positive ends it.
-/

namespace BoundedFit.Cholesky

variable {α : Type}

/-- One column of the lower triangular factor: its diagonal entry and the entries below. -/
structure Column (α : Type) where
  pivot : α
  below : List α

variable [Add α] [Sub α] [Mul α] [Div α] [Zero α]

/-- What is left of the rows below the first one once its share is taken off. -/
def remainder (below : List α) (rest : List (List α)) : List (List α) :=
  List.zipWith (fun row l => List.zipWith (fun v m => v - l * m) row.tail below) rest below

/-- The factor of the first `n` rows and columns. -/
def factor? [LT α] [DecidableLT α] [Scalar α] : Nat → List (List α) → Option (List (Column α))
  | n + 1, (d :: _) :: rest =>
    if 0 < d then
      let pivot := Scalar.sqrt d
      let below := rest.map fun row => row.headD 0 / pivot
      (factor? n (remainder below rest)).map (⟨pivot, below⟩ :: ·)
    else none
  | _, _ => some []

/-- Solves `L y = b`. -/
def forward : List (Column α) → List α → List α
  | c :: factor, v :: b =>
    let y := v / c.pivot
    y :: forward factor (List.zipWith (fun w l => w - l * y) b c.below)
  | _, _ => []

/-- Solves `Lᵀ x = y`. -/
def backward : List (Column α) → List α → List α
  | c :: factor, v :: y =>
    let x := backward factor y
    (v - Vec.dot c.below x) / c.pivot :: x
  | _, _ => []

/-- Solves `L Lᵀ x = b`. -/
def solve (factor : List (Column α)) (b : List α) : List α := backward factor (forward factor b)

end BoundedFit.Cholesky
