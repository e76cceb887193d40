import BoundedFit.Linear.Vec

/-! # Dense matrices -/

namespace BoundedFit

/-- The rows together with the number of columns, so a matrix without rows still has a width. -/
structure DenseMatrix (α : Type) where
  cols : Nat
  rows : List (List α)
  length_of_mem : ∀ row ∈ rows, row.length = cols := by simp

namespace DenseMatrix

variable {α : Type}

def empty : DenseMatrix α := ⟨0, [], by simp⟩

def height (A : DenseMatrix α) : Nat := A.rows.length

def ofFn (height cols : Nat) (entry : Nat → Nat → α) : DenseMatrix α where
  cols := cols
  rows := (List.range height).map fun i => (List.range cols).map (entry i)
  length_of_mem := by simp

section Columns

variable [Zero α]

def column (A : DenseMatrix α) (j : Nat) : List α := A.rows.map fun row => row.getD j 0

def columns (A : DenseMatrix α) : List (List α) := (List.range A.cols).map A.column

theorem length_column (A : DenseMatrix α) (j : Nat) : (A.column j).length = A.height := by
  simp [column, height]

end Columns

/-- The entries of `row` where `kept` is true. -/
def keep (kept : List Bool) (row : List α) : List α :=
  ((row.zip kept).filter Prod.snd).map Prod.fst

theorem length_keep (kept : List Bool) (row : List α) (h : row.length = kept.length) :
    (keep kept row).length = kept.count true := by
  induction row generalizing kept with
  | nil => cases kept <;> simp_all [keep]
  | cons v row ih =>
    cases kept with
    | nil => simp at h
    | cons b kept =>
      have := ih kept (by simpa using h)
      cases b <;> simp_all [keep]

/-- The columns at the coordinates that are kept. -/
def select (A : DenseMatrix α) (kept : List Bool) (h : kept.length = A.cols) : DenseMatrix α where
  cols := kept.count true
  rows := A.rows.map (keep kept)
  length_of_mem := by
    simp only [List.mem_map, forall_exists_index, and_imp, forall_apply_eq_imp_iff₂]
    intro row hrow
    exact length_keep kept row ((A.length_of_mem row hrow).trans h.symm)

theorem height_select (A : DenseMatrix α) (kept : List Bool) (h : kept.length = A.cols) :
    (A.select kept h).height = A.height := by
  simp [select, height]

section Products

variable [Add α] [Mul α] [Zero α]

def mulVec (A : DenseMatrix α) (v : List α) : List α := A.rows.map (Vec.dot · v)

def transposeMulVec (A : DenseMatrix α) (u : List α) : List α := A.columns.map (Vec.dot · u)

theorem length_mulVec (A : DenseMatrix α) (v : List α) : (A.mulVec v).length = A.height := by
  simp [mulVec, height]

theorem length_transposeMulVec (A : DenseMatrix α) (u : List α) :
    (A.transposeMulVec u).length = A.cols := by
  simp [transposeMulVec, columns]

end Products

end DenseMatrix

end BoundedFit
