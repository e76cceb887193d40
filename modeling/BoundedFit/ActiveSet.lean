import BoundedFit.Fault.Basic

/-! # Active sets -/

namespace BoundedFit

/-- The bounds that pin a coordinate, in order and without two that are the same. -/
structure ActiveSet (α : Type) where
  members : List (Bound α)
  deriving Repr

namespace ActiveSet

variable {α : Type}

def empty : ActiveSet α := ⟨[]⟩

def toList (s : ActiveSet α) : List (Bound α) := s.members

def size (s : ActiveSet α) : Nat := s.members.length

def isEmpty (s : ActiveSet α) : Bool := s.members.isEmpty

def filter (keep : Bound α → Bool) (s : ActiveSet α) : ActiveSet α := ⟨s.members.filter keep⟩

/-- The pinned coordinates, each once, in increasing order. -/
def indices (s : ActiveSet α) : List Nat := (s.members.map Bound.index).eraseDups

/-- As `indices`, refused if one of them is no signed word. -/
def wordIndices (s : ActiveSet α) : Except (Fault α) (List Nat) :=
  if s.indices.all fun i => Word.isSigned i then .ok s.indices else .error .wordOverflow

/-- Which of the first `n` coordinates no member pins. -/
def freeMask (s : ActiveSet α) (n : Nat) : Except (Fault α) (List Bool) :=
  match s.members.find? (n ≤ ·.index) with
  | some b => .error (.noPosition b.index)
  | none => .ok ((List.range n).map fun i => !s.members.any (·.index == i))

/-- As `freeMask`, for a size that has not been checked; `allocates n` says whether memory for `n` entries
can be had. -/
def freeMaskOfSize (allocates : Nat → Bool) (s : ActiveSet α) (n : Int) :
    Except (Fault α) (List Bool) :=
  if !Word.isSigned n then .error .sizeLimit
  else if n < 0 then .error .negativeSize
  else if allocates n.toNat then s.freeMask n.toNat
  else .error (.outOfMemory n.toNat)

variable [LT α] [LE α] [DecidableLT α] [DecidableLE α]

/-- A bound that is the same as a member counts as one, whatever the sign of a zero. -/
def contains (s : ActiveSet α) (b : Bound α) : Bool := s.members.any b.same

/-- In front of the first bound that `b` comes before. -/
def insertSorted (b : Bound α) : List (Bound α) → List (Bound α)
  | [] => [b]
  | c :: rest => if b.before c then b :: c :: rest else c :: insertSorted b rest

/-- Adding a bound that is the same as a member leaves the member in place. -/
def insert (s : ActiveSet α) (b : Bound α) : ActiveSet α :=
  if s.contains b then s else ⟨insertSorted b s.members⟩

def ofList (bounds : List (Bound α)) : ActiveSet α := bounds.foldl insert empty

/-- Takes a bound out if it is a member. -/
def erase (s : ActiveSet α) (b : Bound α) : ActiveSet α := s.filter fun c => !b.same c

/-- Takes a bound out that has to be a member. -/
def remove (s : ActiveSet α) (b : Bound α) : Except (Fault α) (ActiveSet α) :=
  if s.contains b then .ok (s.erase b) else .error (.notActive b)

def same (s t : ActiveSet α) : Bool := s.size == t.size && s.members.all t.contains

omit [LT α] [LE α] [DecidableLT α] [DecidableLE α] in
theorem isEmpty_iff (s : ActiveSet α) : s.isEmpty = true ↔ s.members = [] := by
  simp [isEmpty]

theorem mem_insertSorted (b c : Bound α) (l : List (Bound α)) :
    c ∈ insertSorted b l ↔ c = b ∨ c ∈ l := by
  induction l with
  | nil => simp [insertSorted]
  | cons d rest ih => simp only [insertSorted]; split <;> simp [ih, or_left_comm]

end ActiveSet

end BoundedFit
