import BoundedFit.Contour.Basic

/-!
# Cursors

A cursor walks along a contour and remembers where it started.
-/

namespace BoundedFit

/-- A position, as it was counted and not reduced, and where the walk started. -/
structure Cursor where
  position : Int
  start : Int
  deriving DecidableEq, Repr

namespace Cursor

def startingAt (position : Int) : Cursor := ⟨position, position⟩

/-- A walk starts where its cursor is, unless a start is given. -/
def make (position : Int) (start : Option Int) : Cursor := ⟨position, start.getD position⟩

/-! Cursors move in place, or a new cursor with the same start is made. -/

def advance (k : Cursor) (steps : Int) : Cursor := { k with position := k.position + steps }

def retreat (k : Cursor) (steps : Int) : Cursor := { k with position := k.position - steps }

instance : HAdd Cursor Int Cursor where
  hAdd k steps := make (k.position + steps) (some k.start)

instance : HSub Cursor Int Cursor where
  hSub k steps := make (k.position - steps) (some k.start)

end Cursor

namespace Contour

variable {ι : Type}

/-- A cursor at an index that the contour has. -/
def cursor (c : Contour ι) (i : Int) : Except (Fault ι) Cursor :=
  (c.linearIndex i).map Cursor.startingAt

/-- The position of a cursor, reduced on a closed contour. -/
def indexOf (c : Contour ι) (k : Cursor) : Except (Fault ι) Int := c.linearIndex k.position

/-- A walk ends a lap away from its start, or outside an open contour. -/
def isDone (c : Contour ι) (k : Cursor) : Bool :=
  if c.closed then c.size ≤ (k.position - k.start).natAbs
  else k.position < 0 || c.size ≤ k.position

/-- The item under a cursor. An open contour does not count from the end here. -/
def valueOf (c : Contour ι) (k : Cursor) : Except (Fault ι) ι :=
  if !c.closed && c.isDone k then .error (.cursorOutside k.position) else c.get k.position

/-- Whether two cursors stand at the same index, if both have one. -/
def meet (c : Contour ι) (k l : Cursor) : Except (Fault ι) Bool := do
  let i ← c.indexOf k
  let j ← c.indexOf l
  return i == j

/-- The item under a cursor and the cursor one further on, unless the walk has ended. -/
def next (c : Contour ι) (k : Cursor) : Except (Fault ι) (Option (ι × Cursor)) :=
  if c.isDone k then .ok none else (c.valueOf k).map fun item => some (item, k.advance 1)

/-- No walk from here is longer. -/
def remaining (c : Contour ι) (k : Cursor) : Nat :=
  if c.closed then (c.size - (k.position - k.start)).toNat else (c.size - k.position).toNat

/-- The items of at most `n` steps, and the cursor after them. -/
def walk (c : Contour ι) : Nat → Cursor → Except (Fault ι) (List ι × Cursor)
  | 0, k => .ok ([], k)
  | n + 1, k => do
    match ← c.next k with
    | none => return ([], k)
    | some (item, k) =>
      let (items, last) ← c.walk n k
      return (item :: items, last)

def collect (c : Contour ι) (k : Cursor) : Except (Fault ι) (List ι × Cursor) :=
  c.walk (c.remaining k) k

end Contour

end BoundedFit
