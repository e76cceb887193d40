import BoundedFit.Fault.Basic

/-!
# Contours

On an open contour a negative index counts from the end.
-/

namespace BoundedFit

/-- The points of a curve, in order. On a closed one every index is taken modulo the length. -/
structure Contour (ι : Type) where
  items : List ι
  closed : Bool

namespace Contour

inductive Fault (ι : Type) where
  | emptyLoop
  /-- An index that is no signed word. -/
  | unaddressable
  | noPosition
  | noTarget
  /-- A cursor that has left an open contour. -/
  | cursorOutside (position : Int)
  | zeroStep
  | notFound (item : ι)

namespace Fault

variable {ι : Type}

/-- Only a step of zero and an item that is not there are blamed on the arguments. -/
def kind : Fault ι → BoundedFit.Fault.Kind
  | emptyLoop | unaddressable | noPosition | noTarget | cursorOutside _ => .index
  | zeroStep | notFound _ => .argument

def text (write : ι → String) : Fault ι → String
  | emptyLoop => "cannot index an empty circular sequence"
  | unaddressable => "cannot fit 'int' into an index-sized integer"
  | noPosition => "list index out of range"
  | noTarget => "list assignment index out of range"
  | cursorOutside position => "circulator index " ++ toString position ++ " is out of range"
  | zeroStep => "slice step cannot be zero"
  | notFound item => write item ++ " is not in list"

end Fault

variable {ι : Type}

def size (c : Contour ι) : Nat := c.items.length

/-- The index as the underlying list sees it. -/
def linearIndex (c : Contour ι) (i : Int) : Except (Fault ι) Int :=
  if c.closed then
    if c.items.isEmpty then .error .emptyLoop else .ok (i % c.size)
  else .ok i

/-! ## Reading and writing -/

/-- The position that an index of a list of length `n` stands for. -/
def position? (n : Nat) (i : Int) : Option Nat :=
  let p := if i < 0 then i + n else i
  if 0 ≤ p ∧ p < n then some p.toNat else none

/-- The item at an index of the underlying list, whether the contour is closed or not. -/
def flatGet (c : Contour ι) (i : Int) : Except (Fault ι) ι :=
  if Word.isSigned i then
    match (position? c.size i).bind (c.items[·]?) with
    | some item => .ok item
    | none => .error .noPosition
  else .error .unaddressable

def get (c : Contour ι) (i : Int) : Except (Fault ι) ι := do
  let i ← c.linearIndex i
  c.flatGet i

/-- Writes where `get` reads. -/
def set (c : Contour ι) (i : Int) (item : ι) : Except (Fault ι) (Contour ι) := do
  let i ← c.linearIndex i
  if Word.isSigned i then
    match position? c.size i with
    | some p => return { c with items := c.items.set p item }
    | none => throw .noTarget
  else throw .unaddressable

/-! ## Slices -/

/-- A limit of a slice, moved into the range from `low` to `high`. -/
def sliceLimit (n low high : Int) : Int → Int
  | i => if i < 0 then max (i + n) low else min i high

/-- The positions of a slice of a list of length `n`; omitted limits reach to the ends. -/
def slicePositions (n : Nat) (start stop : Option Int) (step : Int) : List Nat :=
  let low : Int := if 0 < step then 0 else -1
  let high : Int := if 0 < step then n else n - 1
  let first := (start.map (sliceLimit n low high)).getD (if 0 < step then low else high)
  let last := (stop.map (sliceLimit n low high)).getD (if 0 < step then high else low)
  let count : Int :=
    if 0 < step then (last - first + step - 1) / step else (first - last - step - 1) / -step
  (List.range count.toNat).map fun k : Nat => (first + k * step).toNat

/-- The items of a slice; whether the contour is closed does not matter. -/
def slice (c : Contour ι) (start stop step : Option Int) : Except (Fault ι) (List ι) :=
  let step := step.getD 1
  if step = 0 then .error .zeroStep
  else .ok ((slicePositions c.size start stop step).filterMap (c.items[·]?))

/-! ## Searching -/

/-- A limit of a search: a negative one counts from the end, and none lies before the start. -/
def searchLimit (n : Nat) (i : Int) : Int := if i < 0 then max (i + n) 0 else i

/-- The first position of an item, from `start` up to, but not including, `stop`. -/
def find (c : Contour ι) [BEq ι] (item : ι) (start : Int) (stop : Option Int) :
    Except (Fault ι) Nat :=
  let first := searchLimit c.size start
  let last := searchLimit c.size (stop.getD c.size)
  match c.items.zipIdx.find? fun (x, p) => first ≤ p && p < last && x == item with
  | some (_, p) => .ok p
  | none => .error (.notFound item)

def contains [BEq ι] (c : Contour ι) (item : ι) : Bool := c.items.any (· == item)

def count [BEq ι] (c : Contour ι) (item : ι) : Nat := c.items.countP (· == item)

def same [BEq ι] (c d : Contour ι) : Bool := c.closed == d.closed && c.items == d.items

/-! ## Windows -/

/-- The number of positions that start a window of `offset + 1` items: all of them on a closed
contour, all but the last `offset` on an open one. -/
def windowStarts (c : Contour ι) (offset : Int) : Nat :=
  if c.closed then c.size else (c.size - offset).toNat

end Contour

end BoundedFit
