import BoundedFit.ActiveSet
import BoundedFit.Bound.Slack

/-! # Iterates -/

namespace BoundedFit

/-- A point with the bounds that pin it. -/
structure Iterate (α : Type) where
  point : List α
  active : ActiveSet α

section Clamp

variable {α : Type} [Sub α] [Neg α] [Zero α] [LT α] [LE α] [DecidableLT α] [DecidableLE α]

/-- Moves the coordinate onto the bound and pins it there if the bound is violated. -/
def Iterate.clampTo (here : Iterate α) (b : Bound α) : Iterate α :=
  match here.point[b.index]? with
  | none => here
  | some v =>
    if b.gap v < 0 then ⟨here.point.set b.index b.value, here.active.insert b⟩ else here

/-- Moves a guess onto the bounds that it violates, one bound after the other. -/
def clamp (bounds : List (Bound α)) (x : List α) : Iterate α :=
  bounds.foldl Iterate.clampTo ⟨x, .empty⟩

end Clamp

/-- The bound on which a step stops, and the fraction of the step that leads there. -/
structure Block (α : Type) where
  bound : Bound α
  scale : α

section Block

variable {α : Type} [Add α] [Sub α] [Mul α] [Div α] [Neg α] [Zero α] [One α]
  [LT α] [LE α] [DecidableLT α] [DecidableLE α] [OfScientific α]

/-- Step components below this size never stop a step. -/
def negligibleStep : α := 1e-16

/-- The fraction of a step at which coordinate `v` meets the bound, if the whole step goes past
it. -/
def Bound.crossing? (b : Bound α) (v step : α) : Option α :=
  if 0 ≤ b.side.orient (v + step - b.value) then none else some ((b.value - v) / step)

/-- The fraction that a block has to stay below to be closer: one, as long as nothing blocks. -/
def Block.limit : Option (Block α) → α
  | none => 1
  | some block => block.scale

/-- The closer of the block found so far and bound `b`; of two at the same distance, the first. -/
def closerBlock (x delta : List α) (active : ActiveSet α) (closest : Option (Block α))
    (b : Bound α) : Except (Fault α) (Option (Block α)) := do
  if active.contains b then return closest
  let step ← coordinate delta b.index
  if Scalar.abs step < negligibleStep then return closest
  let v ← coordinate x b.index
  match b.crossing? v step with
  | none => return closest
  | some scale => return if scale < Block.limit closest then some ⟨b, scale⟩ else closest

/-- The first bound that the step crosses, those of the active set left out. -/
def closestBlock (bounds : List (Bound α)) (x delta : List α) (active : ActiveSet α) :
    Except (Fault α) (Option (Block α)) :=
  bounds.foldlM (closerBlock x delta active) none

def shorten (delta : List α) : Option (Block α) → List α
  | none => delta
  | some block => delta.map (· * block.scale)

/-- Puts the coordinate of the block exactly on its bound and pins it. -/
def Iterate.pin (here : Iterate α) : Option (Block α) → Iterate α
  | none => here
  | some ⟨b, _⟩ => ⟨here.point.set b.index b.value, here.active.insert b⟩

/-- Takes the step up to the bound that stops it, and puts the coordinate exactly there. -/
def Iterate.land (here : Iterate α) (delta : List α) (block : Option (Block α)) :
    Except (Fault α) (Iterate α) :=
  match Vec.zipStretched? (· + ·) here.point (shorten delta block) with
  | none => .error .lengths
  | some point => .ok (Iterate.pin ⟨point, here.active⟩ block)

end Block

end BoundedFit
