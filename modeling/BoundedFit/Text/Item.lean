import BoundedFit.Text.Quoted

/-!
# Items

Numbers, texts, nothing, and lists of these.
-/

namespace BoundedFit

/-- What the points of a curve are labelled with. -/
inductive Item where
  | absent
  | number (n : Int)
  | text (s : String)
  | list (items : List Item)

namespace Item

mutual

def same : Item → Item → Bool
  | absent, absent => true
  | number m, number n => m == n
  | text s, text t => s == t
  | list xs, list ys => sameAll xs ys
  | _, _ => false

def sameAll : List Item → List Item → Bool
  | [], [] => true
  | x :: xs, y :: ys => same x y && sameAll xs ys
  | _, _ => false

end

instance : BEq Item := ⟨same⟩

/-- Whether the item counts as true: zero, the empty text, the empty list and nothing do not. -/
def isTruthy : Item → Bool
  | absent => false
  | number n => n != 0
  | text s => !s.isEmpty
  | list items => !items.isEmpty

mutual

def write : Item → String
  | absent => "None"
  | number n => toString n
  | text s => Quoted.text s
  | list items => "[" ++ writeAll items ++ "]"

def writeAll : List Item → String
  | [] => ""
  | [x] => write x
  | x :: y :: rest => write x ++ ", " ++ writeAll (y :: rest)

end

end Item

def truthText (b : Bool) : String := if b then "True" else "False"

end BoundedFit
