import BoundedFit.ActiveSet
import BoundedFit.Decimal.Text

/-!
# Bounds in messages
-/

namespace BoundedFit

def Bound.text (b : Bound Float) : String :=
  "BoxConstraint(index=" ++ toString b.index ++ ", value=" ++ shortestText b.value ++
    ", sign=" ++ toString b.side.sign ++ ")"

def ActiveSet.text (s : ActiveSet Float) : String :=
  "ActiveSet([" ++ String.intercalate ", " (s.toList.map Bound.text) ++ "])"

end BoundedFit
