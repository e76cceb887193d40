import BoundedFit.Contour.Cursor
import BoundedFit.Text.Item

/-!
# Contours and cursors as text
-/

namespace BoundedFit.Contour

def text (c : Contour Item) : String :=
  "CircularSequence([" ++ Item.writeAll c.items ++ "], circular=" ++ truthText c.closed ++ ")"

/-- The position of the cursor, reduced on a closed contour, and where its walk started. -/
def cursorText (c : Contour Item) (k : Cursor) : Except (Fault Item) String :=
  (c.indexOf k).map fun i =>
    "Circulator(index=" ++ toString i ++ ", start=" ++ toString k.start ++ ")"

end BoundedFit.Contour
