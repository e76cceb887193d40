/-!
# Machine words

Lengths and positions are signed words.
-/

namespace BoundedFit.Word

/-- A signed word of 64 bits. -/
def isSigned (i : Int) : Bool := -0x8000000000000000 ≤ i && i < 0x8000000000000000

def isUnsigned (i : Int) : Bool := 0 ≤ i && i < 0x10000000000000000

theorem isSigned_of_lt {i n : Nat} (hi : i < n) (hn : isSigned n = true) : isSigned i = true := by
  simp only [isSigned, Bool.and_eq_true, decide_eq_true_eq] at hn ⊢
  omega

end BoundedFit.Word
