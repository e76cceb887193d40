import BoundedFit.Decimal.Basic

/-! # Doubles taken apart -/

namespace BoundedFit

/-- A double, decoded. A finite one is `± mantissa · 2 ^ exponent`. -/
inductive Binary64 where
  | nan
  | infinite (negative : Bool)
  | finite (negative : Bool) (mantissa : Nat) (exponent : Int)
  deriving DecidableEq, Repr

namespace Binary64

/-- The smallest mantissa that has all 53 bits. -/
def normalMantissa : Nat := Nat.pow 2 52

/-- The exponent shared by zero, the subnormal numbers and the smallest normal ones. -/
def leastExponent : Int := -1074

/-- A sign bit, eleven bits for the exponent and 52 for the mantissa. -/
def ofBits (bits : Nat) : Binary64 :=
  let negative := decide (bits / Nat.pow 2 63 % 2 = 1)
  let stored : Nat := bits / Nat.pow 2 52 % Nat.pow 2 11
  let fraction := bits % Nat.pow 2 52
  if stored = 2047 then
    if fraction = 0 then infinite negative else nan
  else if stored = 0 then finite negative fraction leastExponent
  else finite negative (normalMantissa + fraction) (leastExponent + stored - 1)

def ofFloat (v : Float) : Binary64 := ofBits v.toBits.toNat

def magnitude (mantissa : Nat) (exponent : Int) : Ratio := Ratio.ofPower 2 mantissa exponent

/-- The text of a number whose finite magnitudes are written by `write`. -/
def text (write : Nat → Int → String) : Binary64 → String
  | nan => "nan"
  | infinite negative => (if negative then "-" else "") ++ "inf"
  | finite negative mantissa exponent =>
    (if negative then "-" else "") ++ write mantissa exponent

end Binary64

end BoundedFit
