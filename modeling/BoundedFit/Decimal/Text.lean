import BoundedFit.Decimal.Shortest

/-! # The three ways a double is written -/

namespace BoundedFit

namespace Decimal

/-- A sign and at least two digits. -/
def exponentText (e : Int) : String :=
  let written := Nat.toDigits 10 e.natAbs
  (if e < 0 then "e-" else "e+") ++
    String.ofList (List.replicate (2 - written.length) '0' ++ written)

def dropTrailingZeros (digits : List Char) : List Char :=
  (digits.reverse.dropWhile (· == '0')).reverse

/-- The digits before and after the point. -/
def split (digits : List Char) (exponent : Int) : List Char × List Char :=
  if exponent < 0 then
    (['0'], List.replicate ((-exponent).toNat - 1) '0' ++ digits)
  else
    let whole := exponent.toNat + 1
    (digits.take whole ++ List.replicate (whole - digits.length) '0', digits.drop whole)

/-- Both parts, with a point only where digits follow it. -/
def joinParts (parts : List Char × List Char) : String :=
  String.ofList (if parts.2.isEmpty then parts.1 else parts.1 ++ '.' :: parts.2)

def scientific (d : Decimal) : String :=
  joinParts (split d.digits 0) ++ exponentText d.exponent

/-- Without trailing zeros; positional for the exponents from `-4` up to, but not including,
`limit`. -/
def compact (limit : Int) (d : Decimal) : String :=
  if -4 ≤ d.exponent ∧ d.exponent < limit then
    let parts := split d.digits d.exponent
    joinParts (parts.1, dropTrailingZeros parts.2)
  else
    let parts := split d.digits 0
    joinParts (parts.1, dropTrailingZeros parts.2) ++ exponentText d.exponent

/-- As `compact` below `10 ^ 16`, but a whole number keeps one zero after the point. -/
def recognisable (d : Decimal) : String :=
  if -4 ≤ d.exponent ∧ d.exponent < 16 then
    let parts := split d.digits d.exponent
    let fraction := dropTrailingZeros parts.2
    joinParts (parts.1, if fraction.isEmpty then ['0'] else fraction)
  else
    d.compact 16

end Decimal

/-- Exactly `places` digits after the point. -/
def scientificText (places : Nat) (v : Float) : String :=
  (Binary64.ofFloat v).text fun mantissa exponent =>
    (Decimal.ofRatio places (Binary64.magnitude mantissa exponent)).scientific

/-- At most `precision` significant digits. -/
def generalText (precision : Nat) (v : Float) : String :=
  (Binary64.ofFloat v).text fun mantissa exponent =>
    (Decimal.ofRatio (precision - 1) (Binary64.magnitude mantissa exponent)).compact precision

/-- The fewest digits that read back. -/
def shortestText (v : Float) : String :=
  (Binary64.ofFloat v).text fun mantissa exponent =>
    (Decimal.shortest mantissa exponent).recognisable

end BoundedFit
