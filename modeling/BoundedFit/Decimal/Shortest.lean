import BoundedFit.Decimal.Binary

/-! # The fewest digits that read back -/

namespace BoundedFit

namespace Binary64

/-- Whether `q` rounds to the double `mantissa · 2 ^ exponent`. The interval ends halfway to the
neighbouring doubles, the lower of which is closer at a power of two; the ends belong to it when
the mantissa is even. -/
def readsBack (mantissa : Nat) (exponent : Int) (q : Ratio) : Bool :=
  let below := if mantissa = normalMantissa ∧ leastExponent < exponent then 1 else 2
  let low := Ratio.ofPower 2 (4 * mantissa - below) (exponent - 2)
  let high := Ratio.ofPower 2 (4 * mantissa + 2) (exponent - 2)
  if mantissa % 2 = 0 then low.le q && q.le high else low.lt q && q.lt high

end Binary64

namespace Decimal

/-- Enough digits to tell any two doubles apart. -/
def distinguishingPlaces : Nat := 16

/-- A decimal with `places + 1` digits that reads back, the nearest if there is a choice. -/
def shortestAt? (mantissa : Nat) (exponent : Int) (places : Nat) : Option Decimal :=
  let value := Binary64.magnitude mantissa exponent
  let lead := value.leading
  let scaled := value.shift (places - lead)
  let hits (n : Nat) := Binary64.readsBack mantissa exponent (Ratio.ofPower 10 n (lead - places))
  ([scaled.round, scaled.floor, scaled.floor + 1].find? hits).map (ofGrid places lead)

/-- The decimal with the fewest digits that lies in the interval of the double, and of those the
nearest. If any point of a grid lies in the interval, one of the two neighbours of the double does. -/
def shortest (mantissa : Nat) (exponent : Int) : Decimal :=
  if mantissa = 0 then ⟨0, 0, 0⟩
  else
    ((List.range (distinguishingPlaces + 1)).findSome? (shortestAt? mantissa exponent)).getD
      (ofRatio distinguishingPlaces (Binary64.magnitude mantissa exponent))

end Decimal

end BoundedFit
