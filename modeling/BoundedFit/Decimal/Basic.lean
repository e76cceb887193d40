/-!
# Decimals

All arithmetic is exact, so the digits never depend on how a ratio was computed.
-/

namespace BoundedFit

/-- The non-negative number `num / den`. -/
structure Ratio where
  num : Nat
  den : Nat

/-- The number `d.ddd · 10 ^ exponent`: `significand` has `places` digits after its first one. -/
structure Decimal where
  significand : Nat
  places : Nat
  exponent : Int
  deriving DecidableEq, Repr

namespace Ratio

/-- The number `n * base ^ e`. -/
def ofPower (base n : Nat) (e : Int) : Ratio :=
  if 0 ≤ e then ⟨n * Nat.pow base e.toNat, 1⟩ else ⟨n, Nat.pow base (-e).toNat⟩

/-- Times ten to the power of `k`. -/
def shift (q : Ratio) (k : Int) : Ratio :=
  if 0 ≤ k then ⟨q.num * Nat.pow 10 k.toNat, q.den⟩ else ⟨q.num, q.den * Nat.pow 10 (-k).toNat⟩

def le (p q : Ratio) : Bool := p.num * q.den ≤ q.num * p.den

def lt (p q : Ratio) : Bool := p.num * q.den < q.num * p.den

def floor (q : Ratio) : Nat := q.num / q.den

/-- The nearest natural number; a half goes to the even neighbour. -/
def round (q : Ratio) : Nat :=
  let low := q.num / q.den
  let rest := 2 * (q.num % q.den)
  if q.den < rest ∨ (q.den = rest ∧ low % 2 = 1) then low + 1 else low

def digitCount (n : Nat) : Nat := (Nat.toDigits 10 n).length

/-- The exponent of the first digit of a positive ratio. The two digit counts place the ratio
between `10 ^ (guess - 1)` and `10 ^ (guess + 1)`, so one comparison decides. -/
def leading (q : Ratio) : Int :=
  let guess : Int := digitCount q.num - digitCount q.den
  if (q.shift (-guess)).den ≤ (q.shift (-guess)).num then guess else guess - 1

end Ratio

namespace Decimal

/-- The decimal of grid point `n`; a carry into a new digit moves the exponent. -/
def ofGrid (places : Nat) (exponent : Int) (n : Nat) : Decimal :=
  if n = Nat.pow 10 (places + 1) then ⟨Nat.pow 10 places, places, exponent + 1⟩
  else ⟨n, places, exponent⟩

/-- The nearest decimal with `places + 1` digits. -/
def ofRatio (places : Nat) (q : Ratio) : Decimal :=
  if q.num = 0 then ⟨0, places, 0⟩
  else ofGrid places q.leading (q.shift (places - q.leading)).round

/-- All digits, with the zeros that a zero significand lacks. -/
def digits (d : Decimal) : List Char :=
  let written := Nat.toDigits 10 d.significand
  List.replicate (d.places + 1 - written.length) '0' ++ written

end Decimal

end BoundedFit
