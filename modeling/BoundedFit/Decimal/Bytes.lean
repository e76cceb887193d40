import BoundedFit.Decimal.Text

/-!
# Amounts of memory

An amount is a double before any digit is chosen, so its 53 bits decide ties.
-/

namespace BoundedFit.Bytes

def units : List String := ["bytes", "KiB", "MiB", "GiB", "TiB", "PiB", "EiB"]

/-- The nearest number of 53 significant bits; a half goes to the even neighbour. -/
def nearest (n : Nat) : Nat :=
  let spacing := Nat.pow 2 (Nat.log2 n - 52)
  (Ratio.mk n spacing).round * spacing

/-- The number of bytes in units of `1024 ^ step`, as a double. -/
def inUnit (n step : Nat) : Ratio := ⟨nearest n, Nat.pow 1024 step⟩

/-- The unit to be used; an amount that rounds to 1024 of a unit is one of the next. -/
def step (n : Nat) : Nat :=
  let step := Nat.log2 n / 10
  if (inUnit n step).round = 1024 then step + 1 else step

/-- Three digits, or the whole part if it is longer; the point is always written. -/
def amountText (q : Ratio) : String :=
  if q.round < 1000 then
    let d := Decimal.ofRatio 2 q
    let parts := Decimal.split d.digits d.exponent
    String.ofList (parts.1 ++ '.' :: parts.2)
  else toString q.round ++ "."

def text (n : Nat) : String :=
  let unit := units.getD (step n) "EiB"
  if step n = 0 then toString n ++ " " ++ unit
  else amountText (inUnit n (step n)) ++ " " ++ unit

end BoundedFit.Bytes
