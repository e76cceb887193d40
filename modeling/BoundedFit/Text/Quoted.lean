import BoundedFit.Text.Printable

/-!
# Quoted text

The quote in use, the backslash and what does not show are escaped.
-/

namespace BoundedFit.Quoted

def hexDigits (width n : Nat) : List Char :=
  let written := Nat.toDigits 16 n
  List.replicate (width - written.length) '0' ++ written

/-- The escape of a code point: two, four or eight digits, as few as it fits in. -/
def escapeCode (n : Nat) : List Char :=
  if n < 0x100 then '\\' :: 'x' :: hexDigits 2 n
  else if n < 0x10000 then '\\' :: 'u' :: hexDigits 4 n
  else '\\' :: 'U' :: hexDigits 8 n

/-- One character as it is written between two `quote`s. -/
def escape (quote c : Char) : List Char :=
  if c = quote ∨ c = '\\' then ['\\', c]
  else if c = '\n' then ['\\', 'n']
  else if c = '\t' then ['\\', 't']
  else if c = '\r' then ['\\', 'r']
  else if Printable.isHidden c then escapeCode c.toNat
  else [c]

/-- Single quotes, unless the text contains one and no double quote. -/
def quoteFor (text : List Char) : Char :=
  if text.contains '\'' && !text.contains '"' then '"' else '\''

def encode (text : List Char) : List Char :=
  let quote := quoteFor text
  quote :: (text.flatMap (escape quote) ++ [quote])

def text (s : String) : String := String.ofList (encode s.toList)

end BoundedFit.Quoted
