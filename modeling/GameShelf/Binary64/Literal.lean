import GameShelf.Binary64.Nearest
import GameShelf.Numeral
import GameShelf.Text.Case

namespace GameShelf.Binary64

/-- An exponent of ten: decimal digits, optionally behind a sign. -/
def readExponent : Text → Option Int
  | '-' :: t => (Numeral.ofDigits? t).map fun n => -(n : Int)
  | '+' :: t => (Numeral.ofDigits? t).map Int.ofNat
  | t => (Numeral.ofDigits? t).map Int.ofNat

/-- Digits with at most one point, at least one of them a digit, and optionally an exponent. -/
def readDecimal (t : Text) : Option Nat :=
  let (whole, rest) := t.span Char.isDigit
  let (decimals, rest) := match rest with
    | '.' :: rest => rest.span Char.isDigit
    | _ => ([], rest)
  (Numeral.ofDigits? (whole ++ decimals)).bind fun digits =>
    match rest with
    | [] => some (ofDecimal digits (-decimals.length))
    | e :: rest =>
      if e = 'e' ∨ e = 'E' then
        (readExponent rest).map fun n => ofDecimal digits (n - decimals.length)
      else none

def readUnsigned (negative : Bool) (t : Text) : Option Binary64 :=
  let word := Text.asciiLower t
  if word = "inf".toList ∨ word = "infinity".toList then some (ofMagnitude negative infinite)
  else if word = "nan".toList then some (notANumber negative)
  else (readDecimal t).map (ofMagnitude negative)

/-- The number that a text denotes: the nearest one to its decimal, or infinity, or none at all,
each optionally behind a sign. -/
def read : Text → Option Binary64
  | '-' :: t => readUnsigned true t
  | '+' :: t => readUnsigned false t
  | t => readUnsigned false t

end GameShelf.Binary64
