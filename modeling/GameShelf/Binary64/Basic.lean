namespace GameShelf

/-- A real number as sixty-four bits: a sign, eleven bits of exponent, fifty-two of fraction. -/
structure Binary64 where
  bits : UInt64
deriving DecidableEq

namespace Binary64

/-- The value of the sign's bit. -/
def signBit : Nat := 0x8000000000000000

/-- The value of the exponent's lowest bit, above the bits of the fraction. -/
def exponentBit : Nat := 0x10000000000000

def isNegative (x : Binary64) : Bool := signBit ≤ x.bits.toNat

/-- The bits below the sign. They order the magnitudes. -/
def magnitude (x : Binary64) : Nat := x.bits.toNat % signBit

def ofMagnitude (negative : Bool) (m : Nat) : Binary64 :=
  ⟨UInt64.ofNat (if negative then signBit + m else m)⟩

/-- The magnitude above all finite ones. -/
def infinite : Nat := 2047 * exponentBit

def notANumber (negative : Bool) : Binary64 := ofMagnitude negative (infinite + exponentBit / 2)

def isNaN (x : Binary64) : Bool := infinite < x.magnitude

def isFinite (x : Binary64) : Bool := x.magnitude < infinite

def significand (m : Nat) : Nat :=
  if m < exponentBit then m else exponentBit + m % exponentBit

/-- The value of a finite magnitude, counted in the least positive one. -/
def units (m : Nat) : Nat := significand m * Nat.pow 2 (m / exponentBit - 1)

/-- How many of the least positive values make one. -/
def unitsPerOne : Nat := Nat.pow 2 1074

/-- The place of a number in the order, with both zeros in one place. -/
def rank (x : Binary64) : Int := if x.isNegative then -(x.magnitude : Int) else x.magnitude

/-- The order of numbers; what is not a number has no place in it. -/
def compare? (x y : Binary64) : Option Ordering :=
  if x.isNaN || y.isNaN then none else some (compare x.rank y.rank)

/-- The place of a number in the total order, with the negative zero below the positive one. -/
def totalRank (x : Binary64) : Int :=
  if x.isNegative then -(x.magnitude : Int) - 1 else x.magnitude

/-- A total order: what is not a number is greatest, and equal to all else that is not one. -/
def sortCompare (x y : Binary64) : Ordering :=
  match x.isNaN, y.isNaN with
  | true, true => .eq
  | true, false => .gt
  | false, true => .lt
  | false, false => compare x.totalRank y.totalRank

end Binary64

end GameShelf
