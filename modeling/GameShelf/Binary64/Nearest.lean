import GameShelf.Binary64.Basic

namespace GameShelf.Binary64

/-- A quotient rounded to the nearest integer, a half to the even one. -/
def roundQuotient (num den : Nat) : Nat :=
  let q := num / den
  let r := num % den
  if 2 * r < den || (2 * r == den && q % 2 == 0) then q else q + 1

/-- The magnitude nearest to `num / den`. The significand gets fifty-three bits, or fewer where
the exponent is the least one; a carry out of it runs into the exponent, as it should. -/
def nearest (num den : Nat) : Nat :=
  let scaled := num * unitsPerOne
  let shift := (scaled / den).log2 - 52
  min infinite (shift * exponentBit + roundQuotient scaled (den * Nat.pow 2 shift))

/-- The magnitude nearest to `digits * 10 ^ exponent`. Values beyond the greatest magnitude or
below half the least one are told by their exponent alone, so that no power grows without need. -/
def ofDecimal (digits : Nat) (exponent : Int) : Nat :=
  if digits = 0 ∨ exponent < -(digits.log2 + 330 : Int) then 0
  else if 310 ≤ exponent then infinite
  else nearest (digits * Nat.pow 10 exponent.toNat) (Nat.pow 10 (-exponent).toNat)

end GameShelf.Binary64
