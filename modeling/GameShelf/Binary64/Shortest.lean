import GameShelf.Binary64.Nearest
import GameShelf.Numeral

namespace GameShelf.Binary64

/-- The neighbour of a value that passes, on the grid on which the value has so many parts of one;
if both do, the nearer one, and the upper one at equal distance. -/
def neighbour? (scaled : Nat) (passes : Nat → Bool) : Option Nat :=
  let below := scaled / unitsPerOne
  match passes below, passes (below + 1) with
  | true, true => some (if 2 * (scaled % unitsPerOne) < unitsPerOne then below else below + 1)
  | true, false => some below
  | false, true => some (below + 1)
  | false, false => none

/-- The number of units of `10 ^ -places` that reads back as the magnitude, if one of its two
neighbours on that grid does. -/
def onGrid? (m places : Nat) : Option Nat :=
  neighbour? (units m * Nat.pow 10 places) fun d => nearest d (Nat.pow 10 places) == m

/-- The fewest decimals, but at least one, with which the magnitude reads back. On the last grid
that is tried the magnitude itself has a place. -/
def shortest (m : Nat) : Nat × Nat :=
  let found := (List.range' 1 1073).findSome? fun places => (onGrid? m places).map (·, places)
  found.getD (units m * Nat.pow 10 1074 / unitsPerOne, 1074)

/-- An integral magnitude is written in full with one decimal, any other as its shortest form. -/
def decimals (m : Nat) : Nat × Nat :=
  if units m % unitsPerOne = 0 then (10 * (units m / unitsPerOne), 1) else shortest m

/-- A number of units of `10 ^ -places`, with all its digits and a point. -/
def positional (digits places : Nat) : Text :=
  Numeral.ofNat (digits / Nat.pow 10 places) ++
    '.' :: (Numeral.ofNat (digits % Nat.pow 10 places)).leftpad places '0'

def magnitudeText (m : Nat) : Text :=
  if infinite ≤ m then "inf".toList
  else
    let (digits, places) := decimals m
    positional digits places

def text (x : Binary64) : Text :=
  if x.isNaN then "NaN".toList
  else if x.isNegative then '-' :: magnitudeText x.magnitude
  else magnitudeText x.magnitude

end GameShelf.Binary64
