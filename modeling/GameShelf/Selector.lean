import GameShelf.Numeral
import GameShelf.Text.Case

namespace GameShelf

inductive PickFault where
  | emptySelection
  | invalidSelection (t : Text)
  | indexOutOfRange (index size : Nat)
  | invalidRange (first last size : Nat)
  | gameNotFound (name : Text)
deriving DecidableEq

def PickFault.message : PickFault → Text
  | emptySelection => "input cannot be empty".toList
  | invalidSelection t => "invalid input format: ".toList ++ t
  | indexOutOfRange index size =>
    "index ".toList ++ Numeral.ofNat index ++ " is out of range (1-".toList ++
      Numeral.ofNat size ++ [')']
  | invalidRange first last size =>
    "invalid range ".toList ++ Numeral.ofNat first ++ '-' :: Numeral.ofNat last ++
      "; enter numbers between 1 and ".toList ++ Numeral.ofNat size
  | gameNotFound name => "game not found: ".toList ++ name

/-- A way to pick from a list whose entries are counted from one. -/
inductive Selector where
  | all
  | index (i : Nat)
  | range (first last : Nat)
  | name (t : Text)
deriving DecidableEq

namespace Selector

def readIndex (t : Text) : Option Nat := Numeral.readNat 0xFFFFFFFFFFFFFFFF t

def readRange (t : Text) : Option (Nat × Nat) := do
  let (first, last) ← Text.splitFirst (· == '-') t
  return (← readIndex (Text.trim first), ← readIndex (Text.trim last))

/-- Only digits, dashes and blanks: what is neither a number nor a range, but no name either. -/
def looksNumeric (t : Text) : Bool := t.all fun c => c.isDigit || c == '-' || Text.isBlank c

def read (input : Text) : Except PickFault Selector :=
  let t := Text.trim input
  if t.isEmpty then .error .emptySelection
  else if Text.sameLetters t "all".toList then .ok .all
  else
    match readIndex t, readRange t with
    | some i, _ => .ok (.index i)
    | none, some (first, last) => .ok (.range first last)
    | none, none => if looksNumeric t then .error (.invalidSelection t) else .ok (.name t)

/-- The entries that a selector picks by their positions. -/
def pick {A : Type} (items : List A) : Selector → Except PickFault (List A)
  | all => .ok items
  | index i =>
    if i = 0 ∨ items.length < i then .error (.indexOutOfRange i items.length)
    else .ok ((items.drop (i - 1)).take 1)
  | range first last =>
    if first = 0 ∨ items.length < last ∨ last < first then
      .error (.invalidRange first last items.length)
    else .ok ((items.take last).drop (first - 1))
  | name t => .error (.gameNotFound t)

end Selector

end GameShelf
