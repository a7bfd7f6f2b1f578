import GameShelf.Text.Basic

namespace GameShelf.Numeral

/-- The number that one or more decimal digits denote. -/
def ofDigits? (t : Text) : Option Nat :=
  if t.isEmpty || !t.all Char.isDigit then none else some (Nat.ofDigitChars 10 t 0)

/-- An unsigned numeral up to `max`, optionally behind a plus sign. -/
def readNat (max : Nat) (t : Text) : Option Nat :=
  let digits := match t with
    | '+' :: rest => rest
    | _ => t
  (ofDigits? digits).filter (· ≤ max)

/-- A numeral between `min` and `max`, optionally behind a sign. -/
def readInt (min max : Int) (t : Text) : Option Int :=
  let value : Option Int := match t with
    | '-' :: rest => (ofDigits? rest).map fun n => -(n : Int)
    | '+' :: rest => (ofDigits? rest).map Int.ofNat
    | _ => (ofDigits? t).map Int.ofNat
  value.filter fun n => min ≤ n ∧ n ≤ max

def ofNat (n : Nat) : Text := Nat.toDigits 10 n

def ofInt : Int → Text
  | .ofNat n => ofNat n
  | .negSucc n => '-' :: ofNat (n + 1)

/-- An integer of sixty-four bits. -/
def readLong (t : Text) : Option Int := readInt (-0x8000000000000000) 0x7FFFFFFFFFFFFFFF t

def readInt64 (t : Text) : Option Int64 := (readLong t).map Int64.ofInt

def readInt32 (t : Text) : Option Int32 := (readInt (-0x80000000) 0x7FFFFFFF t).map Int32.ofInt

def readUInt32 (t : Text) : Option UInt32 := (readNat 0xFFFFFFFF t).map UInt32.ofNat

end GameShelf.Numeral
