import GameShelf.Text.Basic

namespace GameShelf.Text.Utf8

def isTail (b : UInt8) : Bool := 0x80 ≤ b && b ≤ 0xBF

def tailBits (b : UInt8) : Nat := b.toNat % 0x40

/-- The code point of a lead byte and one tail byte. -/
def pair? (a b : UInt8) : Option Nat :=
  if 0xC2 ≤ a && a ≤ 0xDF && isTail b then some (a.toNat % 0x20 * 0x40 + tailBits b) else none

/-- The code point of a lead byte and two tail bytes: neither one that fits in fewer bytes nor a
surrogate. -/
def triple? (a b c : UInt8) : Option Nat :=
  let n := a.toNat % 0x10 * 0x1000 + tailBits b * 0x40 + tailBits c
  if 0xE0 ≤ a && a ≤ 0xEF && isTail b && isTail c && 0x800 ≤ n && !(0xD800 ≤ n && n ≤ 0xDFFF)
  then some n else none

/-- The code point of a lead byte and three tail bytes: neither one that fits in fewer bytes nor
one beyond the last. -/
def quadruple? (a b c d : UInt8) : Option Nat :=
  let n := a.toNat % 0x8 * 0x40000 + tailBits b * 0x1000 + tailBits c * 0x40 + tailBits d
  if 0xF0 ≤ a && a ≤ 0xF4 && isTail b && isTail c && isTail d && 0x10000 ≤ n && n ≤ 0x10FFFF
  then some n else none

def push (n : Nat) (read : Text × List UInt8) : Text × List UInt8 :=
  (Char.ofNat n :: read.1, read.2)

/-- The characters of the longest well-formed start, and the bytes from the first defect on. -/
def read : List UInt8 → Text × List UInt8
  | [] => ([], [])
  | a :: rest =>
    if a < 0x80 then push a.toNat (read rest)
    else
      match rest with
      | [] => ([], [a])
      | b :: rest =>
        match pair? a b with
        | some n => push n (read rest)
        | none =>
          match rest with
          | [] => ([], [a, b])
          | c :: rest =>
            match triple? a b c with
            | some n => push n (read rest)
            | none =>
              match rest with
              | [] => ([], [a, b, c])
              | d :: rest =>
                match quadruple? a b c d with
                | some n => push n (read rest)
                | none => ([], a :: b :: c :: d :: rest)

/-- The text that the bytes encode, if they are well formed throughout. -/
def decode? (bytes : List UInt8) : Option Text :=
  match read bytes with
  | (t, []) => some t
  | _ => none

/-- How many bytes precede the first defect. -/
def validLength (bytes : List UInt8) : Nat := bytes.length - (read bytes).2.length

def encode (t : Text) : List UInt8 := t.flatMap String.utf8EncodeChar

/-- The number of bytes that encode a text. -/
def size (t : Text) : Nat := t.foldr (fun c n => c.utf8Size + n) 0

end GameShelf.Text.Utf8
