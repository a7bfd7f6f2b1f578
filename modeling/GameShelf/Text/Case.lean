import GameShelf.Text.Basic
import GameShelf.Text.CaseTable

namespace GameShelf.Text

def asciiLower (t : Text) : Text := t.map Char.toLower

/-- Equality up to the case of the ASCII letters. -/
def sameLetters (s t : Text) : Bool := asciiLower s == asciiLower t

def inRanges (ranges : List (Nat × Nat)) (c : Char) : Bool :=
  ranges.any fun (first, last) => first ≤ c.toNat && c.toNat ≤ last

def isCased : Char → Bool := inRanges casedRanges

def isCaseIgnorable : Char → Bool := inRanges caseIgnorableRanges

def CaseSpan.covers (s : CaseSpan) (n : Nat) : Bool :=
  s.first ≤ n && n ≤ s.last && (n - s.first) % s.stride == 0

/-- The lowercase form of one character, regardless of its neighbours. Only the capital I with a
dot has a form of two characters. -/
def lowerChar (c : Char) : Text :=
  let n := c.toNat
  if n < 0x80 then [c.toLower]
  else if n = 0x130 then ['i', '\u0307']
  else
    match caseSpans.find? (CaseSpan.covers · n) with
    | some s => [Char.ofNat (s.target + (n - s.first))]
    | none => [c]

/-- The order of texts by the lowercase forms of their characters, code point by code point. -/
def compareFolded (s t : Text) : Ordering :=
  compare (s.flatMap lowerChar) (t.flatMap lowerChar)

/-- Whether the nearest character that case mapping does not pass over is a cased one. -/
def nearestIsCased (t : Text) : Bool :=
  match t.dropWhile isCaseIgnorable with
  | c :: _ => isCased c
  | [] => false

/-- A sigma ends its word when a cased character stands before it and none follows. -/
def lowerFrom (before : Text) : Text → Text
  | [] => []
  | c :: t =>
    (if c = 'Σ' then [if nearestIsCased before && !nearestIsCased t then 'ς' else 'σ']
      else lowerChar c) ++ lowerFrom (c :: before) t

/-- The lowercase form of a whole text, in which a capital sigma depends on its neighbours. -/
def lower (t : Text) : Text := lowerFrom [] t

end GameShelf.Text
