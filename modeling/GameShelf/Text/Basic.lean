namespace GameShelf

abbrev Text := List Char

namespace Text

/-- The twenty-five code points with the property White_Space. -/
def isBlank (c : Char) : Bool :=
  let n := c.toNat
  (0x9 ≤ n && n ≤ 0xD) || n == 0x20 || n == 0x85 || n == 0xA0 || n == 0x1680 ||
    (0x2000 ≤ n && n ≤ 0x200A) || n == 0x2028 || n == 0x2029 || n == 0x202F || n == 0x205F ||
    n == 0x3000

def trimStart (t : Text) : Text := t.dropWhile isBlank

def trimEnd (t : Text) : Text := (t.reverse.dropWhile isBlank).reverse

def trim (t : Text) : Text := trimEnd (trimStart t)

def dropBlanks (t : Text) : Text := t.filter fun c => !isBlank c

/-- What stands before and after the first character that `p` accepts. -/
def splitFirst (p : Char → Bool) : Text → Option (Text × Text)
  | [] => none
  | c :: t => if p c then some ([], t) else (splitFirst p t).map fun (a, b) => (c :: a, b)

/-- The pieces between separators; there is one more piece than there are separators. -/
def splitOn (separator : Char) : Text → List Text
  | [] => [[]]
  | c :: t =>
    if c = separator then [] :: splitOn separator t
    else (splitOn separator t).modifyHead (c :: ·)

/-- Whether `pattern` stands somewhere in the text without a gap. -/
def occursIn (pattern : Text) : Text → Bool
  | [] => pattern.isEmpty
  | c :: t => pattern.isPrefixOf (c :: t) || occursIn pattern t

/-- The first word and what follows it, both without blanks at their ends. -/
def splitWord (t : Text) : Text × Text :=
  match splitFirst isBlank (trim t) with
  | some (word, rest) => (word, trim rest)
  | none => (trim t, [])

def line (t : Text) : Text := t ++ ['\n']

end Text

end GameShelf
