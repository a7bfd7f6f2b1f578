import GameShelf.Text.Utf8

namespace GameShelf

inductive Operator where
  | equal
  | different
  | greater
  | less
  | atLeast
  | atMost
  | contains
deriving DecidableEq

namespace Operator

/-- All operators. Where one token starts another, the longer one comes first. -/
def all : List Operator := [atLeast, atMost, equal, different, contains, greater, less]

def token : Operator → Text
  | equal => "==".toList
  | different => "!=".toList
  | greater => ">".toList
  | less => "<".toList
  | atLeast => ">=".toList
  | atMost => "<=".toList
  | contains => "~=".toList

def label : Operator → Text
  | equal => "equals".toList
  | different => "not equals".toList
  | greater => "greater than".toList
  | less => "less than".toList
  | atLeast => "greater than or equal".toList
  | atMost => "less than or equal".toList
  | contains => "contains".toList

def ofToken? (t : Text) : Option Operator := all.find? fun o => o.token == t

def isOrdering : Operator → Bool
  | greater | less | atLeast | atMost => true
  | equal | different | contains => false

/-- Whether the relation holds between two things in this order. Containment is none of order. -/
def holds : Operator → Ordering → Bool
  | equal, o => o == .eq
  | different, o => o != .eq
  | greater, o => o == .gt
  | atLeast, o => o != .lt
  | less, o => o == .lt
  | atMost, o => o != .gt
  | contains, _ => false

def startOf? (t : Text) : Option Operator := all.find? fun o => o.token.isPrefixOf t

/-- The text around the first token. -/
def split? : Text → Option (Text × Operator × Text)
  | [] => none
  | c :: t =>
    match startOf? (c :: t) with
    | some o => some ([], o, (c :: t).drop o.token.length)
    | none => (split? t).map fun (before, o, after) => (c :: before, o, after)

/-- The first token and the number of bytes before it. -/
def detect? (t : Text) : Option (Operator × Nat) :=
  (split? t).map fun (before, o, _) => (o, Text.Utf8.size before)

end Operator

end GameShelf
