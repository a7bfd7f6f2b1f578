import GameShelf.Attribute
import GameShelf.Binary64.Literal
import GameShelf.Binary64.Shortest

namespace GameShelf

inductive Number where
  | integer (n : Int)
  | real (x : Binary64)
deriving DecidableEq

namespace Number

/-- The number of a kind that a text denotes. Integers have sixty-four bits. -/
def read : Kind → Text → Option Number
  | .integer, t => (Numeral.readLong t).map integer
  | .real, t => (Binary64.read t).map real
  | .text, _ => none

def kind : Number → Kind
  | integer _ => .integer
  | real _ => .real

/-- The order of numbers of one kind. -/
def compare? : Number → Number → Option Ordering
  | integer m, integer n => some (compare m n)
  | real x, real y => x.compare? y
  | _, _ => none

/-- The order of numbers of one kind in a sorted list. -/
def sortCompare? : Number → Number → Option Ordering
  | integer m, integer n => some (compare m n)
  | real x, real y => some (x.sortCompare y)
  | _, _ => none

def text : Number → Text
  | integer n => Numeral.ofInt n
  | real x => x.text

end Number

/-- What a record has for an attribute. -/
inductive Value where
  | text (t : Text)
  | number (n : Number)
  | missing
deriving DecidableEq

namespace Value

def kind? : Value → Option Kind
  | text _ => some .text
  | number n => some n.kind
  | missing => none

def text? : Value → Option Text
  | text t => some t
  | _ => none

def number? : Value → Option Number
  | number n => some n
  | _ => none

def isMissing : Value → Bool
  | missing => true
  | _ => false

def written : Value → Text
  | text t => t
  | number n => n.text
  | missing => []

/-- Equality of values, where numbers are equal if the order says so. -/
def agrees : Value → Value → Bool
  | text s, text t => s == t
  | number m, number n => m.compare? n == some .eq
  | missing, missing => true
  | _, _ => false

/-- The order of values in a sorted list: missing ones last, none between two kinds. -/
def sortCompare? : Value → Value → Option Ordering
  | text s, text t => some (Text.compareFolded s t)
  | number m, number n => m.sortCompare? n
  | missing, missing => some .eq
  | missing, _ => some .gt
  | _, missing => some .lt
  | _, _ => none

end Value

/-- Records that have a value, or none, for each attribute. -/
class HasAttributes (R : Type) where
  value : R → Attribute → Value

end GameShelf
