import GameShelf.Fault
import GameShelf.Sorting
import GameShelf.Value

namespace GameShelf

inductive Direction where
  | ascending
  | descending
deriving DecidableEq

namespace Direction

def ofAscending : Bool → Direction
  | true => ascending
  | false => descending

def isAscending : Direction → Bool
  | ascending => true
  | descending => false

def opposite : Direction → Direction
  | ascending => descending
  | descending => ascending

def apply : Direction → Ordering → Ordering
  | ascending, o => o
  | descending, o => o.swap

def label : Direction → Text
  | ascending => "asc".toList
  | descending => "desc".toList

def read (t : Text) : Except Fault Direction :=
  let word := Text.trim t
  if Text.sameLetters word ascending.label then .ok ascending
  else if Text.sameLetters word descending.label then .ok descending
  else .error (.invalidDirection word)

end Direction

/-- An attribute to sort by and a direction. -/
structure SortKey where
  field : Attribute
  direction : Direction
  sortable : field.isSortable = true
deriving DecidableEq

namespace SortKey

def byName : SortKey := ⟨.name, .ascending, rfl⟩

def make (field : Attribute) (direction : Direction) : Except Fault SortKey :=
  if h : field.isSortable = true then .ok ⟨field, direction, h⟩ else .error (.unsortable field)

/-- An attribute's name, optionally with a colon and a direction, which is read first. -/
def read (t : Text) : Except Fault SortKey :=
  match Text.splitFirst (· == ':') t with
  | some (name, direction) => do
    let direction ← Direction.read direction
    make (← Attribute.resolve name) direction
  | none => do make (← Attribute.resolve t) .ascending

def readOrByName (t : Text) : SortKey :=
  match read t with
  | .ok key => key
  | .error _ => byName

def reversed (key : SortKey) : SortKey := { key with direction := key.direction.opposite }

def text (key : SortKey) : Text := key.field.label ++ ':' :: key.direction.label

/-- Two records without an order between their values are as good as equal. -/
def compare {R : Type} [HasAttributes R] (key : SortKey) (r s : R) : Ordering :=
  key.direction.apply
    (((HasAttributes.value r key.field).sortCompare? (HasAttributes.value s key.field)).getD .eq)

/-- The stable sort of the items by the records that belong to them. -/
def sortOn {R A : Type} [HasAttributes R] (key : SortKey) (record : A → R) (items : List A) :
    List A :=
  Sorting.sort (fun a b => (key.compare (record a) (record b)).isLE) items

def sort {R : Type} [HasAttributes R] (key : SortKey) (records : List R) : List R :=
  key.sortOn id records

end SortKey

end GameShelf
