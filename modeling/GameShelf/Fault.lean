import GameShelf.Attribute

namespace GameShelf

inductive ClauseFlaw where
  | empty
  | noOperator
  | noAttribute
  | noValue
deriving DecidableEq

def ClauseFlaw.message : ClauseFlaw → Text
  | empty => "empty clause".toList
  | noOperator => "no operator found".toList
  | noAttribute => "no attribute named".toList
  | noValue => "no value given".toList

/-- Why a clause, a sort request or a number in a condition is refused. -/
inductive Fault where
  | unknownAttribute (name : Text)
  | malformedClause (clause : Text) (flaw : ClauseFlaw)
  | notANumber (field : Attribute) (value : Text)
  | unsortable (field : Attribute)
  | unfilterable (field : Attribute)
  | invalidDirection (text : Text)
deriving DecidableEq

def Fault.message : Fault → Text
  | unknownAttribute name => "unknown attribute: '".toList ++ name ++ "'".toList
  | malformedClause clause flaw =>
    "malformed clause '".toList ++ clause ++ "': ".toList ++ flaw.message
  | notANumber field value =>
    "value '".toList ++ value ++ "' is not a valid number for ".toList ++ field.label
  | unsortable field =>
    "sorting by ".toList ++ field.label ++ " is not allowed".toList
  | unfilterable field =>
    "filtering by ".toList ++ field.label ++ " is not allowed".toList
  | invalidDirection text =>
    "invalid sort direction: '".toList ++ text ++ "' (expected asc or desc)".toList

/-- The attribute that a text names, in any case and with any blanks around. -/
def Attribute.resolve (t : Text) : Except Fault Attribute :=
  match Attribute.named? t with
  | some a => .ok a
  | none => .error (.unknownAttribute (Text.trim t))

end GameShelf
