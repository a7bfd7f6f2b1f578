import GameShelf.Fault
import GameShelf.Operator
import GameShelf.Value

namespace GameShelf

/-- One requirement on a record. For a numeric attribute `number?` is what the value denotes. -/
structure Condition where
  field : Attribute
  operator : Operator
  value : Text
  number? : Option Number
deriving DecidableEq

namespace Condition

/-- A text loses the blanks at its ends, a number all of them. -/
def normalize : Kind → Text → Text
  | .text, t => Text.trim t
  | .integer, t | .real, t => Text.dropBlanks t

def make (field : Attribute) (operator : Operator) (t : Text) : Condition :=
  let value := normalize field.kind t
  ⟨field, operator, value, Number.read field.kind value⟩

/-- The two sides of a clause, which must name something before the operator. -/
def splitClause (clause : Text) : Except Fault (Text × Operator × Text) :=
  match Operator.split? clause with
  | none => .error (.malformedClause clause .noOperator)
  | some (before, o, after) =>
    if (Text.trim before).isEmpty then .error (.malformedClause clause .noAttribute)
    else .ok (before, o, after)

def read (clause : Text) : Except Fault Condition := do
  if (Text.trim clause).isEmpty then
    throw (.malformedClause clause .empty)
  let (before, operator, after) ← splitClause clause
  let field ← Attribute.resolve before
  if !field.isFilterable then
    throw (.unfilterable field)
  let value := normalize field.kind after
  if value.isEmpty then
    throw (.malformedClause clause .noValue)
  return make field operator value

def number (c : Condition) : Except Fault Number :=
  match c.number? with
  | some n => .ok n
  | none => .error (.notANumber c.field c.value)

def text (c : Condition) : Text := c.field.label ++ c.operator.token ++ c.value

def acceptsText (c : Condition) (t : Text) : Bool :=
  match c.operator with
  | .contains => Text.occursIn (Text.lower c.value) (Text.lower t)
  | o => o.holds (compare (Text.lower t) (Text.lower c.value))

/-- A number contains what its text contains; otherwise two numbers without an order stand in no
relation. -/
def acceptsNumber (c : Condition) (n : Number) : Bool :=
  match c.operator with
  | .contains => Text.occursIn c.value n.text
  | o => ((c.number?.bind n.compare?).map o.holds).getD false

def acceptsValue (c : Condition) : Value → Bool
  | .text t => c.field.kind == .text && c.acceptsText t
  | .number n => c.field.kind.isNumeric && c.acceptsNumber n
  | .missing => false

def accepts {R : Type} [HasAttributes R] (c : Condition) (r : R) : Bool :=
  c.acceptsValue (HasAttributes.value r c.field)

end Condition

end GameShelf
