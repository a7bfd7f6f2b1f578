import GameShelf.Text.Utf8

namespace GameShelf.Csv

/-- How far a reader has come: the current line, counted from one, and the bytes before it. -/
structure Place where
  line : Nat
  byte : Nat
deriving DecidableEq

def Place.advance (p : Place) (b : UInt8) : Place :=
  ⟨if b == 0x0A then p.line + 1 else p.line, p.byte + 1⟩

/-- The fields of one record and the place where its reader began, which is just after the byte
that ended the record before. -/
structure Record where
  place : Place
  fields : List (List UInt8)
deriving DecidableEq

inductive Mode where
  | between
  | fieldStart
  | plain
  | quoted
  | quoteSeen
deriving DecidableEq

/-- The parts of a record read so far, newest first. -/
structure Reader where
  here : Place
  start : Place
  mode : Mode
  field : List UInt8
  fields : List (List UInt8)

namespace Reader

def initial (here : Place) (start : Place) : Reader := ⟨here, start, .between, [], []⟩

def record (r : Reader) : Record := ⟨r.start, (r.field.reverse :: r.fields).reverse⟩

/-- The record that the end of the input completes. -/
def finish? (r : Reader) : Option Record := if r.mode = .between then none else some r.record

def isLineEnd (b : UInt8) : Bool := b == 0x0A || b == 0x0D

/-- A byte outside quotes, which a comma or the end of a line is not part of. -/
def takePlain (r : Reader) (b : UInt8) : Reader × Option Record :=
  if b == 0x2C then
    ({ r with mode := .fieldStart, field := [], fields := r.field.reverse :: r.fields }, none)
  else if isLineEnd b then (initial r.here r.here, some r.record)
  else ({ r with mode := .plain, field := b :: r.field }, none)

/-- A field is quoted if it starts with a quote. Two quotes within it are one; after a single one
the rest of the field is plain. -/
def takeFieldStart (r : Reader) (b : UInt8) : Reader × Option Record :=
  if b == 0x22 then ({ r with mode := .quoted }, none) else r.takePlain b

def step (r : Reader) (b : UInt8) : Reader × Option Record :=
  let r := { r with here := r.here.advance b }
  match r.mode with
  | .between => if isLineEnd b then (r, none) else r.takeFieldStart b
  | .fieldStart => r.takeFieldStart b
  | .plain => r.takePlain b
  | .quoted =>
    if b == 0x22 then ({ r with mode := .quoteSeen }, none)
    else ({ r with field := b :: r.field }, none)
  | .quoteSeen =>
    if b == 0x22 then ({ r with mode := .quoted, field := b :: r.field }, none) else r.takePlain b

def run : Reader → List UInt8 → List Record
  | r, [] => r.finish?.toList
  | r, b :: bytes =>
    match r.step b with
    | (r, some record) => record :: run r bytes
    | (r, none) => run r bytes

end Reader

/-- The records of a file of comma-separated values. A byte order mark at its start is no part of
them, and neither are empty lines. -/
def records : List UInt8 → List Record
  | 0xEF :: 0xBB :: 0xBF :: bytes => (Reader.initial ⟨1, 3⟩ ⟨1, 0⟩).run bytes
  | bytes => (Reader.initial ⟨1, 0⟩ ⟨1, 0⟩).run bytes

end GameShelf.Csv
