import GameShelf.Files
import GameShelf.Game
import GameShelf.Sheet.Csv

namespace GameShelf

/-- Bytes that are no text: in which record and field, and how far into the field. -/
structure EncodingFault where
  record : Nat
  place : Csv.Place
  field : Nat
  offset : Nat
deriving DecidableEq

def EncodingFault.message (f : EncodingFault) : Text :=
  "CSV parse error: record ".toList ++ Numeral.ofNat f.record ++
    " (line ".toList ++ Numeral.ofNat f.place.line ++
    ", field: ".toList ++ Numeral.ofNat f.field ++
    ", byte: ".toList ++ Numeral.ofNat f.place.byte ++
    "): invalid utf-8: invalid UTF-8 in field ".toList ++ Numeral.ofNat f.field ++
    " near byte index ".toList ++ Numeral.ofNat f.offset

/-- Why a sheet's row holds no game. -/
inductive RowFault where
  | missing (field : Attribute)
  | notANumber (field : Attribute) (cell : Text)
deriving DecidableEq

def RowFault.message : RowFault → Text
  | missing field => "missing ".toList ++ field.column ++ " value".toList
  | notANumber field cell =>
    field.column ++ " value '".toList ++ cell ++ "' is not a number".toList

/-- What a record after the header comes to. -/
inductive Row where
  | game (g : Game)
  | skipped (place : Csv.Place) (fault : RowFault)
  | undecodable (fault : EncodingFault)

def Row.game? : Row → Option Game
  | game g => some g
  | _ => none

/-- Why there is no catalog to work with. -/
inductive LoadFault where
  | unreadable (fault : FileFault)
  | folder
  | header (fault : EncodingFault)
  | missingColumn (field : Attribute)
deriving DecidableEq

namespace LoadFault

def folderMessage : Text := FileFault.isFolder.message

def missingColumnMessage (field : Attribute) : Text :=
  "catalog is missing the '".toList ++ field.column ++ "' column".toList

/-- The fault and then what it came from, outermost first. -/
def causes : LoadFault → List Text
  | unreadable fault => [fault.message, fault.message]
  | folder => ["CSV error: ".toList ++ folderMessage, folderMessage]
  | header fault => ["CSV error: ".toList ++ fault.message, fault.message]
  | missingColumn field => [missingColumnMessage field]

def message (f : LoadFault) : Text := f.causes.headD []

end LoadFault

namespace Sheet

/-- The place of each attribute's column. -/
abbrev Columns := List (Attribute × Nat)

/-- The leftmost column with its header serves each attribute. -/
def column (headers : List Text) (field : Attribute) : Except LoadFault (Attribute × Nat) :=
  match headers.findIdx? fun header => Attribute.ofColumn? header == some field with
  | some i => .ok (field, i)
  | none => .error (.missingColumn field)

def columns (headers : List Text) : Except LoadFault Columns := Attribute.all.mapM (column headers)

def cell (columns : Columns) (row : List Text) (field : Attribute) : Except RowFault Text :=
  match ((columns.lookup field).bind (row[·]?)).filter fun t => !t.isEmpty with
  | some t => .ok t
  | none => .error (.missing field)

def number {A : Type} (read : Text → Option A) (columns : Columns) (row : List Text)
    (field : Attribute) : Except RowFault A := do
  let t ← cell columns row field
  match read t with
  | some n => return n
  | none => throw (.notANumber field t)

def game (columns : Columns) (row : List Text) : Except RowFault Game := do
  let name ← cell columns row .name
  let id ← number Numeral.readInt64 columns row .id
  let minPlayers ← number Numeral.readUInt32 columns row .minPlayers
  let maxPlayers ← number Numeral.readUInt32 columns row .maxPlayers
  let minPlayTime ← number Numeral.readUInt32 columns row .minPlayTime
  let maxPlayTime ← number Numeral.readUInt32 columns row .maxPlayTime
  let difficulty ← number Binary64.read columns row .difficulty
  let rank ← number Numeral.readUInt32 columns row .rank
  let rating ← number Binary64.read columns row .rating
  let year ← number Numeral.readInt32 columns row .year
  return { name, id, rating, difficulty, rank, minPlayers, maxPlayers, minPlayTime, maxPlayTime,
           year }

/-- The blanks that are cut off the bytes of a field before they are read as text. -/
def isAsciiBlank (b : UInt8) : Bool :=
  b == 0x20 || b == 0x09 || b == 0x0A || b == 0x0C || b == 0x0D

def trimBytes (bytes : List UInt8) : List UInt8 :=
  ((bytes.dropWhile isAsciiBlank).reverse.dropWhile isAsciiBlank).reverse

/-- The fields as texts without blanks at their ends, unless one of them is no text. -/
def decode (index : Nat) (r : Csv.Record) : Except EncodingFault (List Text) :=
  r.fields.zipIdx.mapM fun (bytes, i) =>
    match Text.Utf8.decode? bytes with
    | some t => .ok (Text.trim t)
    | none => .error ⟨index, r.place, i, Text.Utf8.validLength bytes⟩

def trimRecord (r : Csv.Record) : Csv.Record := { r with fields := r.fields.map trimBytes }

def row (columns : Columns) (r : Csv.Record) (index : Nat) : Row :=
  match decode index (trimRecord r) with
  | .error fault => .undecodable fault
  | .ok fields =>
    match game columns fields with
    | .ok g => .game g
    | .error fault => .skipped r.place fault

/-- The header of a sheet, if there is any record. -/
def headers? (bytes : List UInt8) : Except LoadFault (Option (List Text)) :=
  match Csv.records bytes with
  | [] => .ok none
  | header :: _ =>
    match decode 0 header with
    | .ok headers => .ok (some headers)
    | .error fault => .error (.header fault)

def rows (bytes : List UInt8) : Except LoadFault (List Row) := do
  match ← headers? bytes with
  | none => return []
  | some headers =>
    let columns ← columns headers
    return ((Csv.records bytes).tail.zipIdx 1).map fun (r, i) => row columns r i

/-- The games of a sheet, in the order of their rows. Only the header can make it fail. -/
def games (bytes : List UInt8) : Except LoadFault (List Game) := do
  return (← rows bytes).filterMap Row.game?

/-- The games of the sheet at a path. -/
def load (fs : Files) (path : Text) : Except LoadFault (List Game) :=
  match fs.lookUp path with
  | .error fault => .error (.unreadable fault)
  | .ok .folder => .error .folder
  | .ok (.file bytes) => games bytes

end Sheet

end GameShelf
