import GameShelf.Session.Script
import GameShelf.Sheet.Basic

namespace GameShelf

inductive Level where
  | trace
  | debug
  | info
  | warn
deriving DecidableEq

/-- A remark on what was done, for those who ask for it. -/
structure Note where
  level : Level
  message : Text
deriving DecidableEq

namespace Journal

def debug (t : Text) : Note := ⟨.debug, t⟩

def ofSortRequest (request : Text) : List Note :=
  match SortKey.read request with
  | .ok _ => []
  | .error fault =>
    [debug ("sort '".toList ++ request ++ "' not usable (".toList ++ fault.message ++
      "), sorting by name".toList)]

def ofClause : Clause → List Note
  | .condition _ => []
  | .sort request => ofSortRequest request
  | .refused clause fault =>
    [debug ("dropping clause '".toList ++ clause ++ "': ".toList ++ fault.message)]

def ofQueryText (t : Text) : List Note := (Clause.readAll t).flatMap ofClause

/-- How many records are left after each condition. -/
def ofNarrowing {R : Type} [HasAttributes R] : List Condition → List R → List Note
  | [], _ => []
  | c :: conditions, records =>
    let kept := records.filter c.accepts
    ⟨.trace, c.text ++ ": ".toList ++ Numeral.ofNat kept.length ++ " records left".toList⟩ ::
      ofNarrowing conditions kept

def ofCatalog (c : Catalog) : List Note :=
  [debug ("query engine holds ".toList ++ Numeral.ofNat c.games.length ++ " games".toList)]

def ofApply (c : Catalog) (q : Query) (key : SortKey) : List Note :=
  ofNarrowing q.conditions c.games ++
    [debug (Numeral.ofNat q.conditions.length ++ " condition(s), sorted by ".toList ++
      (q.sortOr key).text ++ ": ".toList ++ Numeral.ofNat (q.count c.games) ++ " of ".toList ++
      Numeral.ofNat c.games.length ++ " games".toList)]

def ofFilter (c : Catalog) (t : Text) (key : SortKey) : List Note :=
  ofQueryText t ++ ofApply c (Query.read t) key

def ofReset (c : Catalog) : List Note :=
  match c.state with
  | .filtered => [debug "working subset cleared".toList]
  | .fresh => []

def ofRow : Row → List Note
  | .game _ => []
  | .skipped place fault =>
    [⟨.warn, "skipping catalog row at line ".toList ++ Numeral.ofNat place.line ++ ": ".toList ++
      fault.message⟩]
  | .undecodable fault =>
    [⟨.warn, "skipping malformed catalog row: ".toList ++ fault.message⟩]

def ofHeader (header : Text) : List Note :=
  match Attribute.ofColumn? header with
  | some _ => []
  | none => [debug ("ignoring catalog column '".toList ++ header ++ "'".toList)]

def ofSheet (bytes : List UInt8) : List Note :=
  match Sheet.headers? bytes, Sheet.rows bytes with
  | .ok (some headers), .ok rows => headers.flatMap ofHeader ++ rows.flatMap ofRow
  | .ok (some headers), .error _ => headers.flatMap ofHeader
  | _, _ => []

def ofLoad (fs : Files) (path : Text) : List Note :=
  match fs.lookUp path with
  | .ok (.file bytes) =>
    ofSheet bytes ++
      match Sheet.games bytes with
      | .ok games =>
        [⟨.info, "loaded ".toList ++ Numeral.ofNat games.length ++ " games from ".toList ++ path⟩]
      | .error _ => []
  | _ => []

def ofSave (fs : Files) (picks : PickList) (path : Text) : List Note :=
  match fs.writable path with
  | .ok _ =>
    [⟨.info, "saved ".toList ++ Numeral.ofNat picks.count ++ " games to ".toList ++ path⟩]
  | .error _ => []

def ofAdd (p : PickList) (selector : Text) (candidates : List Game) : List Note :=
  match p.add selector candidates with
  | .ok change =>
    [⟨.info, "added ".toList ++ Numeral.ofNat change.changed ++ " game(s) to the list".toList⟩]
  | .error _ => []

def ofRemove (p : PickList) (selector : Text) : List Note :=
  match p.remove selector with
  | .ok change =>
    [⟨.info,
      "removed ".toList ++ Numeral.ofNat change.changed ++ " game(s) from the list".toList⟩]
  | .error _ => []

def ofCommand (settings : Settings) (d : Desk) : Command → List Note
  | .filterAll => ofFilter d.session.catalog [] .byName
  | .filter t => ofFilter d.session.catalog t .byName
  | .filterClear => ofReset d.session.catalog
  | .listAdd selector => ofAdd d.session.picks selector d.session.catalog.current.records
  | .listRemove selector => ofRemove d.session.picks selector
  | .listSave path => ofSave d.files d.session.picks (path.getD settings.listFile)
  | _ => []

/-- A line with a word on it is noted before it is carried out. -/
def ofLine (t : Text) : List Note :=
  let (word, args) := Text.splitWord t
  if word.isEmpty then []
  else [debug ("command '".toList ++ word ++ "' with '".toList ++ args ++ "'".toList)]

def ofLines (settings : Settings) (d : Desk) : List (List UInt8) → List Note
  | [] => []
  | line :: lines =>
    match Text.Utf8.decode? line with
    | none => []
    | some t =>
      match Command.read? t with
      | none => ofLine t
      | some c =>
        ofLine t ++ ofCommand settings d c ++ ofLines settings (d.step settings c).1 lines

def ofScript (settings : Settings) (d : Desk) (script : List UInt8) : List Note :=
  ofLines settings d (Script.lines script)

end Journal

end GameShelf
