import GameShelf.Condition
import GameShelf.SortKey

namespace GameShelf

/-- Conditions that all must hold, and a key to sort the outcome by. -/
structure Query where
  conditions : List Condition
  sort? : Option SortKey
deriving DecidableEq

/-- What one piece of a filter text between commas asks for. -/
inductive Clause where
  | condition (c : Condition)
  | sort (request : Text)
  | refused (clause : Text) (fault : Fault)

namespace Clause

/-- The request behind the word that opens a sort clause, in any case. -/
def sortRequest? (clause : Text) : Option Text :=
  let opening := "sort:".toList
  if Text.sameLetters (clause.take opening.length) opening then
    some (clause.drop opening.length)
  else none

/-- A blank piece asks for nothing. -/
def read? (piece : Text) : Option Clause :=
  let clause := Text.trim piece
  if clause.isEmpty then none
  else
    match sortRequest? clause with
    | some request => some (.sort request)
    | none =>
      match Condition.read clause with
      | .ok c => some (.condition c)
      | .error fault => some (.refused clause fault)

def condition? : Clause → Option Condition
  | condition c => some c
  | _ => none

def sortKey? : Clause → Option SortKey
  | sort request => some (SortKey.readOrByName request)
  | _ => none

def readAll (t : Text) : List Clause := (Text.splitOn ',' t).filterMap read?

end Clause

/-- The records that a query selects, each with its position among all records, in order. -/
structure View (R : Type) where
  entries : List (R × Nat)
  sort : SortKey

namespace View

variable {R : Type}

def records (v : View R) : List R := v.entries.map (·.1)

def positions (v : View R) : List Nat := v.entries.map (·.2)

end View

namespace Query

/-- The query that everything satisfies. -/
def all : Query := ⟨[], none⟩

/-- Clauses that are refused have no effect; of several sort clauses the last one counts. -/
def read (t : Text) : Query :=
  let clauses := Clause.readAll t
  ⟨clauses.filterMap Clause.condition?, (clauses.filterMap Clause.sortKey?).getLast?⟩

def isEmpty (q : Query) : Bool := q.conditions.isEmpty

def sortOr (q : Query) (fallback : SortKey) : SortKey := q.sort?.getD fallback

variable {R : Type} [HasAttributes R]

def accepts (q : Query) (r : R) : Bool := q.conditions.all (·.accepts r)

def count (q : Query) (records : List R) : Nat := records.countP q.accepts

/-- The entries that remain after each condition in turn. -/
def narrow (conditions : List Condition) (entries : List (R × Nat)) : List (R × Nat) :=
  conditions.foldl (fun kept c => kept.filter fun e => c.accepts e.1) entries

def view (q : Query) (records : List R) (fallback : SortKey) : View R :=
  let key := q.sortOr fallback
  ⟨key.sortOn (·.1) (narrow q.conditions records.zipIdx), key⟩

end Query

end GameShelf
