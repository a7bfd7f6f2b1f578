import GameShelf.Game
import GameShelf.Query
import GameShelf.Text.Numbered

namespace GameShelf

/-- A collection of games without duplicates, and what the last filtering left to look at. -/
structure Catalog where
  games : List Game
  working : Option (View Game)

/-- Whether a catalog is being looked at as a whole or through a filter. -/
inductive Catalog.State where
  | fresh
  | filtered
deriving DecidableEq

namespace Catalog

/-- Of equal games the first one stays. -/
def ofGames (games : List Game) : Catalog := ⟨games.eraseDups, none⟩

def state (c : Catalog) : State := if c.working.isSome then .filtered else .fresh

/-- Each filtering starts from all games. -/
def apply (c : Catalog) (q : Query) (key : SortKey) : Catalog :=
  { c with working := some (q.view c.games key) }

def filterWith (c : Catalog) (t : Text) (key : SortKey) : Catalog := c.apply (Query.read t) key

def filter (c : Catalog) (t : Text) : Catalog := c.filterWith t .byName

def filterSorted (c : Catalog) (t : Text) (field : Attribute) (ascending : Bool) :
    Except Fault Catalog := do
  return c.filterWith t (← SortKey.make field (Direction.ofAscending ascending))

def filterBy (c : Catalog) (t : Text) (field : Attribute) : Except Fault Catalog :=
  c.filterSorted t field true

def filterSortedNamed (c : Catalog) (t name : Text) (ascending : Bool) : Except Fault Catalog := do
  c.filterSorted t (← Attribute.resolve name) ascending

def reset (c : Catalog) : Catalog := { c with working := none }

/-- The outcome of the last filtering, or else all games by name. -/
def current (c : Catalog) : View Game := c.working.getD (Query.all.view c.games .byName)

end Catalog

/-- The lines that show a view: each game with the value it is sorted by. -/
def View.listing (v : View Game) : Text :=
  Text.numbered (v.records.map fun g => g.describe v.sort.field)

/-- What is left of a view that is read from both ends. -/
structure Cursor where
  remaining : List Game

namespace Cursor

def ofView (v : View Game) : Cursor := ⟨v.records⟩

def size (c : Cursor) : Nat := c.remaining.length

def next (c : Cursor) : Option Game × Cursor := (c.remaining.head?, ⟨c.remaining.tail⟩)

def nextBack (c : Cursor) : Option Game × Cursor := (c.remaining.getLast?, ⟨c.remaining.dropLast⟩)

end Cursor

end GameShelf
