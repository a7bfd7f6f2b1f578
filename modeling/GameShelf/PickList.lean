import GameShelf.Game
import GameShelf.Selector
import GameShelf.SortKey
import GameShelf.Text.Numbered

namespace GameShelf

/-- The games picked so far, in the order of their names. -/
structure PickList where
  games : List Game
deriving DecidableEq

/-- A list after a change, and by how many games it has grown or shrunk. -/
structure PickList.Change where
  picks : PickList
  changed : Nat
deriving DecidableEq

namespace PickList

def empty : PickList := ⟨[]⟩

def count (p : PickList) : Nat := p.games.length

def isEmpty (p : PickList) : Bool := p.games.isEmpty

def names (p : PickList) : List Text := p.games.map (·.name)

/-- A name that some candidate bears wins over its reading as a number or a range, so that a game
called 1830 can be picked. -/
def picked (selector : Text) (candidates : List Game) : Except PickFault (List Game) :=
  let named := candidates.filter fun g => Text.sameLetters g.name (Text.trim selector)
  match Selector.read selector with
  | .ok .all => .ok candidates
  | .ok s => if named.isEmpty then s.pick candidates else .ok named
  | .error fault => if named.isEmpty then .error fault else .ok named

def insertNew (listed : List Game) (g : Game) : List Game :=
  if g ∈ listed then listed else listed ++ [g]

def add (p : PickList) (selector : Text) (candidates : List Game) : Except PickFault Change := do
  let games := SortKey.byName.sort ((← picked selector candidates).foldl insertNew p.games)
  return ⟨⟨games⟩, games.length - p.count⟩

/-- What a selector leaves of the list. Numbers count in the list's own order. -/
def remaining (p : PickList) (selector : Text) : Except PickFault (List Game) := do
  match ← Selector.read selector with
  | .name t =>
    let others := p.games.filter fun g => !Text.sameLetters g.name t
    if others.length = p.count then throw (.gameNotFound t) else return others
  | s =>
    let doomed ← s.pick p.games
    return p.games.filter fun g => !doomed.contains g

def remove (p : PickList) (selector : Text) : Except PickFault Change := do
  let games ← p.remaining selector
  return ⟨⟨games⟩, p.count - games.length⟩

/-- One name on each line. -/
def written (p : PickList) : Text := p.names.flatMap Text.line

def listing (p : PickList) : Text := Text.numbered p.names

end PickList

end GameShelf
