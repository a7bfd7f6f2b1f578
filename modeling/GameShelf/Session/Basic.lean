import GameShelf.Catalog
import GameShelf.PickList
import GameShelf.Session.Command
import GameShelf.Session.Help
import GameShelf.Settings

namespace GameShelf

/-- What a session remembers between two lines. -/
structure Session where
  catalog : Catalog
  picks : PickList

/-- How a session answers a command: with a text, or by a file to be written first. -/
inductive Reply where
  | say (t : Text)
  | save (path : Text) (content : Text)
deriving DecidableEq

def Topic.text : Topic → Text
  | commands => Text.line Help.commands
  | filter => Text.line Help.filter
  | list => Text.line Help.list

namespace Session

def ofGames (games : List Game) : Session := ⟨Catalog.ofGames games, .empty⟩

def couldNotAdd (selector : Text) (fault : PickFault) : Text :=
  Text.line ("Could not add '".toList ++ selector ++ "': ".toList ++ fault.message)

def couldNotRemove (selector : Text) (fault : PickFault) : Text :=
  Text.line ("Could not remove '".toList ++ selector ++ "': ".toList ++ fault.message)

def saved (path : Text) : Text := Text.line ("Game list saved to ".toList ++ path)

def notSaved (why : Text) : Text := Text.line ("Error saving game list: ".toList ++ why)

/-- Filters and shows the outcome. -/
def showFiltered (s : Session) (opening t : Text) : Session × Reply :=
  let catalog := s.catalog.filter t
  ({ s with catalog }, .say (opening ++ catalog.current.listing))

def perform (settings : Settings) (s : Session) : Command → Session × Reply
  | .help topic => (s, .say topic.text)
  | .filterAll => s.showFiltered (Text.line Help.noFilter) []
  | .filterClear => ({ s with catalog := s.catalog.reset }, .say (Text.line Help.filterCleared))
  | .filter t => s.showFiltered [] t
  | .listShow =>
    (s, .say (if s.picks.isEmpty then Text.line Help.emptyList else s.picks.listing))
  | .listClear => ({ s with picks := .empty }, .say [])
  | .listAdd selector =>
    match s.picks.add selector s.catalog.current.records with
    | .ok change => ({ s with picks := change.picks }, .say [])
    | .error fault => (s, .say (couldNotAdd selector fault))
  | .listRemove selector =>
    match s.picks.remove selector with
    | .ok change => ({ s with picks := change.picks }, .say [])
    | .error fault => (s, .say (couldNotRemove selector fault))
  | .listSave path => (s, .save (path.getD settings.listFile) s.picks.written)
  | .listNothing => (s, .say [])
  | .listUnknown => (s, .say (Text.line Help.invalid ++ Topic.text .list))
  | .unknown => (s, .say (Text.line Help.invalid))

end Session

end GameShelf
