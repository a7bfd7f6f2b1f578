import GameShelf.Text.Basic

namespace GameShelf

/-- Where the catalog is read from, and where a list is saved if no path is given. -/
structure Settings where
  catalog : Text
  listFile : Text
deriving DecidableEq

namespace Settings

def standard : Settings := ⟨"games.csv".toList, "games_list.txt".toList⟩

def ofCatalog (path : Text) : Settings := { standard with catalog := path }

def withListFile (s : Settings) (path : Text) : Settings := { s with listFile := path }

end Settings

end GameShelf
