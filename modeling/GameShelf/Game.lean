import GameShelf.Value

namespace GameShelf

structure Game where
  name : Text
  id : Int64
  rating : Binary64
  difficulty : Binary64
  rank : UInt32
  minPlayers : UInt32
  maxPlayers : UInt32
  minPlayTime : UInt32
  maxPlayTime : UInt32
  year : Int32
deriving DecidableEq

namespace Game

def value (g : Game) : Attribute → Value
  | .name => .text g.name
  | .id => .number (.integer g.id.toInt)
  | .rating => .number (.real g.rating)
  | .difficulty => .number (.real g.difficulty)
  | .rank => .number (.integer g.rank.toNat)
  | .minPlayers => .number (.integer g.minPlayers.toNat)
  | .maxPlayers => .number (.integer g.maxPlayers.toNat)
  | .minPlayTime => .number (.integer g.minPlayTime.toNat)
  | .maxPlayTime => .number (.integer g.maxPlayTime.toNat)
  | .year => .number (.integer g.year.toInt)

instance : HasAttributes Game := ⟨value⟩

/-- The name, and behind it the value that a list is sorted by. -/
def describe (g : Game) : Attribute → Text
  | .name => g.name
  | a => g.name ++ " (".toList ++ a.label ++ ": ".toList ++ (g.value a).written ++ [')']

end Game

end GameShelf
