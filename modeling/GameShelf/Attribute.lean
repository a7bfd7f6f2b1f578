import GameShelf.Text.Case

namespace GameShelf

inductive Kind where
  | text
  | integer
  | real
deriving DecidableEq

namespace Kind

def isNumeric : Kind → Bool
  | text => false
  | integer | real => true

def label : Kind → Text
  | text => "text".toList
  | integer => "integer".toList
  | real => "real".toList

end Kind

/-- The fields of a game that can be filtered and sorted on. -/
inductive Attribute where
  | name
  | id
  | rating
  | difficulty
  | rank
  | minPlayers
  | maxPlayers
  | minPlayTime
  | maxPlayTime
  | year
deriving DecidableEq

namespace Attribute

def all : List Attribute :=
  [name, id, rating, difficulty, rank, minPlayers, maxPlayers, minPlayTime, maxPlayTime, year]

def label : Attribute → Text
  | name => "name".toList
  | id => "id".toList
  | rating => "rating".toList
  | difficulty => "difficulty".toList
  | rank => "rank".toList
  | minPlayers => "minPlayers".toList
  | maxPlayers => "maxPlayers".toList
  | minPlayTime => "minPlayTime".toList
  | maxPlayTime => "maxPlayTime".toList
  | year => "year".toList

/-- The header of the attribute's column in a catalog sheet. -/
def column : Attribute → Text
  | name => "objectname".toList
  | id => "objectid".toList
  | rating => "average".toList
  | difficulty => "avgweight".toList
  | rank => "rank".toList
  | minPlayers => "minplayers".toList
  | maxPlayers => "maxplayers".toList
  | minPlayTime => "minplaytime".toList
  | maxPlayTime => "maxplaytime".toList
  | year => "yearpublished".toList

def aliases : Attribute → List Text
  | difficulty => ["weight".toList]
  | minPlayers => ["min_players".toList]
  | maxPlayers => ["max_players".toList]
  | minPlayTime => ["min_time".toList]
  | maxPlayTime => ["max_time".toList]
  | year => ["yearPublished".toList]
  | name | id | rating | rank => []

def kind : Attribute → Kind
  | name => .text
  | rating | difficulty => .real
  | id | rank | minPlayers | maxPlayers | minPlayTime | maxPlayTime | year => .integer

/-- Every attribute may stand in a condition. -/
def isFilterable (_ : Attribute) : Bool := true

/-- An id says nothing about a game, so there is no order by it. -/
def isSortable : Attribute → Bool
  | id => false
  | _ => true

/-- Whether a name, without blanks at its ends, is one that the attribute goes by. -/
def goesBy (a : Attribute) (t : Text) : Bool :=
  (a.label :: a.column :: a.aliases).any (Text.sameLetters · t)

def named? (t : Text) : Option Attribute := all.find? fun a => a.goesBy (Text.trim t)

def ofColumn? (header : Text) : Option Attribute :=
  all.find? fun a => Text.sameLetters a.column (Text.trim header)

end Attribute

end GameShelf
