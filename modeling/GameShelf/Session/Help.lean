import GameShelf.Text.Basic

namespace GameShelf.Help

def welcome : Text := "******* Welcome to the BoardGame Arena Planner! *******".toList

def goodbye : Text := "Thank you for using the BoardGame Arena Planner!".toList

def prompt : Text := "> ".toList

def invalid : Text := "Invalid command. Type 'help' for available commands.".toList

def noFilter : Text := "No filter given, showing all games.".toList

def filterCleared : Text := "Filter cleared.".toList

def emptyList : Text := "Your game list is empty.".toList

def commands : Text :=
"Commands:
  help [filter|list]   show help, optionally for one command (also: ?)
  filter [text]        filter the catalog, e.g. filter minPlayers>=2,rating>7
  filter clear         clear the current filter
  list [subcommand]    manage your game list, see 'help list'
  exit                 leave the planner (an empty line does the same)".toList

def filter : Text :=
"filter <clause>[,<clause>...]

  A clause is <attribute><operator><value>; all clauses must match.
  Attributes: name, id, rating, difficulty, rank, minPlayers, maxPlayers,
              minPlayTime, maxPlayTime, year
  Operators:  ==  !=  >  <  >=  <=  ~= (contains)
  Text is compared ignoring case.

  Add sort:<attribute>[:asc|:desc] to order the results, e.g.
    filter name~=catan, sort:rating:desc

  filter        show every game
  filter clear  clear the current filter
  filter ?      show this help".toList

def list : Text :=
"list [subcommand]

  list, list show      show your game list
  list add <games>     add games from the current filter results
  list remove <games>  remove games from your list
  list clear           empty your list
  list save [file]     save your list, one name per line

  <games> is 'all', a game name, a number (3) or a range (2-5).
  Numbers refer to the last filter results for add and to your list for
  remove.".toList

end GameShelf.Help
