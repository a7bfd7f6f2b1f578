import GameShelf.Text.Case

namespace GameShelf

inductive Topic where
  | commands
  | filter
  | list
deriving DecidableEq

/-- What one line of a session asks for. -/
inductive Command where
  | help (topic : Topic)
  | filterAll
  | filterClear
  | filter (t : Text)
  | listShow
  | listClear
  | listAdd (selector : Text)
  | listRemove (selector : Text)
  | listSave (path : Option Text)
  | listNothing
  | listUnknown
  | unknown
deriving DecidableEq

namespace Command

def keyword (t : Text) (word : String) : Bool := Text.sameLetters t word.toList

def readHelp (args : Text) : Command :=
  let (topic, _) := Text.splitWord args
  if keyword topic "filter" then .help .filter
  else if keyword topic "list" then .help .list
  else .help .commands

def readFilter (args : Text) : Command :=
  if args.isEmpty then .filterAll
  else if args = ['?'] then .help .filter
  else if keyword args "clear" then .filterClear
  else .filter args

/-- Nothing is added or removed where nothing is selected. -/
def readList (args : Text) : Command :=
  let (sub, rest) := Text.splitWord args
  if sub.isEmpty || keyword sub "show" then .listShow
  else if keyword sub "clear" then .listClear
  else if keyword sub "add" then if rest.isEmpty then .listNothing else .listAdd rest
  else if keyword sub "remove" then if rest.isEmpty then .listNothing else .listRemove rest
  else if keyword sub "save" then .listSave (if rest.isEmpty then none else some rest)
  else if keyword sub "help" || keyword sub "?" then .help .list
  else .listUnknown

/-- The command on a line. A blank line or the word exit ends the session. -/
def read? (line : Text) : Option Command :=
  let (word, args) := Text.splitWord line
  if word.isEmpty || keyword word "exit" then none
  else if keyword word "help" || keyword word "?" then some (readHelp args)
  else if keyword word "filter" then some (readFilter args)
  else if keyword word "list" then some (readList args)
  else some .unknown

end Command

end GameShelf
