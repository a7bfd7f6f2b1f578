import GameShelf.Settings

namespace GameShelf

/-- The options of the command line that take a value. -/
inductive ValueOption where
  | games
  | listFile
  | filter
  | sort
deriving DecidableEq

namespace ValueOption

def ofLetter? : Char → Option ValueOption
  | 'g' => some games
  | 'f' => some filter
  | 's' => some sort
  | _ => none

def ofWord? (word : Text) : Option ValueOption :=
  if word = "games".toList then some games
  else if word = "list-file".toList then some listFile
  else if word = "filter".toList then some filter
  else if word = "sort".toList then some sort
  else none

def isPath : ValueOption → Bool
  | games | listFile => true
  | filter | sort => false

end ValueOption

/-- What the arguments of a command line have set so far. -/
structure Arguments where
  games : Option Text
  listFile : Option Text
  filter : Option Text
  sort : Option Text
  descending : Bool
  verbosity : Nat
deriving DecidableEq

namespace Arguments

def empty : Arguments := ⟨none, none, none, none, false, 0⟩

def get (a : Arguments) : ValueOption → Option Text
  | .games => a.games
  | .listFile => a.listFile
  | .filter => a.filter
  | .sort => a.sort

/-- No option is given twice, and no path is empty. -/
def set (a : Arguments) (s : ValueOption) (value : Text) : Option Arguments :=
  if (a.get s).isSome || (s.isPath && value.isEmpty) then none
  else
    some <| match s with
      | .games => { a with games := value }
      | .listFile => { a with listFile := value }
      | .filter => { a with filter := value }
      | .sort => { a with sort := value }

def setDescending (a : Arguments) : Option Arguments :=
  if a.descending then none else some { a with descending := true }

def setVerbose (a : Arguments) : Arguments := { a with verbosity := a.verbosity + 1 }

/-- Letters behind one dash. An option that takes a value takes the rest of them, behind an equals
sign if there is one; if nothing is left, its value is yet to come. -/
def readLetters (a : Arguments) : Text → Option (Arguments × Option ValueOption)
  | [] => some (a, none)
  | 'v' :: t => readLetters a.setVerbose t
  | c :: t =>
    match ValueOption.ofLetter? c, t with
    | none, _ => none
    | some s, [] => some (a, some s)
    | some s, '=' :: value => (a.set s value).map (·, none)
    | some s, value => (a.set s value).map (·, none)

/-- A word behind two dashes, with its value if an equals sign follows. -/
def readWord (a : Arguments) (t : Text) : Option (Arguments × Option ValueOption) :=
  match Text.splitFirst (· == '=') t with
  | some (word, value) => do return (← a.set (← ValueOption.ofWord? word) value, none)
  | none =>
    if t = "desc".toList then a.setDescending.map (·, none)
    else if t = "verbose".toList then some (a.setVerbose, none)
    else (ValueOption.ofWord? t).map fun s => (a, some s)

def looksLikeOption : Text → Bool
  | '-' :: _ :: _ => true
  | _ => false

def readOption (a : Arguments) : Text → Option (Arguments × Option ValueOption)
  | '-' :: '-' :: t => a.readWord t
  | '-' :: c :: t => a.readLetters (c :: t)
  | _ => none

/-- Reads all arguments. Every one is an option or the value of one; two dashes alone end them. -/
def readFrom (a : Arguments) : List Text → Option Arguments
  | [] => some a
  | arg :: args =>
    if arg = ['-', '-'] then if args.isEmpty then some a else none
    else
      match a.readOption arg, args with
      | none, _ => none
      | some (a, none), args => readFrom a args
      | some (_, some _), [] => none
      | some (a, some s), value :: args =>
        if looksLikeOption value then none else (a.set s value).bind fun a => readFrom a args

end Arguments

/-- A complete request. -/
structure Options where
  settings : Settings
  filter : Option Text
  sort : Option Text
  descending : Bool
  verbosity : Nat
deriving DecidableEq

namespace Options

/-- The environment may name the catalog. Sorting needs a filter, and a direction needs sorting. -/
def complete (a : Arguments) (environment : Option Text) : Option Options := do
  let a ← match a.games, environment with
    | none, some path => a.set .games path
    | _, _ => some a
  if (a.sort.isSome && a.filter.isNone) || (a.descending && a.sort.isNone) then
    none
  let settings := Settings.ofCatalog (a.games.getD Settings.standard.catalog)
  return ⟨settings.withListFile (a.listFile.getD settings.listFile), a.filter, a.sort,
    a.descending, a.verbosity⟩

def read (args : List Text) (environment : Option Text) : Option Options := do
  complete (← Arguments.empty.readFrom args) environment

end Options

end GameShelf
