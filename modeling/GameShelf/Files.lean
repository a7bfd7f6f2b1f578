import GameShelf.Text.Utf8

namespace GameShelf

inductive FileFault where
  | missing
  | notFolder
  | isFolder
  | nameTooLong
  | zeroByte
deriving DecidableEq

def FileFault.message : FileFault → Text
  | missing => "No such file or directory (os error 2)".toList
  | notFolder => "Not a directory (os error 20)".toList
  | isFolder => "Is a directory (os error 21)".toList
  | nameTooLong => "File name too long (os error 36)".toList
  | zeroByte => "file name contained an unexpected NUL byte".toList

inductive FileEntry where
  | file (content : List UInt8)
  | folder
deriving DecidableEq

/-- Where the way to a place starts: so many steps above the working folder, or at the root. -/
inductive Files.Origin where
  | above (steps : Nat)
  | root
deriving DecidableEq

/-- A place in the tree of folders, by the names on the way to it. -/
structure Files.Place where
  origin : Files.Origin
  names : List Text
deriving DecidableEq

/-- What stands at the places that anything is known of. A folder stands at every origin. -/
structure Files where
  entries : List (Files.Place × FileEntry)
deriving DecidableEq

namespace Files

/-- The root is its own parent. -/
def Origin.parent : Origin → Origin
  | above steps => above (steps + 1)
  | root => root

/-- A place in the working folder, or the folder itself if there are no names. -/
def Place.inside (names : List Text) : Place := ⟨.above 0, names⟩

def Place.parent (p : Place) : Place :=
  if p.names.isEmpty then ⟨p.origin.parent, []⟩ else ⟨p.origin, p.names.dropLast⟩

def Place.child (p : Place) (name : Text) : Place := ⟨p.origin, p.names ++ [name]⟩

def empty : Files := ⟨[]⟩

def entry? (fs : Files) (place : Place) : Option FileEntry :=
  if place.names.isEmpty then some .folder else fs.entries.lookup place

/-- What the working folder holds. -/
def listed (fs : Files) : List (List Text × FileEntry) :=
  fs.entries.filterMap fun (place, e) =>
    if place.origin = .above 0 then some (place.names, e) else none

def put (fs : Files) (place : Place) (e : FileEntry) : Files :=
  if (fs.entries.lookup place).isSome then
    ⟨fs.entries.map fun old => if old.1 = place then (place, e) else old⟩
  else ⟨fs.entries ++ [(place, e)]⟩

/-- One step on from a place, where a folder must stand. -/
def enter (fs : Files) (here : Place) (name : Text) : Except FileFault Place :=
  match fs.entry? here with
  | none => .error .missing
  | some (.file _) => .error .notFolder
  | some .folder =>
    if 255 < Text.Utf8.size name then .error .nameTooLong
    else if name = ".".toList then .ok here
    else if name = "..".toList then .ok here.parent
    else .ok (here.child name)

def walk (fs : Files) (start : Place) (names : List Text) : Except FileFault Place :=
  names.foldlM fs.enter start

/-- The end of a way, where a folder must stand. -/
def walkToFolder (fs : Files) (start : Place) (names : List Text) : Except FileFault Place := do
  fs.enter (← fs.walk start names) ".".toList

/-- Where a path starts. -/
def start (path : Text) : Place := ⟨if path.head? = some '/' then .root else .above 0, []⟩

/-- The names between the slashes of a path. -/
def names (path : Text) : List Text := (Text.splitOn '/' path).filter fun name => !name.isEmpty

def endsInSlash (path : Text) : Bool := path.getLast? == some '/'

def checkPath (path : Text) : Except FileFault Unit :=
  if path.contains '\x00' then .error .zeroByte
  else if path.isEmpty then .error .missing
  else if 4096 ≤ Text.Utf8.size path then .error .nameTooLong
  else .ok ()

/-- What stands at a path. Before a slash only a folder may stand. -/
def lookUp (fs : Files) (path : Text) : Except FileFault FileEntry := do
  checkPath path
  let place ←
    if endsInSlash path then fs.walkToFolder (start path) (names path)
    else fs.walk (start path) (names path)
  match fs.entry? place with
  | some e => return e
  | none => throw .missing

/-- Where a file may be written: a place that holds no folder, in a folder that exists. A path that
ends in a slash names no file, but a fault on the way to its last name comes first. -/
def writable (fs : Files) (path : Text) : Except FileFault Place := do
  checkPath path
  if endsInSlash path then
    discard (fs.walkToFolder (start path) (names path).dropLast)
    throw .isFolder
  let place ← fs.walk (start path) (names path)
  match fs.entry? place with
  | some .folder => throw .isFolder
  | _ => return place

def write (fs : Files) (path : Text) (content : List UInt8) : Except FileFault Files := do
  return fs.put (← fs.writable path) (.file content)

/-- Adds a folder in the working folder, and those that it lies in. -/
def addFolder (fs : Files) (names : List Text) : Files :=
  (List.range names.length).foldl (fun fs i =>
    let outer := Place.inside (names.take (i + 1))
    if (fs.entry? outer).isSome then fs else fs.put outer .folder) fs

def addFile (fs : Files) (names : List Text) (content : List UInt8) : Files :=
  (fs.addFolder names.dropLast).put (.inside names) (.file content)

end Files

end GameShelf
