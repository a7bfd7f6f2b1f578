import GameShelf.CommandLine.Arguments
import GameShelf.Session.Script
import GameShelf.Sheet.Basic

namespace GameShelf

/-- How a run of the program ends: its exit code, what it wrote, and the folder it leaves. -/
structure Report where
  code : Nat
  output : Text
  errors : Text
  files : Files

namespace CommandLine

def success (output : Text) (fs : Files) : Report := ⟨0, output, [], fs⟩

def misused (fs : Files) : Report := ⟨2, [], [], fs⟩

def indented (t : Text) : Text := Text.line ("    ".toList ++ t)

/-- What a failure came from: a single cause stands alone, several are numbered from zero. -/
def causesText : List Text → Text
  | [] => []
  | [cause] => ['\n'] ++ Text.line "Caused by:".toList ++ indented cause
  | causes =>
    ['\n'] ++ Text.line "Caused by:".toList ++
      causes.zipIdx.flatMap fun (cause, i) =>
        Text.line ((Numeral.ofNat i).leftpad 5 ' ' ++ ": ".toList ++ cause)

def failureText (headline : Text) (causes : List Text) : Text :=
  Text.line ("Error: ".toList ++ headline) ++ causesText causes

def loadFailureText (path : Text) (fault : LoadFault) : Text :=
  failureText ("failed to load catalog ".toList ++ path) fault.causes

/-- The games that a request's filter leaves, in the order it asks for. -/
def filtered (c : Catalog) (t : Text) (o : Options) : Except Fault Catalog :=
  match o.sort with
  | some name => c.filterSortedNamed t name !o.descending
  | none => .ok (c.filter t)

def runFilter (c : Catalog) (t : Text) (o : Options) (fs : Files) : Report :=
  match filtered c t o with
  | .ok c => success c.current.listing fs
  | .error fault => ⟨1, [], failureText fault.message [], fs⟩

def runSession (c : Catalog) (o : Options) (input : List UInt8) (fs : Files) : Report :=
  let t := Script.run o.settings ⟨⟨c, .empty⟩, fs⟩ input
  if t.isCutShort then ⟨1, t.output, failureText Script.cutShortMessage [], t.desk.files⟩
  else success t.output t.desk.files

def runOptions (o : Options) (input : List UInt8) (fs : Files) : Report :=
  match Sheet.load fs o.settings.catalog with
  | .error fault => ⟨1, [], loadFailureText o.settings.catalog fault, fs⟩
  | .ok games =>
    match o.filter with
    | some t => runFilter (Catalog.ofGames games) t o fs
    | none => runSession (Catalog.ofGames games) o input fs

/-- A run in a folder: either one filtering, or a session that reads the input. -/
def run (args : List Text) (environment : Option Text) (input : List UInt8) (fs : Files) : Report :=
  match Options.read args environment with
  | some o => runOptions o input fs
  | none => misused fs

end CommandLine

end GameShelf
