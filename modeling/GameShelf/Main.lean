import GameShelf.CommandLine.Basic

open GameShelf

namespace GameShelf.Console

/-- The code with which the system refuses to read or write a folder. -/
def folderCode : UInt32 := 21

/-- The code with which a path with a zero byte is refused. -/
def zeroByteCode : UInt32 := 22

def isFolderError : IO.Error → Bool
  | .inappropriateType _ code _ => code == folderCode
  | _ => false

def describe : IO.Error → Text
  | .noFileOrDirectory .. => FileFault.missing.message
  | .inappropriateType _ code _ =>
    if code == folderCode then FileFault.isFolder.message else FileFault.notFolder.message
  | .invalidArgument _ code _ =>
    if code == zeroByteCode then FileFault.zeroByte.message else FileFault.nameTooLong.message
  | e => (toString e).toList

def writeText (t : Text) : IO Unit := do
  let out ← IO.getStdout
  out.putStr (String.ofList t)
  out.flush

def writeErrors (t : Text) : IO Unit := do
  let err ← IO.getStderr
  err.putStr (String.ofList t)

def save (path content : Text) : IO Text := do
  try
    IO.FS.writeFile (String.ofList path) (String.ofList content)
    return Session.saved path
  catch e => return Session.notSaved (describe e)

/-- The bytes up to and with the next line feed. -/
partial def readLine (input : IO.FS.Stream) (line : List UInt8) : IO (List UInt8) := do
  let bytes ← input.read 1
  match bytes.toList with
  | b :: _ => if b == 0x0A then return (b :: line).reverse else readLine input (b :: line)
  | [] => return line.reverse

/-- Converses until a line ends the session. -/
partial def converse (settings : Settings) (s : Session) (input : IO.FS.Stream) : IO UInt32 := do
  writeText Help.prompt
  let line ← readLine input []
  match Text.Utf8.decode? line with
  | none =>
    writeErrors (CommandLine.failureText Script.cutShortMessage [])
    return 1
  | some t =>
    match Command.read? t with
    | none =>
      writeText (Text.line Help.goodbye)
      return 0
    | some c =>
      let (s, reply) := s.perform settings c
      match reply with
      | .say t => writeText t
      | .save path content => writeText (← save path content)
      converse settings s input

def loadGames (path : Text) : IO (Except LoadFault (List Game) ⊕ Text) := do
  try
    return .inl (Sheet.games (← IO.FS.readBinFile (String.ofList path)).toList)
  catch e => return if isFolderError e then .inl (.error .folder) else .inr (describe e)

def runOptions (o : Options) : IO UInt32 := do
  match ← loadGames o.settings.catalog with
  | .inr why =>
    writeErrors (CommandLine.failureText
      ("failed to load catalog ".toList ++ o.settings.catalog) [why, why])
    return 1
  | .inl (.error fault) =>
    writeErrors (CommandLine.loadFailureText o.settings.catalog fault)
    return 1
  | .inl (.ok games) =>
    match o.filter with
    | some t =>
      let report := CommandLine.runFilter (Catalog.ofGames games) t o .empty
      writeText report.output
      writeErrors report.errors
      return report.code.toUInt32
    | none =>
      writeText (Text.line Help.welcome)
      converse o.settings (Session.ofGames games) (← IO.getStdin)

end GameShelf.Console

def main (args : List String) : IO UInt32 := do
  let environment ← IO.getEnv "ARENA_GAMES"
  match Options.read (args.map String.toList) (environment.map String.toList) with
  | some o => Console.runOptions o
  | none =>
    Console.writeErrors "usage: arena [-g PATH] [--list-file PATH] [-f FILTER [-s ATTRIBUTE [--desc]]] [-v]\n".toList
    return 2
