import GameShelf.Files
import GameShelf.Session.Basic

namespace GameShelf

/-- A session in a folder. -/
structure Desk where
  session : Session
  files : Files

namespace Desk

/-- Carries out a command and says what is shown for it. -/
def step (settings : Settings) (d : Desk) (c : Command) : Desk × Text :=
  match d.session.perform settings c with
  | (session, .say t) => ({ d with session }, t)
  | (session, .save path content) =>
    match d.files.write path (Text.Utf8.encode content) with
    | .ok files => (⟨session, files⟩, Session.saved path)
    | .error fault => ({ d with session }, Session.notSaved fault.message)

end Desk

/-- What comes of a script: the texts shown between one line read and the next, the desk it leaves,
and whether a line that is no text cut it short. -/
structure Transcript where
  shown : List Text
  desk : Desk
  isCutShort : Bool

namespace Transcript

def output (t : Transcript) : Text := t.shown.flatten

def behind (t : Transcript) (shown : Text) : Transcript := { t with shown := shown :: t.shown }

end Transcript

namespace Script

/-- The lines of a script without their line feeds. Behind the last line feed there is a line only
if anything follows. -/
def lines (script : List UInt8) : List (List UInt8) :=
  go [] script
where
  go (line : List UInt8) : List UInt8 → List (List UInt8)
    | [] => if line.isEmpty then [] else [line.reverse]
    | b :: bytes => if b == 0x0A then line.reverse :: go [] bytes else go (b :: line) bytes

def farewell (d : Desk) : Transcript := ⟨[Text.line Help.goodbye], d, false⟩

/-- Reads line by line until one ends the session, one is no text, or there are no more. -/
def answer (settings : Settings) (d : Desk) : List (List UInt8) → Transcript
  | [] => farewell d
  | line :: lines =>
    match Text.Utf8.decode? line with
    | none => ⟨[], d, true⟩
    | some t =>
      match Command.read? t with
      | none => farewell d
      | some c =>
        let (d, shown) := d.step settings c
        (answer settings d lines).behind (shown ++ Help.prompt)

def run (settings : Settings) (d : Desk) (script : List UInt8) : Transcript :=
  (answer settings d (lines script)).behind (Text.line Help.welcome ++ Help.prompt)

/-- The report on a script that was cut short. -/
def cutShortMessage : Text := "stream did not contain valid UTF-8".toList

end Script

end GameShelf
