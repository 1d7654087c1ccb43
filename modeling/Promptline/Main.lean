import Promptline.CommandLine
import Promptline.Interaction
import Promptline.Log.Destination
import Promptline.Reader
import Promptline.Shell.System

set_option autoImplicit false

/-! # The program

An interactive shell on standard input and output, over files that are kept in memory. -/

namespace Promptline.Program

open Terminal

/-- What goes on from one line to the next. -/
structure State where
  editor : Editor
  session : Session Shell.System
  log : Log.Destination
  verbosity : Log.Verbosity

/-- Writes records to the log; one that cannot be opened is left alone. -/
def record (s : State) (notes : List Log.Record) : State :=
  match s.log.write s.session.host.files s.verbosity notes with
  | .ok (_, files) =>
    { s with session := { s.session with host := { s.session.host with files } } }
  | .error _ => s

/-- How many rounds a command gets. -/
def rounds : Nat := 1000000

/-- Runs a line: what is shown of that, and the state after it. -/
def runLine (s : State) (text : String) : List Char × State :=
  let ran := s.session.execute Shell.host rounds (Interaction.statement text)
  let s := record { s with session := { ran.session with notes := [] } } ran.session.notes
  match ran.answer with
  | some answer => (Interaction.complaint answer, record s [Interaction.note text answer])
  | none => ([], s)

def display (out : IO.FS.Stream) (text : List Char) : IO Unit := do
  out.putStr (String.ofList text)
  out.flush

/-- Performs an edit on the terminal. -/
def perform {α : Type} (out : IO.FS.Stream) (s : State) (x : Edit α) :
    IO (Option α × State) := do
  let done := x.run s.editor .working
  display out done.output
  pure (done.value, record { s with editor := done.editor } done.notes)

/-- Reads and acts until the program ends. -/
partial def loop (input out : IO.FS.Stream) (s : State) : IO Unit := do
  let (_, s) ← perform out s Reader.prompt
  match ← perform out s (Reader.applyQueued s.session.host.files) with
  | (some (some outcome), s) =>
    match Request.ofOutcome outcome with
    | .proceed => loop input out s
    | .leave => pure ()
    | .run text =>
      let (shown, s) := runLine s text
      display out shown
      loop input out s
  | (_, s) =>
    let bytes ← input.read (USize.ofNat Delivery.bufferSize)
    if bytes.isEmpty then
      let (_, _) ← perform out s Reader.finish
    else
      let (_, s) ← perform out s (Reader.take bytes.toList)
      loop input out s

/-- Starts the program as the command line asks. -/
def start (options : Options) (searchPath : Option String) : State :=
  let config := options.configure (.ofSearchPath (searchPath.map fun s => s.toUTF8.toList))
  { editor := config.editor
    session :=
      { host := .start "sh".toList config.currentDirectory .empty
        table := .empty }
    log := (options.logFile.map fun p => .file (Path.ofString p)).getD .nowhere
    verbosity := some options.logLevel }

end Promptline.Program

def main (arguments : List String) : IO UInt32 := do
  match Promptline.Options.parse arguments with
  | .error e =>
    IO.eprintln ("error: " ++ e.message)
    pure 2
  | .ok options =>
    Promptline.Program.loop (← IO.getStdin) (← IO.getStdout)
      (Promptline.Program.start options (← IO.getEnv "PATH"))
    pure 0
