import Promptline.Editor.Input
import Promptline.Process.Execution

set_option autoImplicit false

/-! # Lines as commands

What an interactive shell does with what the editor hands over: a line is a command for the
system's shell, unless nothing is in it or it asks to leave. -/

namespace Promptline

/-- What is done next. -/
inductive Request where
  /-- The next line is read. -/
  | proceed
  /-- The program ends. -/
  | leave
  | run (text : String)
  deriving DecidableEq, Repr

namespace Request

/-- The command that ends the program. -/
def leaveCommand : List Char := "exit".toList

/-- A text without the blanks at both ends. -/
def trimmed (text : List Char) : List Char :=
  ((text.dropWhile Unicode.isBlank).reverse.dropWhile Unicode.isBlank).reverse

/-- What an outcome of the editor asks for. -/
def ofOutcome : Outcome → Request
  | .line text _ =>
    let command := trimmed text
    if command.isEmpty then proceed
    else if command = leaveCommand then leave
    else run (String.ofList command)
  | .endOfInput => leave
  | .expanded _ | .resized .. | .interrupted => proceed

end Request

namespace Interaction

/-- The statement of a line. -/
def statement (text : String) : Statement :=
  .command { payload := .shell text }

/-- The record about a command that was run. -/
def note (text : String) (answer : Except ProcessError Int) : Log.Record :=
  let field := ("command_text", String.ofList (Quoted.text text.toList))
  match answer with
  | .ok code =>
    { level := .info, message := "command finished"
      fields := [field, ("exit_code", toString code)] }
  | .error e =>
    { level := .warn, message := "command failed"
      fields := [field, ("error", e.diagnostic.message)] }

/-- What is shown of a command that could not be run. -/
def complaint : Except ProcessError Int → List Char
  | .ok _ => []
  | .error e => ("rsh: " ++ e.diagnostic.message).toList ++ Edit.lineBreak

end Interaction

end Promptline
