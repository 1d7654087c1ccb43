import Promptline.Completion.Completer
import Promptline.History
import Promptline.Line
import Promptline.Terminal.Decoder
import Promptline.Terminal.Visible

set_option autoImplicit false

/-! # The editor

Everything behind one prompt: the line being edited, the history, the input that was not yet
acted on, and what is on the screen besides prompt and line. -/

namespace Promptline

open Terminal

/-- What has to be undone when the candidates below the line go away. -/
structure Popup where
  /-- How many clusters stood behind the cursor when the candidates were shown. Meanwhile the
      cursor stands at the end of the line. -/
  distance : Nat
  /-- How many rows were written below the line. -/
  rows : Nat
  deriving DecidableEq, Repr

/-- What the keys act on. -/
inductive Mode where
  | input
  | popup (p : Popup)
  deriving DecidableEq, Repr

/-- What an event finished, for the caller to act on. -/
inductive Outcome where
  /-- A line was entered; it is part of the history already. -/
  | line (text : List Char) (cursor : Nat)
  /-- References to the history were replaced in the line, which is still being edited. -/
  | expanded (text : List Char)
  | resized (width height : UInt16)
  | endOfInput
  | interrupted
  deriving DecidableEq, Repr

/-- Whether the outcome ends the line, so that the next one starts with a prompt. -/
def Outcome.endsLine : Outcome → Bool
  | line .. | endOfInput | interrupted => true
  | expanded _ | resized .. => false

structure Editor where
  line : Line
  history : History
  decoder : Decoder
  /-- Events that were decoded and not yet acted on. -/
  queue : List Event
  settings : CompletionSettings
  commands : CommandTable
  prompt : List Char
  /-- Columns and rows of the terminal. -/
  size : UInt16 × UInt16
  mode : Mode
  /-- Whether the next line has to start with a prompt. -/
  needsPrompt : Bool
  deriving DecidableEq, Repr

/-- How many columns a prompt takes up, its styling apart. -/
def promptWidth (prompt : List Char) : Nat :=
  Unicode.displayWidth (Visible.shown prompt)

namespace Editor

/-- The editor before any input. -/
def start (prompt : List Char) (settings : CompletionSettings) (history : History)
    (size : UInt16 × UInt16) : Editor :=
  { line := .empty
    history
    decoder := .start
    queue := []
    settings
    commands := .empty
    prompt
    size
    mode := .input
    needsPrompt := true }

/-- The width of the terminal in columns. -/
def width (e : Editor) : Nat :=
  e.size.1.toNat

/-- What is to be completed. -/
def completionRequest (e : Editor) : CompletionRequest where
  line := e.line.text
  cursor := e.line.cursor
  width := e.width

end Editor

end Promptline
