import Promptline.Editor.Popup

set_option autoImplicit false

/-! # What the keys do

One edit for each kind of event. -/

namespace Promptline.Edit

open Terminal Unicode

/-- Puts text in at the cursor. -/
def typeText (s : List Char) : Edit Unit := do
  let e ← current
  let line := e.line.insert s
  saveLine line
  print s
  print line.after
  moveBackward line.widthAfter

/-- Erases a stretch that ends at the cursor, if there is one. -/
def eraseBehind (erasure : Line.Erasure) : Edit Unit := do
  let e ← current
  match e.line.erase? erasure with
  | none => pure ()
  | some (removed, line) =>
    saveLine line
    moveBackward (displayWidth removed)
    redrawRemainder

/-- Erases what stands behind the cursor. -/
def eraseToEnd : Edit Unit := do
  let e ← current
  match e.line.erase? .toEnd with
  | none => pure ()
  | some (_, line) =>
    saveLine line
    control .eraseLineToEnd

/-- Erases the whole line. -/
def eraseEverything : Edit Unit := do
  let e ← current
  match e.line.erase? .everything with
  | none => pure ()
  | some (_, line) =>
    saveLine line
    moveBackward (displayWidth e.line.before)
    control .eraseLineToEnd

/-- Moves the cursor to the left, not beyond the beginning. -/
def goBackward (n : Nat) : Edit Unit := do
  let e ← current
  let count := min n e.line.cursor
  if count = 0 then pure ()
  else
    saveLine (e.line.move (-count))
    moveBackward (e.line.widthBefore count)

/-- Moves the cursor to the right, not beyond the end. -/
def goForward (n : Nat) : Edit Unit := do
  let e ← current
  let line := e.line.move n
  saveLine line
  moveForward (line.widthBefore (e.line.moved n).natAbs)

/-! ## History -/

/-- Which way to walk through the history. -/
inductive Direction where
  | older | newer
  deriving DecidableEq, Repr

/-- One step through the history with `current` as the line that is shown. -/
def historyStep (direction : Direction) (h : History) (current : List Char) :
    Option (List Char) × History :=
  match direction with
  | .older => h.selectPrevious current
  | .newer => h.selectNext

/-- Steps through the history: the line that was selected last, and the history then. -/
def historySteps (direction : Direction) (text : List Char) :
    Nat → Option (List Char) → History → Option (List Char) × History
  | 0, selected, h => (selected, h)
  | n + 1, selected, h =>
    let (found, h') := historyStep direction h (selected.getD text)
    historySteps direction text n (found <|> selected) h'

/-- Walks through the history, and shows the line that is then selected. -/
def browse (direction : Direction) (n : Nat) : Edit Unit := do
  let e ← current
  let (selected, history) := historySteps direction e.line.text n none e.history
  saveHistory history
  match selected with
  | none => pure ()
  | some entry => redrawLine entry

/-! ## Finishing a line -/

/-- Replaces the references in the line. -/
def showExpanded (text : List Char) : Edit Outcome := do
  redrawLine text
  note
    { level := .debug, message := "expanded history reference"
      fields := [("expanded", String.ofList text)] }
  pure (.expanded text)

/-- Hands the line over and starts an empty one. -/
def submit : Edit Outcome := do
  print lineBreak
  let e ← current
  let text := e.line.text
  saveLine .empty
  saveHistory (e.history.append text).reset
  note
    { level := .debug, message := "line submitted", fields := [("text", String.ofList text)] }
  pure (.line text e.line.cursor)

/-- Ends the line, unless it refers to the history: then the references are replaced, and the line
    is edited further. -/
def enter : Edit Outcome := do
  let before ← current
  moveForward before.line.widthAfter
  saveLine before.line.moveToEnd
  let e ← current
  all ((e.history.notes e.line.text).map note)
  let expanded := e.history.expand e.line.text
  if expanded = e.line.text then submit else showExpanded expanded

/-- Abandons the line. -/
def interrupt : Edit Outcome := do
  print lineBreak
  let e ← current
  saveLine .empty
  saveHistory e.history.reset
  pure .interrupted

/-- Ends the input, if the line is empty. -/
def endInput : Edit (Option Outcome) := do
  let e ← current
  if e.line.isEmpty then
    print lineBreak
    pure (some .endOfInput)
  else pure none

/-! ## All keys -/

/-- The record about an event that does nothing. -/
def ignoredNote (event : Event) : Log.Record where
  level := .trace
  message := "ignored terminal event"
  fields := [("event", event.shown)]

/-- Acts on an event, completion apart. -/
def handle (event : Event) : Edit (Option Outcome) := do
  match event with
  | .text s => typeText s; pure none
  | .newline => return some (← enter)
  | .backspace | .delete => eraseBehind .previous; pure none
  | .cursorForward n => goForward n.toNat; pure none
  | .cursorBackward n => goBackward n.toNat; pure none
  | .cursorUp n | .cursorPreviousLine n => browse .older n.toNat; pure none
  | .cursorDown n | .cursorNextLine n => browse .newer n.toNat; pure none
  | .eraseLineToEnd => eraseToEnd; pure none
  | .eraseLineToBegin => eraseBehind .toBegin; pure none
  | .eraseLine => eraseEverything; pure none
  | .screenSize width height =>
    update fun e => { e with size := (width, height) }
    pure (some (.resized width height))
  | .interrupt => return some (← interrupt)
  | .endOfTransmission => endInput
  | _ => note (ignoredNote event); pure none

end Promptline.Edit
