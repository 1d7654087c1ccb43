import Promptline.Editor.Edit

set_option autoImplicit false

/-! # Keeping the screen in step

Small edits that move the terminal's cursor and redraw parts of the line. The rule that all of
them serve: after an event the screen shows prompt and line, and the terminal's cursor stands
where the cursor of the line is. -/

namespace Promptline.Edit

open Terminal Unicode

/-- The end of a row. -/
def lineBreak : List Char := ['\r', '\n']

/-- A count of columns as a terminal takes it; larger ones are cut down to the largest. -/
def columns (width : Nat) : UInt16 :=
  UInt16.ofNat (min width 65535)

/-- Moves the terminal's cursor to the left. -/
def moveBackward (width : Nat) : Edit Unit :=
  if width = 0 then pure () else control (.cursorBackward (columns width))

/-- Moves the terminal's cursor to the right. -/
def moveForward (width : Nat) : Edit Unit :=
  if width = 0 then pure () else control (.cursorForward (columns width))

/-- Replaces the line. -/
def saveLine (l : Line) : Edit Unit :=
  update fun e => { e with line := l }

/-- Replaces the history. -/
def saveHistory (h : History) : Edit Unit :=
  update fun e => { e with history := h }

/-- Replaces the mode. -/
def saveMode (m : Mode) : Edit Unit :=
  update fun e => { e with mode := m }

/-- Shows what stands behind the cursor again, and nothing behind that. -/
def redrawRemainder : Edit Unit := do
  let e ← current
  print e.line.after
  control .eraseLineToEnd
  moveBackward e.line.widthAfter

/-- Shows another text in the place of the whole line, and makes it the line. -/
def redrawLine (text : List Char) : Edit Unit := do
  let e ← current
  moveForward e.line.widthAfter
  moveBackward (displayWidth e.line.text)
  control .eraseLineToEnd
  print text
  saveLine (.ofText text)

/-- Shows the prompt and the line. -/
def renderPrompt : Edit Unit := do
  let e ← current
  print e.prompt
  print e.line.text
  moveBackward e.line.widthAfter
  update fun e => { e with needsPrompt := false }

/-- Replaces the prompt from the next time that it is shown. -/
def setPrompt (prompt : List Char) : Edit Unit :=
  update fun e => { e with prompt }

end Promptline.Edit
