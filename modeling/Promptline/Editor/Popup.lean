import Promptline.Editor.Screen

set_option autoImplicit false

/-! # Showing candidates

Candidates are shown in rows below the line, and go away before the next event is acted on. While
they are shown, the cursor stands at the end of the line. -/

namespace Promptline.Edit

open Terminal Unicode

/-- Shows candidates below the line. -/
def showCandidates (grid : Grid) : Edit Unit := do
  let e ← current
  moveForward e.line.widthAfter
  let distance := e.line.distanceToEnd
  saveLine e.line.moveToEnd
  all (grid.rows.map fun row => do print lineBreak; print row)
  control (.cursorPreviousLine (columns grid.rowCount))
  moveForward (promptWidth e.prompt + displayWidth e.line.text)
  saveMode (.popup { distance, rows := grid.rowCount })
  note
    { level := .debug, message := "popup shown"
      fields := [("lines_added", toString grid.rowCount),
        ("cursor_forward_distance", toString distance),
        ("column_count", toString grid.columnCount)] }

/-- Puts the cursor back to where it was when the candidates were shown. -/
def restoreCursor (p : Popup) : Edit Unit := do
  let e ← current
  moveBackward (e.line.widthBefore p.distance)
  saveLine (e.line.move (-p.distance))

/-- Erases the rows of the candidates. -/
def eraseCandidates (p : Popup) : Edit Unit := do
  control .saveCursor
  all (List.replicate p.rows do control (.cursorNextLine 1); control .eraseLine)
  control .restoreCursor

/-- Makes candidates go away before an event. A terminal of a new size has moved the rows, so all
    that is below the cursor is erased then. -/
def dismissBefore (event : Event) : Edit Unit := do
  let e ← current
  match e.mode with
  | .input => pure ()
  | .popup p =>
    saveMode .input
    match event with
    | .screenSize .. => control .eraseToEnd
    | _ => eraseCandidates p
    restoreCursor p

end Promptline.Edit
