import Promptline.Terminal.Color
import Promptline.Text.Quoted

set_option autoImplicit false

/-! # Terminal events

What a key press, or a report of the terminal, means; and the characters that stand for each event
on the line between program and terminal. The same characters move the terminal's own cursor and
erase its cells when the program writes them. -/

namespace Promptline.Terminal

/-- The characters below the space, and the delete character. -/
def isAsciiControl (c : Char) : Bool :=
  c.toNat < 0x20 || c.toNat == 0x7F

/-- One thing that a terminal reports or is told to do. Counts, rows and columns are what a
    terminal can name: 16-bit numbers. -/
inductive Event where
  /-- A run of printable characters. -/
  | text (run : List Char)
  | newline
  | tab
  | backspace
  | delete
  | cursorUp (n : UInt16)
  | cursorDown (n : UInt16)
  | cursorForward (n : UInt16)
  | cursorBackward (n : UInt16)
  | cursorNextLine (n : UInt16)
  | cursorPreviousLine (n : UInt16)
  /-- A column of the current row, counted from 1. -/
  | cursorColumn (column : UInt16)
  /-- A row and a column, both counted from 1. -/
  | cursorAbsolute (row column : UInt16)
  | eraseToEnd
  | eraseToBegin
  | eraseScreen
  | eraseBuffer
  | eraseLineToEnd
  | eraseLineToBegin
  | eraseLine
  | scrollUp (n : UInt16)
  | scrollDown (n : UInt16)
  | saveCursor
  | restoreCursor
  | setForeground (color : Color)
  | setBackground (color : Color)
  | resetAttributes
  | screenSizeRequest
  /-- The size of the screen in columns and rows. -/
  | screenSize (width height : UInt16)
  /-- The key that interrupts (control and C). -/
  | interrupt
  /-- The key that ends the input (control and D). -/
  | endOfTransmission
  deriving DecidableEq, Repr

namespace Event

/-- Whether `run` may be the run of a text event: not empty, and free of ASCII controls. -/
def isTextRun (run : List Char) : Bool :=
  !run.isEmpty && run.all fun c => !isAsciiControl c

/-- The text event with the given run, if it may be one. -/
def text? (run : List Char) : Option Event :=
  if isTextRun run then some (.text run) else none

/-- An event that a terminal can report: the run of a text event is a text run. -/
def WellFormed : Event → Prop
  | .text run => isTextRun run = true
  | _ => True

/-! ## Encoding -/

/-- The decimal digits of a number. -/
def decimal (n : UInt16) : List Char :=
  Nat.toDigits 10 n.toNat

/-- A control sequence: the escape character, a bracket, numbers between semicolons and a final
    character. -/
def controlSequence (numbers : List UInt16) (final : Char) : List Char :=
  ['\x1b', '['] ++ [';'].intercalate (numbers.map decimal) ++ [final]

/-- The characters that stand for an event. -/
def encode : Event → List Char
  | text run => run
  | newline => ['\r']
  | tab => ['\t']
  | backspace => ['\x08']
  | delete => ['\x7f']
  | cursorUp n => controlSequence [n] 'A'
  | cursorDown n => controlSequence [n] 'B'
  | cursorForward n => controlSequence [n] 'C'
  | cursorBackward n => controlSequence [n] 'D'
  | cursorNextLine n => controlSequence [n] 'E'
  | cursorPreviousLine n => controlSequence [n] 'F'
  | cursorColumn n => controlSequence [n] 'G'
  | cursorAbsolute row column => controlSequence [row, column] 'H'
  | eraseToEnd => controlSequence [0] 'J'
  | eraseToBegin => controlSequence [1] 'J'
  | eraseScreen => controlSequence [2] 'J'
  | eraseBuffer => controlSequence [3] 'J'
  | eraseLineToEnd => controlSequence [0] 'K'
  | eraseLineToBegin => controlSequence [1] 'K'
  | eraseLine => controlSequence [2] 'K'
  | scrollUp n => controlSequence [n] 'S'
  | scrollDown n => controlSequence [n] 'T'
  | saveCursor => controlSequence [] 's'
  | restoreCursor => controlSequence [] 'u'
  | setForeground color => controlSequence [color.foregroundCode] 'm'
  | setBackground color => controlSequence [color.backgroundCode] 'm'
  | resetAttributes => controlSequence [0] 'm'
  | screenSizeRequest => controlSequence [18] 't'
  | screenSize width height => controlSequence [8, height, width] 't'
  | interrupt => ['\x03']
  | endOfTransmission => ['\x04']

/-! ## Names -/

/-- What an event carries besides its name. -/
inductive Operand where
  | number (n : UInt16)
  | color (c : Color)
  | run (s : List Char)
  deriving DecidableEq, Repr

/-- The name of an event and what it carries, in order. -/
def parts : Event → String × List Operand
  | text s => ("Text", [.run s])
  | newline => ("Newline", [])
  | tab => ("Tab", [])
  | backspace => ("Backspace", [])
  | delete => ("Delete", [])
  | cursorUp n => ("CursorUp", [.number n])
  | cursorDown n => ("CursorDown", [.number n])
  | cursorForward n => ("CursorForward", [.number n])
  | cursorBackward n => ("CursorBackward", [.number n])
  | cursorNextLine n => ("CursorNextLine", [.number n])
  | cursorPreviousLine n => ("CursorPreviousLine", [.number n])
  | cursorColumn n => ("CursorColumn", [.number n])
  | cursorAbsolute row column => ("CursorAbsolute", [.number row, .number column])
  | eraseToEnd => ("EraseToEnd", [])
  | eraseToBegin => ("EraseToBegin", [])
  | eraseScreen => ("EraseScreen", [])
  | eraseBuffer => ("EraseBuffer", [])
  | eraseLineToEnd => ("EraseLineToEnd", [])
  | eraseLineToBegin => ("EraseLineToBegin", [])
  | eraseLine => ("EraseLine", [])
  | scrollUp n => ("ScrollUp", [.number n])
  | scrollDown n => ("ScrollDown", [.number n])
  | saveCursor => ("SaveCursor", [])
  | restoreCursor => ("RestoreCursor", [])
  | setForeground c => ("SetForeground", [.color c])
  | setBackground c => ("SetBackground", [.color c])
  | resetAttributes => ("ResetAttributes", [])
  | screenSizeRequest => ("ScreenSizeRequest", [])
  | screenSize width height => ("ScreenSize", [.number width, .number height])
  | interrupt => ("Interrupt", [])
  | endOfTransmission => ("EndOfTransmission", [])

/-- The event with a given name and given operands; a text event needs a text run. -/
def ofParts? : String → List Operand → Option Event
  | "Text", [.run s] => text? s
  | "Newline", [] => some newline
  | "Tab", [] => some tab
  | "Backspace", [] => some backspace
  | "Delete", [] => some delete
  | "CursorUp", [.number n] => some (cursorUp n)
  | "CursorDown", [.number n] => some (cursorDown n)
  | "CursorForward", [.number n] => some (cursorForward n)
  | "CursorBackward", [.number n] => some (cursorBackward n)
  | "CursorNextLine", [.number n] => some (cursorNextLine n)
  | "CursorPreviousLine", [.number n] => some (cursorPreviousLine n)
  | "CursorColumn", [.number n] => some (cursorColumn n)
  | "CursorAbsolute", [.number row, .number column] => some (cursorAbsolute row column)
  | "EraseToEnd", [] => some eraseToEnd
  | "EraseToBegin", [] => some eraseToBegin
  | "EraseScreen", [] => some eraseScreen
  | "EraseBuffer", [] => some eraseBuffer
  | "EraseLineToEnd", [] => some eraseLineToEnd
  | "EraseLineToBegin", [] => some eraseLineToBegin
  | "EraseLine", [] => some eraseLine
  | "ScrollUp", [.number n] => some (scrollUp n)
  | "ScrollDown", [.number n] => some (scrollDown n)
  | "SaveCursor", [] => some saveCursor
  | "RestoreCursor", [] => some restoreCursor
  | "SetForeground", [.color c] => some (setForeground c)
  | "SetBackground", [.color c] => some (setBackground c)
  | "ResetAttributes", [] => some resetAttributes
  | "ScreenSizeRequest", [] => some screenSizeRequest
  | "ScreenSize", [.number width, .number height] => some (screenSize width height)
  | "Interrupt", [] => some interrupt
  | "EndOfTransmission", [] => some endOfTransmission
  | _, _ => none

/-- How an operand is shown in a log. -/
def Operand.shown : Operand → String
  | number n => toString n.toNat
  | color c => c.name
  | run s => "TextRun(" ++ String.ofList (Quoted.text s) ++ ")"

/-- How an event is shown in a log. -/
def shown (e : Event) : String :=
  match e.parts with
  | (name, []) => name
  | (name, operands) => name ++ "(" ++ ", ".intercalate (operands.map Operand.shown) ++ ")"

end Event

end Promptline.Terminal
