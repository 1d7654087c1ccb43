import Promptline.Terminal.DecodeError
import Promptline.Terminal.Event

set_option autoImplicit false

/-! # Control sequences

What stands between `ESC [` and the end of a control sequence: numbers between semicolons, each of
which may be left out, and a final character that names the command. -/

namespace Promptline.Terminal.ControlSequence

/-- Bytes that may stand between the bracket and the final byte. -/
def isParameterByte (b : UInt8) : Bool :=
  0x20 ≤ b && b ≤ 0x3F

/-- Bytes that end a control sequence. -/
def isFinalByte (b : UInt8) : Bool :=
  0x40 ≤ b && b ≤ 0x7E

/-- The byte of `;`. -/
def separator : UInt8 := 0x3B

/-! ## Parameters -/

/-- The slots of the parameter bytes: none if there are no bytes, else the stretches between
    separators, one more than there are separators. -/
def slots (parameters : List UInt8) : List (List UInt8) :=
  if parameters.isEmpty then [] else parameters.splitOn separator

def isDigit (b : UInt8) : Bool :=
  0x30 ≤ b && b ≤ 0x39

/-- A number as a parameter holds it, unless it is too large. -/
def fit? (n : Nat) : Option UInt16 :=
  if n < 65536 then some (UInt16.ofNat n) else none

/-- A number with one more digit behind it; there is none as soon as a parameter cannot hold it. -/
def withDigit? (n : UInt16) (digit : UInt8) : Option UInt16 := do
  let tens ← fit? (n.toNat * 10)
  fit? (tens.toNat + (digit.toNat - 0x30))

/-- The number of decimal digits, which are read one after another. -/
def number? (digits : List UInt8) : Option UInt16 :=
  digits.foldlM withDigit? 0

/-- The number in a slot, `none` in an empty one. There is none for other bytes than digits, or
    if the value is too large for a parameter. -/
def slot? (slot : List UInt8) : Option (Option UInt16) :=
  if slot.isEmpty then some none
  else if slot.all isDigit then (number? slot).map some
  else none

/-- The numbers in the parameter bytes. -/
def parameters? (parameters : List UInt8) : Option (List (Option UInt16)) :=
  (slots parameters).mapM slot?

/-! ## Commands -/

/-- What a parameter is when it is left out. -/
def absent : UInt16 := 1

/-- The number of a command that takes one. -/
def single? : List (Option UInt16) → Option UInt16
  | [] => some absent
  | [n] => some (n.getD absent)
  | _ => none

/-- The row and column of a command that takes both. -/
def position? : List (Option UInt16) → Option (UInt16 × UInt16)
  | [] => some (absent, absent)
  | [row] => some (row.getD absent, absent)
  | [row, column] => some (row.getD absent, column.getD absent)
  | _ => none

/-- What the erasing of a screen covers. -/
def eraseScreen? : UInt16 → Option Event
  | 0 => some .eraseToEnd
  | 1 => some .eraseToBegin
  | 2 => some .eraseScreen
  | 3 => some .eraseBuffer
  | _ => none

/-- What the erasing of a row covers. -/
def eraseLine? : UInt16 → Option Event
  | 0 => some .eraseLineToEnd
  | 1 => some .eraseLineToBegin
  | 2 => some .eraseLine
  | _ => none

/-- One number of a command that sets attributes; left out, it resets them. -/
def attribute? (n : Option UInt16) : Option Event :=
  let code := n.getD 0
  if code = 0 then some .resetAttributes
  else match Color.ofForegroundCode? code with
    | some color => some (.setForeground color)
    | none => (Color.ofBackgroundCode? code).map .setBackground

/-- The final bytes that name a command. -/
def commands : List Char :=
  ['A', 'B', 'C', 'D', 'E', 'F', 'G', 'S', 'T', 'H', 'f', 'J', 'K', 's', 'u', 't', 'm']

/-- The events of a command, if it takes these numbers. -/
def events? (command : Char) (numbers : List (Option UInt16)) : Option (List Event) :=
  match command with
  | 'A' => (single? numbers).map ([.cursorUp ·])
  | 'B' => (single? numbers).map ([.cursorDown ·])
  | 'C' => (single? numbers).map ([.cursorForward ·])
  | 'D' => (single? numbers).map ([.cursorBackward ·])
  | 'E' => (single? numbers).map ([.cursorNextLine ·])
  | 'F' => (single? numbers).map ([.cursorPreviousLine ·])
  | 'G' => (single? numbers).map ([.cursorColumn ·])
  | 'S' => (single? numbers).map ([.scrollUp ·])
  | 'T' => (single? numbers).map ([.scrollDown ·])
  | 'H' | 'f' => (position? numbers).map fun (row, column) => [.cursorAbsolute row column]
  | 'J' => ((single? numbers).bind eraseScreen?).map ([·])
  | 'K' => ((single? numbers).bind eraseLine?).map ([·])
  | 's' => if numbers.isEmpty then some [.saveCursor] else none
  | 'u' => if numbers.isEmpty then some [.restoreCursor] else none
  | 't' =>
    match numbers with
    | [some 18] => some [.screenSizeRequest]
    | [some 8, some height, some width] => some [.screenSize width height]
    | _ => none
  | 'm' => if numbers.isEmpty then some [.resetAttributes] else numbers.mapM attribute?
  | _ => none

/-- The events of a complete control sequence, or what is wrong with it. Bytes that are no numbers
    are reported before a command that is not known. -/
def events (parameters : List UInt8) (final : UInt8) : Except DecodeError (List Event) :=
  let command := Char.ofNat final.toNat
  match parameters? parameters with
  | none => .error (.malformedParameters parameters)
  | some numbers =>
    if command ∈ commands then
      match events? command numbers with
      | some events => .ok events
      | none => .error (.invalidParameter command parameters)
    else .error (.unknownCommand command)

end Promptline.Terminal.ControlSequence
