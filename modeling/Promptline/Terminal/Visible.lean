import Promptline.Text.Utf8

set_option autoImplicit false

/-! # What a terminal shows of a text

A prompt may hold escape sequences that style it and show nothing. Here is the machine by which
terminals take such a text apart: control sequences, commands to the operating system, device
control strings, other strings and short escapes vanish, and so do all controls but the line
feed. -/

namespace Promptline.Terminal.Visible

/-- Where in a sequence the machine is. -/
inductive State where
  | ground
  | escape
  | escapeIntermediate
  | controlEntry
  | controlParameter
  | controlIntermediate
  | controlIgnore
  | systemCommand
  | deviceEntry
  | deviceParameter
  | deviceIntermediate
  | deviceIgnore
  | deviceString
  | otherString
  deriving DecidableEq, Repr

/-- Controls that take effect even inside a sequence. -/
def isInnerControl (b : UInt8) : Bool :=
  b ≤ 0x17 || b = 0x19 || (0x1C ≤ b && b ≤ 0x1F)

/-- What a control shows: only the line feed stays. -/
def shownControl (b : UInt8) : List Char :=
  if b = 0x0A then ['\n'] else []

/-- Bytes that break off any sequence. -/
def leave (s : State) (b : UInt8) : State :=
  if b = 0x18 || b = 0x1A then .ground
  else if b = 0x1B then .escape
  else s

def isIntermediate (b : UInt8) : Bool :=
  0x20 ≤ b && b ≤ 0x2F

def isFinal (b : UInt8) : Bool :=
  0x40 ≤ b && b ≤ 0x7E

/-- The state behind an escape character and a byte. -/
def afterEscape (b : UInt8) : State :=
  if isIntermediate b then .escapeIntermediate
  else if b = 0x50 then .deviceEntry
  else if b = 0x58 || b = 0x5E || b = 0x5F then .otherString
  else if b = 0x5B then .controlEntry
  else if b = 0x5D then .systemCommand
  else if 0x30 ≤ b && b ≤ 0x7E then .ground
  else if b = 0x18 || b = 0x1A then .ground
  else .escape

/-- The state behind a byte of a control sequence. -/
def afterControl (s : State) (b : UInt8) : State :=
  if isFinal b then .ground
  else if s = .controlIgnore then (if 0x20 ≤ b && b ≤ 0x3F then s else leave s b)
  else if isIntermediate b then .controlIntermediate
  else if s = .controlIntermediate then
    if 0x30 ≤ b && b ≤ 0x3F then .controlIgnore else leave s b
  else if 0x30 ≤ b && b ≤ 0x3B then .controlParameter
  else if 0x3C ≤ b && b ≤ 0x3F then
    if s = .controlEntry then .controlParameter else .controlIgnore
  else leave s b

/-- The state behind a byte at the head of a device control string. -/
def afterDevice (s : State) (b : UInt8) : State :=
  if isFinal b then .deviceString
  else if isIntermediate b then .deviceIntermediate
  else if s = .deviceIntermediate then
    if 0x30 ≤ b && b ≤ 0x3F then .deviceIgnore else leave s b
  else if 0x30 ≤ b && b ≤ 0x3B then .deviceParameter
  else if 0x3C ≤ b && b ≤ 0x3F then
    if s = .deviceEntry then .deviceParameter else .deviceIgnore
  else leave s b

/-- Reads a byte inside a sequence: what is shown of it, and the state behind it. -/
def readInside (s : State) (b : UInt8) : List Char × State :=
  match s with
  | .ground => ([], s)
  | .escape => if isInnerControl b then (shownControl b, s) else ([], afterEscape b)
  | .escapeIntermediate =>
    if isInnerControl b then (shownControl b, s)
    else if 0x30 ≤ b && b ≤ 0x7E then ([], .ground)
    else ([], leave s b)
  | .controlEntry | .controlParameter | .controlIntermediate | .controlIgnore =>
    if isInnerControl b then (shownControl b, s) else ([], afterControl s b)
  | .systemCommand => if b = 0x07 then ([], .ground) else ([], leave s b)
  | .deviceEntry | .deviceParameter | .deviceIntermediate =>
    if isInnerControl b then ([], s) else ([], afterDevice s b)
  | .deviceString => if b = 0x9C then ([], .ground) else ([], leave s b)
  | .deviceIgnore | .otherString => ([], leave s b)

/-- What is shown of a character outside of sequences. -/
def shownChar (c : Char) : List Char :=
  if c.toNat < 0x20 || (0x80 ≤ c.toNat && c.toNat ≤ 0x9F) then
    if c = '\n' then ['\n'] else []
  else [c]

/-- What is shown of bytes outside of sequences. -/
def shownPlain (bytes : List UInt8) : List Char :=
  (Utf8.pieces bytes).flatMap fun
    | .char c => shownChar c
    | .broken [b] => if b ≤ 0x9F then [] else [Utf8.replacement]
    | .broken _ => [Utf8.replacement]

/-- What is shown of bytes that are read in a state; `plain` holds the bytes since the last
    sequence. -/
def shownFrom (s : State) (plain : List UInt8) : List UInt8 → List Char
  | [] => shownPlain plain.reverse
  | b :: rest =>
    if s = .ground then
      if b = 0x1B then shownPlain plain.reverse ++ shownFrom .escape [] rest
      else shownFrom .ground (b :: plain) rest
    else
      let (shown, s') := readInside s b
      shown ++ shownFrom s' [] rest

/-- What a terminal shows of a text. -/
def shown (text : List Char) : List Char :=
  shownFrom .ground [] (Utf8.encode text)

end Promptline.Terminal.Visible
