import Promptline.Log
import Promptline.Terminal.ControlSequence

set_option autoImplicit false

/-! # Decoding terminal input

A terminal hands over bytes in chunks that may end anywhere, also inside an escape sequence or a
character. The decoder is a machine that takes one byte at a time; its state holds the bytes of
the sequence that is not complete yet. What a byte completes comes out as *pieces*, and the pieces
of one chunk are gathered into events.

Input that means nothing never stops the machine: it is reported and skipped, and the byte that
showed the fault is read again on its own. -/

namespace Promptline.Terminal

/-- The state of the decoder between two bytes. -/
inductive Decoder where
  /-- Nothing is open. A line feed right after a carriage return is part of the same newline. -/
  | ready (afterReturn : Bool)
  /-- An escape character was read. -/
  | escape
  /-- An escape character, a bracket and parameter bytes were read. -/
  | control (parameters : List UInt8)
  /-- The first bytes of a character that takes more were read. -/
  | character (lead : UInt8) (tail : List UInt8)
  deriving DecidableEq, Repr

namespace Decoder

/-- What a byte completes. -/
inductive Piece where
  | char (c : Char)
  /-- A byte that belongs to no character. -/
  | invalid (b : UInt8)
  /-- A control character that means nothing here. -/
  | dropped (b : UInt8)
  | event (e : Event)
  | error (e : DecodeError)
  deriving DecidableEq, Repr

/-- The decoder at the beginning of the input. -/
def start : Decoder :=
  ready false

/-- The bytes of the sequence that is not complete. -/
def pending : Decoder → List UInt8
  | ready _ => []
  | escape => [0x1B]
  | control parameters => 0x1B :: 0x5B :: parameters
  | character lead tail => lead :: tail

/-- Whether a sequence is not complete. -/
def hasPending (d : Decoder) : Bool :=
  !d.pending.isEmpty

/-! ## One byte -/

/-- The key that a control character stands for. -/
def key? (b : UInt8) : Option Event :=
  match b with
  | 0x09 => some .tab
  | 0x08 => some .backspace
  | 0x7F => some .delete
  | 0x03 => some .interrupt
  | 0x04 => some .endOfTransmission
  | _ => none

/-- Reads a byte when nothing is open. -/
def readFresh (afterReturn : Bool) (b : UInt8) : List Piece × Decoder :=
  if b = 0x1B then ([], escape)
  else if b = 0x0D then ([.event .newline], ready true)
  else if b = 0x0A then (if afterReturn then [] else [.event .newline], ready false)
  else match key? b with
    | some e => ([.event e], ready false)
    | none =>
      if b < 0x20 then ([.dropped b], ready false)
      else if 1 < Utf8.expectedLength b then ([], character b [])
      else match Utf8.decode? [b] with
        | some c => ([.char c], ready false)
        | none => ([.invalid b], ready false)

/-- Reads a byte behind an escape character. -/
def readEscape (b : UInt8) : List Piece × Decoder :=
  if b = 0x5B then ([], control [])
  else
    let (pieces, d) := readFresh false b
    (.error (.unsupportedEscape b) :: pieces, d)

/-- The pieces of a complete control sequence. -/
def controlPieces (parameters : List UInt8) (final : UInt8) : List Piece :=
  match ControlSequence.events parameters final with
  | .ok events => events.map .event
  | .error e => [.error e]

/-- Reads a byte inside a control sequence. -/
def readControl (parameters : List UInt8) (b : UInt8) : List Piece × Decoder :=
  if ControlSequence.isParameterByte b then ([], control (parameters ++ [b]))
  else if ControlSequence.isFinalByte b then (controlPieces parameters b, ready false)
  else
    let (pieces, d) := readFresh false b
    (.error (.malformedParameters (parameters ++ [b])) :: pieces, d)

/-- Reads a byte inside a character. If the bytes turn out to be no character, each of them is
    invalid on its own, and the last one is read again if it can begin something. -/
def readCharacter (lead : UInt8) (tail : List UInt8) (b : UInt8) : List Piece × Decoder :=
  if Utf8.isContinuation b ∧ tail.length + 2 < Utf8.expectedLength lead then
    ([], character lead (tail ++ [b]))
  else match Utf8.decode? (lead :: tail ++ [b]) with
    | some c => ([.char c], ready false)
    | none =>
      let (pieces, d) := readFresh false b
      ((lead :: tail).map .invalid ++ pieces, d)

/-- Reads one byte: what it completes, and the state after it. -/
def read (d : Decoder) (b : UInt8) : List Piece × Decoder :=
  match d with
  | ready afterReturn => readFresh afterReturn b
  | escape => readEscape b
  | control parameters => readControl parameters b
  | character lead tail => readCharacter lead tail b

/-! ## Many bytes -/

/-- Reads bytes one after another. -/
def run (d : Decoder) : List UInt8 → List Piece × Decoder
  | [] => ([], d)
  | b :: rest =>
    let (pieces, d') := d.read b
    let (more, last) := run d' rest
    (pieces ++ more, last)

/-- Reading two stretches one after the other is reading them as one. -/
theorem run_append (d : Decoder) (bs cs : List UInt8) :
    d.run (bs ++ cs) =
      ((d.run bs).1 ++ ((d.run bs).2.run cs).1, ((d.run bs).2.run cs).2) := by
  induction bs generalizing d with
  | nil => simp [run]
  | cons b bs ih => simp [run, ih, List.append_assoc]

/-- Puts a text event for `run` in front of events, if there is any text. -/
def withRun (run : List Char) (events : List Event) : List Event :=
  if run.isEmpty then events else .text run :: events

/-- The text at the front of the pieces, and the events behind it. Dropped bytes do not divide
    text, events and errors do. -/
def gather : List Piece → List Char × List Event
  | [] => ([], [])
  | .char c :: rest => (c :: (gather rest).1, (gather rest).2)
  | .invalid _ :: rest => (Utf8.replacement :: (gather rest).1, (gather rest).2)
  | .dropped _ :: rest => gather rest
  | .event e :: rest => ([], e :: withRun (gather rest).1 (gather rest).2)
  | .error _ :: rest => ([], withRun (gather rest).1 (gather rest).2)

/-- The events that pieces stand for, with text gathered into runs. -/
def events (pieces : List Piece) : List Event :=
  withRun (gather pieces).1 (gather pieces).2

/-- The errors among pieces. -/
def errors (pieces : List Piece) : List DecodeError :=
  pieces.filterMap fun
    | .error e => some e
    | _ => none

/-- How many bytes of a sequence are kept when a chunk ends inside it. -/
def maxPending : Nat := 32

/-- What one chunk of input means. -/
structure Decoded where
  events : List Event
  errors : List DecodeError
  deriving DecidableEq, Repr

/-- Decodes one chunk. A sequence that is not complete at its end is kept for the next chunk,
    unless it has become too long. -/
def decode (d : Decoder) (chunk : List UInt8) : Decoded × Decoder :=
  let (pieces, last) := d.run chunk
  let length := last.pending.length
  if maxPending < length then
    ({ events := events pieces, errors := errors pieces ++ [.sequenceTooLong length] }, start)
  else
    ({ events := events pieces, errors := errors pieces }, last)

/-- Decodes bytes that are all of the input: the first fault is the answer, and a sequence that is
    not complete is one. -/
def decodeAll (bytes : List UInt8) : Except DecodeError (List Event) :=
  let (pieces, last) := start.run bytes
  match errors pieces with
  | e :: _ => .error e
  | [] =>
    if last.hasPending then .error (.incompleteSequence last.pending.length)
    else .ok (events pieces)

/-! ## What is logged -/

/-- The record about a piece. `available` counts the bytes from the first that was not yet
    decoded to the end of the chunk: with fewer than a character of its kind takes, the lead byte
    is at fault, else the sequence. -/
def note? (available : Nat) : Piece → Option Log.Record
  | .dropped b =>
    some { level := .trace, message := "dropping C0 control byte"
           fields := [("byte", toString b.toNat)] }
  | .invalid b =>
    some { level := .trace
           message :=
             if Utf8.expectedLength b ≤ available then "invalid UTF-8 sequence"
             else "invalid UTF-8 lead byte"
           fields := [("byte", toString b.toNat)] }
  | _ => none

/-- The records about the last `left` bytes of a chunk. -/
def notesFrom (d : Decoder) (left : Nat) : List UInt8 → List Log.Record
  | [] => []
  | b :: rest =>
    let (pieces, d') := d.read b
    pieces.filterMap (note? (d.pending.length + left)) ++ notesFrom d' (left - 1) rest

/-- The records about the bytes of a chunk. -/
def notes (d : Decoder) (chunk : List UInt8) : List Log.Record :=
  notesFrom d chunk.length chunk

end Decoder

end Promptline.Terminal
