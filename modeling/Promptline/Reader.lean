import Promptline.Diagnostic
import Promptline.Editor.Input

set_option autoImplicit false

/-! # Reading lines

A reader waits for input, acts on it, and hands over one outcome at a time. Events that stand
behind the one with the outcome wait for the next call. -/

namespace Promptline

open Terminal

/-- Why no outcome was read. -/
inductive ReadError where
  /-- Reading or writing failed. -/
  | io (message : String)
  /-- The reader was shut down. -/
  | closed
  deriving DecidableEq, Repr

def ReadError.diagnostic : ReadError → Diagnostic
  | io message => { message, code := "r3bl_shell::readline::io_error" }
  | closed =>
    { message := "readline was shut down"
      code := "r3bl_shell::readline::closed"
      help := some "A shutdown signal was broadcast while waiting for input." }

/-- What comes of one read. -/
inductive Delivery where
  /-- Bytes; none of them mean that the input has ended. -/
  | bytes (bs : List UInt8)
  | failure (message : String)
  /-- The reader is told to stop while it waits. -/
  | shutdown
  deriving DecidableEq, Repr

namespace Delivery

/-- The most bytes that one read takes. -/
def bufferSize : Nat := 1024

/-- The deliveries of a chunk of bytes: pieces of what one read takes, or the end of the input for
    no bytes. -/
def ofChunk (bs : List UInt8) : List Delivery :=
  if bs.isEmpty then [.bytes []] else (Grid.chunks bufferSize bs).map .bytes

end Delivery

/-- What a call for an outcome comes to. -/
structure Reading where
  answer : Except ReadError Outcome
  editor : Editor
  sink : Sink
  output : List Char
  notes : List Log.Record
  /-- The deliveries that were not read. -/
  remaining : List Delivery
  /-- Whether a read found no delivery left. -/
  exhausted : Bool

namespace Reading

/-- The same, after what was performed before. -/
def behind {α : Type} (p : Performed α) (r : Reading) : Reading :=
  { r with output := p.output ++ r.output, notes := p.notes ++ r.notes }

/-- A call that ends with what was performed last. -/
def ending {α : Type} (p : Performed α) (answer : Except ReadError Outcome)
    (remaining : List Delivery) : Reading where
  answer
  editor := p.editor
  sink := p.sink
  output := p.output
  notes := p.notes
  remaining
  exhausted := false

end Reading

namespace Reader

/-- Whether the end of the input is reported. -/
def endNote : Log.Record where
  level := .debug
  message := "input device reached end of input"

/-- The record about decoded input. -/
def queuedNote (count : Nat) : Log.Record where
  level := .trace
  message := "queued terminal events"
  fields := [("count", toString count)]

/-- Notes that the input has ended; the next line starts with a prompt. -/
def finish : Edit Unit := do
  Edit.note endNote
  Edit.update fun e => { e with needsPrompt := true }

/-- Decodes what was read. -/
def take (bs : List UInt8) : Edit Unit := do
  let count ← Edit.enqueue bs
  Edit.note (queuedNote count)

/-- Acts on what is queued up to the first outcome. -/
def applyQueued (files : FileTree) : Edit (Option Outcome) := do
  Edit.applyUntilOutcome files (← Edit.current).queue

/-- Acts on what is queued, and reads on as long as nothing comes of it. -/
def await (files : FileTree) (editor : Editor) (sink : Sink) : List Delivery → Reading
  | [] =>
    let applied := (applyQueued files).run editor sink
    match applied.value with
    | none => .ending applied (.error (.io applied.sink.failure)) []
    | some (some outcome) => .ending applied (.ok outcome) []
    | some none =>
      let ended := finish.run applied.editor applied.sink
      { (Reading.ending ended (.ok .endOfInput) []).behind applied with exhausted := true }
  | delivery :: rest =>
    let applied := (applyQueued files).run editor sink
    match applied.value with
    | none => .ending applied (.error (.io applied.sink.failure)) (delivery :: rest)
    | some (some outcome) => .ending applied (.ok outcome) (delivery :: rest)
    | some none =>
      match delivery with
      | .failure message => .ending applied (.error (.io message)) rest
      | .shutdown => .ending applied (.error .closed) rest
      | .bytes [] =>
        let ended := finish.run applied.editor applied.sink
        (Reading.ending ended (.ok .endOfInput) rest).behind applied
      | .bytes bs =>
        let taken := (take bs).run applied.editor applied.sink
        ((await files taken.editor taken.sink rest).behind taken).behind applied

/-- Shows the prompt where it is due. -/
def prompt : Edit Unit := do
  if (← Edit.current).needsPrompt then Edit.renderPrompt

/-- Reads one outcome: shows the prompt where it is due, acts on what is queued, and waits for more
    input until something comes of it. -/
def read (files : FileTree) (editor : Editor) (sink : Sink) (deliveries : List Delivery) :
    Reading :=
  let shown := prompt.run editor sink
  match shown.value with
  | none => .ending shown (.error (.io shown.sink.failure)) deliveries
  | some () => (await files shown.editor shown.sink deliveries).behind shown

end Reader

end Promptline
