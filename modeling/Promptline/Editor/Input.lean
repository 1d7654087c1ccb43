import Promptline.Editor.Keys

set_option autoImplicit false

/-! # Acting on input

Bytes are decoded into a queue of events, and the events are acted on one after another. -/

namespace Promptline.Edit

open Terminal

/-! ## Completion -/

/-- Makes candidates go away, and says what is to be completed. -/
def prepareCompletion : Edit CompletionRequest := do
  dismissBefore .tab
  return (← current).completionRequest

/-- Looks for completions; the command table may be rebuilt for that. -/
def runCompletion (files : FileTree) (request : CompletionRequest) : Edit Completion := do
  let e ← current
  let (answer, commands, notes) := e.settings.complete files e.commands request
  update fun e => { e with commands }
  all (notes.map note)
  pure answer

/-- Puts the only completion in the place of the word at the cursor. -/
def complete (replacement : List Char) : Edit Unit := do
  let e ← current
  let start := e.line.wordStart
  moveBackward (e.line.widthBefore (e.line.cursor - start))
  saveLine (e.line.replaceBefore start replacement)
  print replacement
  redrawRemainder

/-- Acts on a completion. -/
def finishCompletion : Completion → Edit Unit
  | .none => pure ()
  | .single replacement => complete replacement
  | .candidates grid => showCandidates grid

/-- Completes the word at the cursor. -/
def completeWord (files : FileTree) : Edit Unit := do
  let request ← prepareCompletion
  let answer ← runCompletion files request
  finishCompletion answer

/-! ## Events -/

/-- Acts on an event other than the one that asks for completion. -/
def applyKey (event : Event) : Edit (Option Outcome) := do
  dismissBefore event
  let outcome ← handle event
  if outcome.any Outcome.endsLine then
    update fun e => { e with needsPrompt := true }
  pure outcome

/-- Acts on an event. -/
def apply (files : FileTree) (event : Event) : Edit (Option Outcome) := do
  if event = .tab then
    completeWord files
    pure none
  else applyKey event

/-! ## Bytes -/

/-- The record about input that is skipped. -/
def skippedNote (e : DecodeError) : Log.Record where
  level := .warn
  message := "skipped malformed terminal input"
  fields := [("error", e.diagnostic.message)]

/-- Decodes bytes into the queue, and says how many events came of them. -/
def enqueue (bytes : List UInt8) : Edit Nat := do
  let e ← current
  let (decoded, decoder) := e.decoder.decode bytes
  all ((e.decoder.notes bytes).map note)
  update fun e => { e with decoder, queue := e.queue ++ decoded.events }
  all (decoded.errors.map fun error => note (skippedNote error))
  pure decoded.events.length

/-- Takes the next event from the queue. -/
def nextEvent : Edit (Option Event) := do
  let e ← current
  match e.queue with
  | [] => pure none
  | event :: rest =>
    update fun e => { e with queue := rest }
    pure (some event)

/-- Acts on events, the first ones of the queue, and collects the outcomes. -/
def applyAll (files : FileTree) : List Event → Edit (List Outcome)
  | [] => pure []
  | event :: rest => do
    update fun e => { e with queue := rest }
    let outcome ← apply files event
    let outcomes ← applyAll files rest
    pure (outcome.toList ++ outcomes)

/-- Decodes bytes, acts on all events, and collects the outcomes. -/
def processInput (files : FileTree) (bytes : List UInt8) : Edit (List Outcome) := do
  let _ ← enqueue bytes
  applyAll files (← current).queue

/-- Acts on events, the first ones of the queue, up to the first that has an outcome. The records
    about completion are kept elsewhere, since it runs apart from the editor. -/
def applyUntilOutcome (files : FileTree) : List Event → Edit (Option Outcome)
  | [] => pure none
  | event :: rest => do
    update fun e => { e with queue := rest }
    if event = .tab then
      let request ← prepareCompletion
      let e ← current
      let (answer, commands, _) := e.settings.complete files e.commands request
      update fun e => { e with commands }
      finishCompletion answer
      applyUntilOutcome files rest
    else
      match ← applyKey event with
      | some outcome => pure (some outcome)
      | none => applyUntilOutcome files rest

end Promptline.Edit
