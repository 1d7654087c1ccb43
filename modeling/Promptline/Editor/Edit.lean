import Promptline.Editor.State
import Promptline.Terminal.Sink

set_option autoImplicit false

/-! # Edits

An edit is a computation over an editor that also writes to the terminal. A write can fail, and
what was changed before it stays changed. So an edit yields its effects in order: what is
written, and each editor on the way. Performing the effects against a terminal stops at the first
write that fails, and leaves the editor that was saved last. -/

namespace Promptline

open Terminal

/-- One thing that an edit does. -/
inductive Effect where
  /-- Text for the terminal to show. -/
  | print (s : List Char)
  /-- Something for the terminal to do. -/
  | control (e : Event)
  /-- The editor from here on. -/
  | save (e : Editor)
  | note (r : Log.Record)
  deriving DecidableEq, Repr

/-- The characters that an effect writes. -/
def Effect.written : Effect → List Char
  | print s => s
  | control e => e.encode
  | save _ | note _ => []

/-- What an edit comes to if every write succeeds. -/
structure Step (α : Type) where
  value : α
  editor : Editor
  effects : List Effect

/-- A computation over an editor. -/
def Edit (α : Type) : Type :=
  Editor → Step α

namespace Edit

variable {α β : Type}

/-- The edit that does nothing and yields a value. -/
protected def pure (a : α) : Edit α :=
  fun e => { value := a, editor := e, effects := [] }

/-- One edit, and the one that its value asks for. -/
protected def bind (x : Edit α) (f : α → Edit β) : Edit β := fun e =>
  let first := x e
  let second := f first.value first.editor
  { value := second.value, editor := second.editor, effects := first.effects ++ second.effects }

instance : Monad Edit where
  pure := Edit.pure
  bind := Edit.bind

/-- The editor as it is. -/
def current : Edit Editor :=
  fun e => { value := e, editor := e, effects := [] }

/-- Replaces the editor. -/
def save (e : Editor) : Edit Unit :=
  fun _ => { value := (), editor := e, effects := [.save e] }

/-- Changes the editor. -/
def update (f : Editor → Editor) : Edit Unit :=
  fun e => { value := (), editor := f e, effects := [.save (f e)] }

/-- Does one thing that leaves the editor as it is. -/
def perform (x : Effect) : Edit Unit :=
  fun e => { value := (), editor := e, effects := [x] }

/-- Shows text. -/
def print (s : List Char) : Edit Unit :=
  perform (.print s)

/-- Has the terminal do something. -/
def control (e : Event) : Edit Unit :=
  perform (.control e)

/-- Adds a record to the log. -/
def note (r : Log.Record) : Edit Unit :=
  perform (.note r)

/-- Does nothing, or what a list of edits does, one after another. -/
def all : List (Edit Unit) → Edit Unit
  | [] => pure ()
  | x :: rest => do x; all rest

end Edit

/-! ## Performing -/

/-- What performing an edit came to. -/
structure Performed (α : Type) where
  /-- The value of the edit; none if a write failed. -/
  value : Option α
  editor : Editor
  sink : Sink
  /-- What the terminal took. -/
  output : List Char
  notes : List Log.Record

/-- Performs effects one after another, up to the first write that fails: whether all were
    performed, the editor saved last, the terminal, what it took, and the records. -/
def performAll (editor : Editor) (sink : Sink) : List Effect → Performed Unit
  | [] => { value := some (), editor, sink, output := [], notes := [] }
  | .save e :: rest => performAll e sink rest
  | .note r :: rest =>
    let later := performAll editor sink rest
    { later with notes := r :: later.notes }
  | x :: rest =>
    match sink.accept? x.written with
    | none => { value := none, editor, sink, output := [], notes := [] }
    | some sink' =>
      let later := performAll editor sink' rest
      { later with output := x.written ++ later.output }

/-- Performs an edit. -/
def Edit.run {α : Type} (x : Edit α) (editor : Editor) (sink : Sink) : Performed α :=
  let step := x editor
  let done := performAll editor sink step.effects
  { value := done.value.map fun _ => step.value
    editor := done.editor
    sink := done.sink
    output := done.output
    notes := done.notes }

end Promptline
