import Promptline.Proofs.Editor.Input
import Promptline.Proofs.Editor.Stops
import Promptline.Proofs.Terminal.Fragments

set_option autoImplicit false

/-! # Going on after a write that failed

Input is acted on event by event, each of which is taken from the queue before it is acted on. So
where a write fails, the queue holds what stands behind the event that failed, and the next call
acts on exactly that, with no input of its own needed (`stopped_write_loses_nothing`).

Performing an edit and the next is performing the one, and from where it got the other, unless the
first one stopped (`run_bind`). -/

namespace Promptline

open Terminal

namespace Performed

variable {α β : Type}

/-- Goes on with what was performed, unless a write failed. -/
def andThen (first : Performed α) (next : α → Editor → Sink → Performed β) : Performed β :=
  match first.value with
  | none =>
    { value := none, editor := first.editor, sink := first.sink, output := first.output
      notes := first.notes }
  | some a =>
    let later := next a first.editor first.sink
    { later with output := first.output ++ later.output, notes := first.notes ++ later.notes }

end Performed

namespace Edit

variable {α β : Type}

/-! ## Performing one edit and the next -/

theorem performAll_append (e : Editor) (sink : Sink) (xs ys : List Effect) :
    performAll e sink (xs ++ ys) =
      (performAll e sink xs).andThen fun _ e' sink' => performAll e' sink' ys := by
  induction xs generalizing e sink with
  | nil => rfl
  | cons x rest ih =>
      cases x with
      | save e' => exact ih e' sink
      | note r =>
          simp only [List.cons_append, performAll, ih, Performed.andThen]
          cases (performAll e sink rest).value <;> rfl
      | print s =>
          simp only [List.cons_append, performAll]
          cases sink.accept? (Effect.print s).written with
          | none => rfl
          | some sink' =>
              simp only [ih, Performed.andThen]
              cases (performAll e sink' rest).value <;> simp
      | control event =>
          simp only [List.cons_append, performAll]
          cases sink.accept? (Effect.control event).written with
          | none => rfl
          | some sink' =>
              simp only [ih, Performed.andThen]
              cases (performAll e sink' rest).value <;> simp

theorem performAll_done {e : Editor} {sink : Sink} {effects : List Effect}
    (h : (performAll e sink effects).value = some ()) :
    (performAll e sink effects).editor = lastSaved e effects := by
  induction effects generalizing e sink with
  | nil => rfl
  | cons x rest ih =>
      cases x with
      | save e' => exact ih h
      | note r => exact ih h
      | print s =>
          simp only [performAll] at h ⊢
          cases haccept : sink.accept? (Effect.print s).written with
          | none =>
              simp only [haccept] at h
              cases h
          | some sink' =>
              simp only [haccept] at h
              exact ih h
      | control event =>
          simp only [performAll] at h ⊢
          cases haccept : sink.accept? (Effect.control event).written with
          | none =>
              simp only [haccept] at h
              cases h
          | some sink' =>
              simp only [haccept] at h
              exact ih h

/-- An edit all of whose writes succeed leaves what it leaves on a working terminal. -/
theorem run_done {x : Edit α} [hx : Sound x] {e : Editor} {sink : Sink} {a : α}
    (h : (x.run e sink).value = some a) :
    (x.run e sink).editor = (x e).editor ∧ (x e).value = a := by
  obtain ⟨_, hdone, hvalue⟩ := Option.map_eq_some_iff.1 h
  exact ⟨(performAll_done hdone).trans (hx.saved e), hvalue⟩

/-- An edit that writes nothing does not stop. -/
theorem run_silent {x : Edit α} [hx : Sound x] {e : Editor} (h : x.written e = []) (sink : Sink) :
    (x.run e sink).value = some (x e).value ∧ (x.run e sink).editor = (x e).editor ∧
      (x.run e sink).sink = sink := by
  have hall : ∀ y ∈ (x e).effects, y.written = [] := List.flatMap_eq_nil_iff.1 h
  have hperformed : ∀ (e' : Editor) effects, (∀ y ∈ effects, y.written = []) →
      (performAll e' sink effects).value = some () ∧ (performAll e' sink effects).sink = sink := by
    intro e' effects hnothing
    induction effects generalizing e' with
    | nil => exact ⟨rfl, rfl⟩
    | cons y rest ih =>
        have hrest := fun e' => ih e' fun z hz => hnothing z (List.mem_cons_of_mem _ hz)
        have haccept : sink.accept? y.written = some sink := by
          rw [hnothing y List.mem_cons_self]
          rfl
        cases y with
        | save e'' => exact hrest e''
        | note r => exact hrest e'
        | print s =>
            simp only [performAll, haccept]
            exact hrest e'
        | control event =>
            simp only [performAll, haccept]
            exact hrest e'
  obtain ⟨hdone, hsink⟩ := hperformed e _ hall
  have hvalue : (x.run e sink).value = some (x e).value := by
    rw [Edit.run, hdone]
    rfl
  exact ⟨hvalue, (run_done hvalue).1, hsink⟩

/-- **One edit and the next.** The second is performed from where the first one got, unless that one
    stopped. -/
theorem run_bind (x : Edit α) [hx : Sound x] (f : α → Edit β) (e : Editor) (sink : Sink) :
    (x >>= f).run e sink = (x.run e sink).andThen fun a => (f a).run := by
  have heffects :
      ((x >>= f) e).effects = (x e).effects ++ (f (x e).value (x e).editor).effects := rfl
  simp only [Edit.run, heffects, performAll_append]
  cases hdone : (performAll e sink (x e).effects).value with
  | none => simp [Performed.andThen, hdone]
  | some _ =>
      have hsaved := (performAll_done hdone).trans (hx.saved e)
      simp only [Performed.andThen, hdone, hsaved, Option.map_some]
      rfl

/-- Looking at the editor is no step. -/
theorem run_current_bind (f : Editor → Edit β) (e : Editor) (sink : Sink) :
    (current >>= f).run e sink = (f e).run e sink :=
  rfl

section Bind

variable {x : Edit α} [hx : Sound x] {f : α → Edit β} {e : Editor} {sink : Sink}

theorem run_bind_stopped (h : (x.run e sink).value = none) :
    ((x >>= f).run e sink).value = none ∧
      ((x >>= f).run e sink).editor = (x.run e sink).editor := by
  rw [run_bind, Performed.andThen, h]
  exact ⟨rfl, rfl⟩

/-- Replacing the value of an edit makes no difference to where it stops and what it leaves. -/
theorem run_map {g : α → β} :
    ((x >>= fun a => pure (g a)).run e sink).value = (x.run e sink).value.map g ∧
      ((x >>= fun a => pure (g a)).run e sink).editor = (x.run e sink).editor ∧
      ((x >>= fun a => pure (g a)).run e sink).sink = (x.run e sink).sink := by
  rw [run_bind, Performed.andThen]
  cases (x.run e sink).value <;> exact ⟨rfl, rfl, rfl⟩

/-- Two edits of which the first did not stop come to what the second does from there. -/
theorem run_bind_map {y : α → Edit β} [hy : ∀ a, Sound (y a)] {γ : Type} {g : α → β → γ} {a : α}
    (h : (x.run e sink).value = some a) :
    let both := (x >>= fun a => y a >>= fun b => pure (g a b)).run e sink
    let second := (y a).run (x.run e sink).editor (x.run e sink).sink
    both.value = second.value.map (g a) ∧ both.editor = second.editor ∧
      both.sink = second.sink := by
  rw [run_bind, Performed.andThen, h]
  exact run_map

/-- An edit behind one that writes nothing. -/
theorem run_bind_silent (h : x.written e = []) (sink : Sink) :
    let first := x e
    ((x >>= f).run e sink).value = ((f first.value).run first.editor sink).value ∧
      ((x >>= f).run e sink).editor = ((f first.value).run first.editor sink).editor ∧
      ((x >>= f).run e sink).sink = ((f first.value).run first.editor sink).sink := by
  obtain ⟨hvalue, heditor, hsink⟩ := run_silent h sink
  rw [run_bind, Performed.andThen, hvalue, heditor, hsink]
  exact ⟨rfl, rfl, rfl⟩

end Bind

/-! ## Acting on the first events of a queue -/

variable (files : FileTree)

/-- Acts on the first events of a queue, with others behind them. -/
def applyFront (behind : List Event) : List Event → Edit (List Outcome)
  | [] => pure []
  | event :: rest => do
    let outcome ← applyNext files event (rest ++ behind)
    let outcomes ← applyFront behind rest
    pure (outcome.toList ++ outcomes)

instance soundApplyFront (behind events : List Event) : Sound (applyFront files behind events) := by
  induction events with
  | nil => exact inferInstanceAs (Sound (pure []))
  | cons event rest ih =>
      unfold applyFront
      infer_instance

/-- Acting on an event is taking it from the queue first. -/
theorem run_applyNext (event : Event) (rest : List Event) (e : Editor) (sink : Sink) :
    (applyNext files event rest).run e sink =
      (apply files event).run { e with queue := rest } sink :=
  rfl

theorem applyAll_cons (event : Event) (rest : List Event) :
    applyAll files (event :: rest) = (do
      let outcome ← applyNext files event rest
      let outcomes ← applyAll files rest
      pure (outcome.toList ++ outcomes) : Edit (List Outcome)) :=
  rfl

/-- **Where acting on a queue stops.** Some events were acted on, then one failed, and what is left
    is what that one left. -/
theorem applyAll_stopped {events : List Event} {e : Editor} {sink : Sink}
    (h : ((applyAll files events).run e sink).value = none) :
    ∃ done failed rest, events = done ++ failed :: rest ∧
      let before := (applyFront files (failed :: rest) done).run e sink
      before.value.isSome ∧
        let stopped := (applyNext files failed rest).run before.editor before.sink
        stopped.value = none ∧ ((applyAll files events).run e sink).editor = stopped.editor := by
  induction events generalizing e sink with
  | nil => exact absurd h nofun
  | cons event rest ih =>
      rw [applyAll_cons] at h ⊢
      cases hfirst : ((applyNext files event rest).run e sink).value with
      | none => exact ⟨[], event, rest, rfl, rfl, hfirst, (run_bind_stopped hfirst).2⟩
      | some outcome =>
          obtain ⟨hvalue, heditor, -⟩ := run_bind_map (y := fun _ => applyAll files rest)
            (g := fun outcome outcomes => outcome.toList ++ outcomes) hfirst
          rw [hvalue, Option.map_eq_none_iff] at h
          rw [heditor]
          obtain ⟨done, failed, behind, rfl, hbefore, hstopped, hleft⟩ := ih h
          obtain ⟨hvalue, heditor, hsink⟩ := run_bind_map
            (y := fun _ => applyFront files (failed :: behind) done)
            (g := fun outcome outcomes => outcome.toList ++ outcomes) hfirst
          refine ⟨event :: done, failed, behind, rfl, ?_⟩
          simp only [applyFront, hvalue, heditor, hsink, Option.isSome_map]
          exact ⟨hbefore, hstopped, hleft⟩

/-! ## What events leave alone -/

theorem decoder_applyFront (e : Editor) (behind events : List Event) :
    (applyFront files behind events e).editor.decoder = e.decoder := by
  induction events generalizing e with
  | nil => rfl
  | cons event rest ih =>
      rw [applyFront, editor_bind, editor_bind, editor_pure, ih]
      exact decoder_apply _ files event

/-! ## No input at all -/

theorem decode_nil {d : Decoder} (h : d.pending.length ≤ Decoder.maxPending) :
    d.decode [] = ({ events := [], errors := [] }, d) :=
  Decoder.decode_eq_run h

/-- Decoding no bytes changes nothing. -/
theorem enqueue_nil {e : Editor} (h : e.decoder.pending.length ≤ Decoder.maxPending) :
    enqueue [] e = { value := 0, editor := e, effects := [.save e] } := by
  have hqueue : e.queue ++ [] = e.queue := List.append_nil _
  rw [enqueue, current_bind, decode_nil h]
  show ({ value := 0, editor := { e with queue := e.queue ++ [] }
          effects := [.save { e with queue := e.queue ++ [] }] } : Step Nat) = _
  rw [hqueue]

/-- With no bytes, what is queued is acted on. -/
theorem run_processInput_nil {e : Editor} (h : e.decoder.pending.length ≤ Decoder.maxPending)
    (sink : Sink) :
    (processInput files []).run e sink = (applyAll files e.queue).run e sink := by
  have hsteps : processInput files [] e =
      { applyAll files e.queue e with
        effects := .save e :: (applyAll files e.queue e).effects } := by
    show Edit.bind (enqueue []) (fun _ => current >>= fun e => applyAll files e.queue) e = _
    rw [Edit.bind, enqueue_nil h]
    rfl
  rw [Edit.run, hsteps]
  rfl

/-! ## Going on -/

/-- Decodes bytes, and acts on the first of the events that are queued then. -/
def processFront (bytes : List UInt8) (behind events : List Event) : Edit (List Outcome) := do
  let _ ← enqueue bytes
  applyFront files behind events

instance (bytes : List UInt8) (behind events : List Event) :
    Sound (processFront files bytes behind events) := by
  unfold processFront
  infer_instance

theorem decoder_processFront {e : Editor} (bytes : List UInt8) (behind events : List Event) :
    (processFront files bytes behind events e).editor.decoder = (e.decoder.decode bytes).2 := by
  rw [processFront, editor_bind, decoder_applyFront, editor_enqueue]

/-- Acting on bytes is acting on all that is queued once they are decoded. -/
theorem run_processInput (bytes : List UInt8) (e : Editor) (sink : Sink) :
    let queued := (enqueue bytes e).editor
    ((processInput files bytes).run e sink).value =
        ((applyAll files queued.queue).run queued sink).value ∧
      ((processInput files bytes).run e sink).editor =
        ((applyAll files queued.queue).run queued sink).editor := by
  obtain ⟨hvalue, heditor, -⟩ := run_bind_silent (f := fun _ => current >>= fun e' =>
    applyAll files e'.queue) (written_enqueue e bytes) sink
  simp only [run_current_bind] at hvalue heditor
  rw [processInput]
  exact ⟨hvalue, heditor⟩

theorem run_processFront (bytes : List UInt8) (behind events : List Event) (e : Editor)
    (sink : Sink) :
    let queued := (enqueue bytes e).editor
    let before := (processFront files bytes behind events).run e sink
    before.value = ((applyFront files behind events).run queued sink).value ∧
      before.editor = ((applyFront files behind events).run queued sink).editor ∧
      before.sink = ((applyFront files behind events).run queued sink).sink :=
  run_bind_silent (f := fun _ => applyFront files behind events) (written_enqueue e bytes) sink

/-- Acting on bytes stops where acting on all that is then queued does. -/
theorem processInput_stopped {bytes : List UInt8} {e : Editor} {sink : Sink}
    (h : ((processInput files bytes).run e sink).value = none) :
    ∃ done failed rest,
      e.queue ++ (e.decoder.decode bytes).1.events = done ++ failed :: rest ∧
      let before := (processFront files bytes (failed :: rest) done).run e sink
      before.value.isSome ∧
        let stopped := (apply files failed).run { before.editor with queue := rest } before.sink
        stopped.value = none ∧ ((processInput files bytes).run e sink).editor = stopped.editor := by
  obtain ⟨hvalue, heditor⟩ := run_processInput files bytes e sink
  rw [hvalue] at h
  rw [heditor]
  obtain ⟨done, failed, rest, hqueue, hfailed⟩ := applyAll_stopped files h
  obtain ⟨hvalue, heditor, hsink⟩ := run_processFront files bytes (failed :: rest) done e sink
  rw [editor_enqueue] at hqueue
  refine ⟨done, failed, rest, hqueue, ?_⟩
  simp only [run_applyNext] at hfailed
  simp only [hvalue, heditor, hsink]
  exact hfailed

/-- **A write that fails loses nothing.** If one of an action does, then the action is done by half
    at most: the entries of the history, what was read and not yet acted on, the prompt and the size
    of the terminal are those of before, and the text is that of before or the one that the action
    leads to on a terminal that works. If one fails while bytes are acted on, then some events were
    acted on, one failed in that way, and those behind it are queued. A later call acts on exactly
    those, if there is no other input. -/
theorem stopped_write_loses_nothing (e : Editor) (sink : Sink) :
    (∀ a : Action, (a.edit.run e sink).value = none →
        Halfway a.leavesLine e (a.edit.run e .working).editor (a.edit.run e sink).editor) ∧
      ∀ bytes, ((processInput files bytes).run e sink).value = none →
        let left := ((processInput files bytes).run e sink).editor
        ∃ done failed rest,
          let before := (processFront files bytes (failed :: rest) done).run e sink
          let stopped := (apply files failed).run { before.editor with queue := rest } before.sink
          e.queue ++ (e.decoder.decode bytes).1.events = done ++ failed :: rest ∧
            before.value.isSome ∧ stopped.value = none ∧ left = stopped.editor ∧
            left.queue = rest ∧
            ∀ files' sink',
              (processInput files' []).run left sink' = (applyAll files' rest).run left sink' := by
  refine ⟨fun a h => ?_, fun bytes h => ?_⟩
  · rw [run_working_editor]
    exact stopsAt_action (stopsAt_run h)
  · intro left
    obtain ⟨done, failed, rest, hqueue, hbefore, hstopped, hleft⟩ := processInput_stopped files h
    refine ⟨done, failed, rest, ?_⟩
    intro before stopped
    have hhalfway := stopsAt_apply (stopsAt_run hstopped)
    have hrest : left.queue = rest := (congrArg Editor.queue hleft).trans hhalfway.queue
    have hdone : before.editor = (processFront files bytes (failed :: rest) done e).editor := by
      obtain ⟨_, hvalue⟩ := Option.isSome_iff_exists.1 hbefore
      exact (run_done hvalue).1
    have hdecoder : left.decoder = (e.decoder.decode bytes).2 :=
      calc left.decoder = stopped.editor.decoder := congrArg Editor.decoder hleft
        _ = before.editor.decoder := hhalfway.decoder
        _ = (processFront files bytes (failed :: rest) done e).editor.decoder := by rw [hdone]
        _ = (e.decoder.decode bytes).2 := decoder_processFront files bytes _ _
    refine ⟨hqueue, hbefore, hstopped, hleft, hrest, ?_⟩
    intro files' sink'
    have hpending : left.decoder.pending.length ≤ Decoder.maxPending := by
      rw [hdecoder]
      exact Decoder.pending_decode_le e.decoder bytes
    rw [run_processInput_nil files' hpending, hrest]

/-- Two letters, the key that enters the line and one more letter come in, and the terminal takes
    one write. The line is not entered, and the last letter is typed by a call without input.
    Entering the line fails again where the terminal takes nothing. -/
theorem stopped_write_loses_nothing_entering :
    ∃ e sink bytes left, ((processInput .empty bytes).run e sink).value = none ∧
      ((processInput .empty bytes).run e sink).editor = left ∧
      left.line.text = ['l', 's'] ∧ left.queue = [.text ['x']] ∧
      (processInput .empty []).run left .working =
        (applyAll .empty [.text ['x']]).run left .working ∧
      let enter := (Action.event .empty .newline).edit.run left (.failingAfter 0 "gone")
      enter.value = none ∧ enter.editor.line.text = ['l', 's'] ∧
        enter.editor.queue = [.text ['x']] := by
  let e : Editor := .start ['>'] ⟨[], [], .tableOnly⟩ (.empty 10) (80, 24)
  let sink : Sink := .failingAfter 1 "gone"
  let bytes : List UInt8 := [0x6C, 0x73, 0x0D, 0x78]
  have hstops : ((processInput .empty bytes).run e sink).value = none := by decide +kernel
  obtain ⟨-, hinput⟩ := stopped_write_loses_nothing .empty e sink
  obtain ⟨_, _, rest, -, -, -, -, hrest, hlater⟩ := hinput bytes hstops
  obtain ⟨left, hleft⟩ : ∃ left, ((processInput .empty bytes).run e sink).editor = left := ⟨_, rfl⟩
  have htext : left.line.text = ['l', 's'] := by
    rw [← hleft]
    decide +kernel
  have hqueue : left.queue = [.text ['x']] := by
    rw [← hleft]
    decide +kernel
  have henter : ((Action.event .empty .newline).edit.run left (.failingAfter 0 "gone")).value =
      none := by
    rw [← hleft]
    decide +kernel
  rw [hleft] at hrest hlater
  obtain rfl : [.text ['x']] = rest := hqueue.symm.trans hrest
  obtain ⟨haction, -⟩ := stopped_write_loses_nothing .empty left (.failingAfter 0 "gone")
  have hhalfway := haction (.event .empty .newline) henter
  refine ⟨e, sink, bytes, left, hstops, hleft, htext, hqueue, hlater .empty .working, henter, ?_,
    hhalfway.queue.trans hqueue⟩
  rcases hhalfway.text with hkept | ⟨hedits, -⟩
  · exact hkept.trans htext
  · exact absurd hedits (by decide)

end Edit

end Promptline
