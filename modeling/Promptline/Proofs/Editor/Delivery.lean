import Promptline.Proofs.Editor.Resuming

set_option autoImplicit false

/-! # Outcomes that are not handed over

Acting on input hands its outcomes over at its end. So a write that fails takes with it all that the
events before it came to, though the lines among these are recorded by then and the sizes are in
use: acting on input hands over every outcome just if no write fails, or none had come before the
one that did (`processInput_delivers_iff`). Acting up to the first outcome hands it over before it
takes another event, and so it hands over what it comes to even then
(`applyUntilOutcome_delivers`).

What the events come to is followed one by one, up to the first that fails (`produced`). -/

namespace Promptline

open Terminal

/-! ## What an outcome tells -/

/-- The editor once an outcome was taken in: a line is recorded, a size is in use. -/
def Outcome.adopt (e : Editor) : Outcome → Editor
  | .line text _ => { e with history := e.history.append text }
  | .resized width height => { e with size := (width, height) }
  | _ => e

/-- The same lines are recorded, as many are kept, and the same size is in use. -/
structure Editor.SameRecords (e e' : Editor) : Prop where
  entries : e.history.entries = e'.history.entries
  maxSize : e.history.maxSize = e'.history.maxSize
  size : e.size = e'.size

namespace Editor.SameRecords

variable {e e' e'' : Editor}

theorem refl (e : Editor) : e.SameRecords e :=
  ⟨rfl, rfl, rfl⟩

theorem trans (h : e.SameRecords e') (h' : e'.SameRecords e'') : e.SameRecords e'' :=
  ⟨h.entries.trans h'.entries, h.maxSize.trans h'.maxSize, h.size.trans h'.size⟩

theorem of_line (h : ∃ line, e' = { e with line }) : e'.SameRecords e := by
  obtain ⟨line, rfl⟩ := h
  exact ⟨rfl, rfl, rfl⟩

/-- What is recorded with a line depends on what was recorded before, and on nothing else. -/
theorem adopt (h : e.SameRecords e') (outcome : Outcome) :
    (outcome.adopt e).SameRecords (outcome.adopt e') := by
  cases outcome with
  | line text cursor =>
      refine ⟨?_, h.maxSize, h.size⟩
      simp only [Outcome.adopt, History.append, h.entries, h.maxSize]
  | resized width height => exact ⟨h.entries, h.maxSize, rfl⟩
  | expanded text => exact h
  | endOfInput => exact h
  | interrupted => exact h

theorem foldl_adopt (h : e.SameRecords e') (outcomes : List Outcome) :
    (outcomes.foldl Outcome.adopt e).SameRecords (outcomes.foldl Outcome.adopt e') := by
  induction outcomes generalizing e e' with
  | nil => exact h
  | cons outcome rest ih => exact ih (h.adopt outcome)

end Editor.SameRecords

namespace Edit

open Editor

variable {e : Editor}

theorem sameRecords_browse (direction : Direction) (n : Nat) :
    (browse direction n e).editor.SameRecords e := by
  obtain ⟨hentries, hmaxSize⟩ :=
    History.kept_historySteps direction e.line.text n none e.history
  rw [editor_browse]
  split
  · exact ⟨hentries, hmaxSize, rfl⟩
  · exact ⟨hentries, hmaxSize, rfl⟩

/-- An edit without an outcome. -/
theorem sameRecords_pure_none {x : Edit Unit} (hx : (x e).editor.SameRecords e) :
    let silent : Edit (Option Outcome) := do x; pure none
    (silent e).editor.SameRecords ((silent e).value.toList.foldl Outcome.adopt e) := by
  simpa using hx

/-- **One key.** What its outcome tells is what the key has done to what is recorded, and to the
    size. -/
theorem sameRecords_handle (event : Event) :
    (handle event e).editor.SameRecords
      ((handle event e).value.toList.foldl Outcome.adopt e) := by
  have hline : ∀ {x : Edit Unit}, (∃ line, (x e).editor = { e with line }) →
      let silent : Edit (Option Outcome) := do x; pure none
      (silent e).editor.SameRecords ((silent e).value.toList.foldl Outcome.adopt e) :=
    fun hx => sameRecords_pure_none (.of_line hx)
  have herase : ∀ {erasure}, ∃ line, (eraseBehind erasure e).editor = { e with line } := by
    intro erasure
    exact editor_eraseBehind e erasure ▸ editor_erased erasure
  have hback : ∀ {n}, ∃ line, (goBackward n e).editor = { e with line } := by
    intro n
    rw [editor_goBackward]
    split
    · exact ⟨e.line, rfl⟩
    · exact ⟨_, rfl⟩
  unfold handle
  cases event with
  | text t => exact hline ⟨_, editor_typeText e t⟩
  | backspace => exact hline herase
  | delete => exact hline herase
  | eraseLineToBegin => exact hline herase
  | eraseLineToEnd => exact hline (editor_eraseToEnd e ▸ editor_erased .toEnd)
  | eraseLine => exact hline (editor_eraseEverything e ▸ editor_erased .everything)
  | cursorForward n => exact hline ⟨_, editor_goForward e _⟩
  | cursorBackward n => exact hline hback
  | cursorUp n => exact sameRecords_pure_none (sameRecords_browse .older _)
  | cursorPreviousLine n => exact sameRecords_pure_none (sameRecords_browse .older _)
  | cursorDown n => exact sameRecords_pure_none (sameRecords_browse .newer _)
  | cursorNextLine n => exact sameRecords_pure_none (sameRecords_browse .newer _)
  | newline =>
      simp only [editor_bind, editor_pure, value_bind, value_pure, editor_enter, value_enter]
      by_cases hsame : expansion e = e.line.text
      · rw [if_pos hsame, if_pos hsame]
        exact ⟨rfl, rfl, rfl⟩
      · rw [if_neg hsame, if_neg hsame]
        exact ⟨rfl, rfl, rfl⟩
  | endOfTransmission =>
      simp only [editor_endInput, value_endInput]
      split <;> exact .refl e
  | _ => exact ⟨rfl, rfl, rfl⟩

theorem sameRecords_dismissed : (dismissed e).SameRecords e := by
  unfold dismissed
  split <;> exact ⟨rfl, rfl, rfl⟩

theorem sameRecords_finishCompletion (answer : Completion) :
    (finishCompletion answer e).editor.SameRecords e := by
  cases answer with
  | none => exact .refl e
  | single replacement => exact .of_line ⟨_, editor_complete e replacement⟩
  | candidates grid =>
      simp only [finishCompletion, editor_showCandidates]
      exact ⟨rfl, rfl, rfl⟩

/-- **One event**, completion included. -/
theorem sameRecords_apply (files : FileTree) (event : Event) :
    (apply files event e).editor.SameRecords
      ((apply files event e).value.toList.foldl Outcome.adopt e) := by
  rw [value_apply, editor_apply]
  by_cases htab : event = .tab
  · rw [if_pos htab, if_pos htab, editor_completeWord]
    have hfinished := (sameRecords_finishCompletion (e := dismissed e) (search e files).1).trans
      sameRecords_dismissed
    exact ⟨hfinished.entries, hfinished.maxSize, hfinished.size⟩
  · have hhandle := (sameRecords_handle event).trans
      (sameRecords_dismissed.foldl_adopt (handle event (dismissed e)).value.toList)
    rw [if_neg htab, if_neg htab, editor_applyKey]
    split
    · exact ⟨hhandle.entries, hhandle.maxSize, hhandle.size⟩
    · exact hhandle

theorem sameRecords_applyNext (files : FileTree) (event : Event) (rest : List Event) :
    (applyNext files event rest e).editor.SameRecords
      ((applyNext files event rest e).value.toList.foldl Outcome.adopt e) := by
  have hqueue : SameRecords { e with queue := rest } e := ⟨rfl, rfl, rfl⟩
  exact (sameRecords_apply files event).trans (hqueue.foldl_adopt _)

/-! ## What events come to -/

/-- The outcomes of events, the first ones of a queue, that are acted on one after another, up to
    the first one at which a write fails. -/
def produced (files : FileTree) : List Event → Editor → Sink → List Outcome
  | [], _, _ => []
  | event :: rest, e, sink =>
    let first := (applyNext files event rest).run e sink
    match first.value with
    | none => []
    | some outcome => outcome.toList ++ produced files rest first.editor first.sink

variable {files : FileTree} {sink : Sink}

theorem produced_stopped {event : Event} {rest : List Event}
    (h : ((applyNext files event rest).run e sink).value = none) :
    produced files (event :: rest) e sink = [] := by
  rw [produced]
  simp only [h]

theorem produced_cons {event : Event} {rest : List Event} {outcome : Option Outcome}
    (h : ((applyNext files event rest).run e sink).value = some outcome) :
    let first := (applyNext files event rest).run e sink
    produced files (event :: rest) e sink =
      outcome.toList ++ produced files rest first.editor first.sink := by
  intro first
  rw [produced]
  simp only [h]
  rfl

/-- What events that do not fail hand over is what they come to, and what stands behind them comes
    to more. -/
theorem produced_append {behind done : List Event} {outcomes : List Outcome}
    (h : ((applyFront files behind done).run e sink).value = some outcomes) :
    let before := (applyFront files behind done).run e sink
    produced files (done ++ behind) e sink =
      outcomes ++ produced files behind before.editor before.sink := by
  induction done generalizing e sink outcomes with
  | nil =>
      obtain rfl : [] = outcomes := Option.some.inj h
      rfl
  | cons event rest ih =>
      rw [applyFront] at h ⊢
      cases hfirst : ((applyNext files event (rest ++ behind)).run e sink).value with
      | none =>
          rw [(run_bind_stopped hfirst).1] at h
          cases h
      | some outcome =>
          obtain ⟨hvalue, heditor, hsink⟩ := run_bind_map
            (y := fun _ => applyFront files behind rest)
            (g := fun outcome outcomes => outcome.toList ++ outcomes) hfirst
          rw [hvalue] at h
          obtain ⟨later, hlater, rfl⟩ := Option.map_eq_some_iff.1 h
          intro before
          show produced files (event :: (rest ++ behind)) e sink = _
          rw [produced_cons hfirst, ih hlater, List.append_assoc]
          show _ = _ ++ (_ ++ produced files behind before.editor before.sink)
          rw [heditor, hsink]

/-- With nothing behind them, events are the whole queue. -/
theorem applyFront_nil (events : List Event) :
    applyFront files [] events = applyAll files events := by
  induction events with
  | nil => rfl
  | cons event rest ih => rw [applyFront, applyAll_cons, ih, List.append_nil]

/-- **What acting on a queue leaves** is what the outcomes of its events tell, whether or not a
    write has failed. -/
theorem records_applyAll (files : FileTree) (events : List Event) (e : Editor) (sink : Sink) :
    let acting := (applyAll files events).run e sink
    let told := (produced files events e sink).foldl Outcome.adopt e
    acting.editor.history.entries = told.history.entries ∧ acting.editor.size = told.size := by
  induction events generalizing e sink with
  | nil => exact ⟨rfl, rfl⟩
  | cons event rest ih =>
      let first := (applyNext files event rest).run e sink
      rw [applyAll_cons]
      dsimp only
      cases hfirst : first.value with
      | none =>
          rw [produced_stopped hfirst, (run_bind_stopped hfirst).2]
          have hhalfway := stopsAt_apply (stopsAt_run hfirst)
          exact ⟨hhalfway.entries, hhalfway.size⟩
      | some outcome =>
          obtain ⟨-, heditor, -⟩ := run_bind_map (y := fun _ => applyAll files rest)
            (g := fun outcome outcomes => outcome.toList ++ outcomes) hfirst
          rw [produced_cons hfirst, List.foldl_append, heditor]
          obtain ⟨hleft, hvalue⟩ := run_done hfirst
          have hevent := sameRecords_applyNext (e := e) files event rest
          rw [← hleft, hvalue] at hevent
          obtain ⟨hentries, hsize⟩ := ih first.editor first.sink
          have hrest := hevent.foldl_adopt (produced files rest first.editor first.sink)
          exact ⟨hentries.trans hrest.entries, hsize.trans hrest.size⟩

/-- Acting on a queue without a failure hands over what its events come to. -/
theorem value_applyAll_run {events : List Event} {outcomes : List Outcome}
    (h : ((applyAll files events).run e sink).value = some outcomes) :
    produced files events e sink = outcomes := by
  rw [← applyFront_nil] at h
  have happend := produced_append h
  rw [List.append_nil] at happend
  exact happend.trans (List.append_nil outcomes)

/-- Where acting on a queue stops, its events come to what those in front of the failed one hand
    over. -/
theorem applyAll_stopped_produced {events : List Event}
    (h : ((applyAll files events).run e sink).value = none) :
    ∃ done failed rest, events = done ++ failed :: rest ∧
      ((applyFront files (failed :: rest) done).run e sink).value =
        some (produced files events e sink) ∧
      ((applyAll files events).run e sink).editor.queue = rest := by
  obtain ⟨done, failed, rest, rfl, hbefore, hstopped, hleft⟩ := applyAll_stopped files h
  obtain ⟨outcomes, hbefore⟩ := Option.isSome_iff_exists.1 hbefore
  refine ⟨done, failed, rest, rfl, ?_, ?_⟩
  · rw [hbefore, produced_append hbefore, produced_stopped hstopped, List.append_nil]
  · rw [hleft]
    exact (stopsAt_apply (stopsAt_run hstopped)).queue

/-! ## Acting on input -/

theorem queue_enqueue (bytes : List UInt8) (e : Editor) :
    (enqueue bytes e).editor.queue = e.queue ++ (e.decoder.decode bytes).1.events := by
  rw [editor_enqueue]

theorem sameRecords_enqueue (bytes : List UInt8) (e : Editor) :
    (enqueue bytes e).editor.SameRecords e := by
  rw [editor_enqueue]
  exact ⟨rfl, rfl, rfl⟩

section Input

variable (files : FileTree) (bytes : List UInt8) (e : Editor) (sink : Sink)

/-- Acting on input hands over what the events come to. Or it stops, and what they come to is what
    those in front of the failed one have handed over. -/
theorem processInput_produced :
    let call := (processInput files bytes).run e sink
    let events := e.queue ++ (e.decoder.decode bytes).1.events
    let outcomes := produced files events (enqueue bytes e).editor sink
    call.value = some outcomes ∨
      call.value = none ∧ ∃ done failed rest, events = done ++ failed :: rest ∧
        ((processFront files bytes (failed :: rest) done).run e sink).value = some outcomes ∧
        call.editor.queue = rest := by
  intro call events outcomes
  obtain ⟨hvalue, heditor⟩ := run_processInput files bytes e sink
  rw [queue_enqueue] at hvalue heditor
  cases hdelivered : ((applyAll files events).run (enqueue bytes e).editor sink).value with
  | some delivered =>
      rw [hdelivered] at hvalue
      exact .inl (hvalue.trans (congrArg some (value_applyAll_run hdelivered).symm))
  | none =>
      rw [hdelivered] at hvalue
      obtain ⟨done, failed, rest, hevents, hbefore, hrest⟩ := applyAll_stopped_produced hdelivered
      obtain ⟨hfront, -, -⟩ := run_processFront files bytes (failed :: rest) done e sink
      rw [← heditor] at hrest
      exact .inr ⟨hvalue, done, failed, rest, hevents, hfront.trans hbefore, hrest⟩

/-- What acting on input leaves is what the outcomes of its events tell. -/
theorem records_processInput :
    let call := (processInput files bytes).run e sink
    let events := e.queue ++ (e.decoder.decode bytes).1.events
    let told := (produced files events (enqueue bytes e).editor sink).foldl Outcome.adopt e
    call.editor.history.entries = told.history.entries ∧ call.editor.size = told.size := by
  intro call events told
  obtain ⟨-, heditor⟩ := run_processInput files bytes e sink
  rw [queue_enqueue] at heditor
  have htold := (sameRecords_enqueue bytes e).foldl_adopt
    (produced files events (enqueue bytes e).editor sink)
  obtain ⟨hentries, hsize⟩ := records_applyAll files events (enqueue bytes e).editor sink
  rw [← heditor] at hentries hsize
  exact ⟨hentries.trans htold.entries, hsize.trans htold.size⟩

end Input

/-- **Outcomes are lost to a write that fails.** Whatever the input and whichever write fails: if
    none does, then acting on input hands over what the events come to, and if one does, then it
    hands over nothing, and what the events before the failing one come to is handed over by no
    later call, since those events are not queued any more. So every outcome is handed over just if
    no write fails or there was none. In either case what the outcomes tell has been done: the lines
    among them are recorded, and the size is the last one among them. -/
theorem processInput_delivers_iff (files : FileTree) (bytes : List UInt8) (e : Editor)
    (sink : Sink) :
    let call := (processInput files bytes).run e sink
    let events := e.queue ++ (e.decoder.decode bytes).1.events
    let outcomes := produced files events (enqueue bytes e).editor sink
    (call.value = some outcomes ∨
      call.value = none ∧ ∃ done failed rest, events = done ++ failed :: rest ∧
        ((processFront files bytes (failed :: rest) done).run e sink).value = some outcomes ∧
        call.editor.queue = rest) ∧
      ((∀ outcome ∈ outcomes, outcome ∈ call.value.getD []) ↔
        call.value.isSome ∨ outcomes = []) ∧
      call.editor.history.entries = (outcomes.foldl Outcome.adopt e).history.entries ∧
      call.editor.size = (outcomes.foldl Outcome.adopt e).size := by
  intro call events outcomes
  have hproduced := processInput_produced files bytes e sink
  refine ⟨hproduced, ?_, records_processInput files bytes e sink⟩
  rcases hproduced with hdelivered | ⟨hstopped, -⟩
  · rw [hdelivered]
    exact ⟨fun _ => .inl rfl, fun _ outcome houtcome => houtcome⟩
  · rw [hstopped, Option.getD_none, Option.isSome_none]
    simp [List.eq_nil_iff_forall_not_mem]

/-- A new size and a letter come in while the terminal is gone. The size is in use, and the caller
    is not told. -/
theorem processInput_drops_size :
    let e : Editor := .start ['>'] ⟨[], [], .tableOnly⟩ (.empty 10) (80, 24)
    let sink : Sink := .failingAfter 0 "terminal gone"
    let bytes : List UInt8 :=
      [0x1B, 0x5B, 0x38, 0x3B, 0x33, 0x30, 0x3B, 0x31, 0x30, 0x30, 0x74, 0x78]
    let call := (processInput .empty bytes).run e sink
    let events := e.queue ++ (e.decoder.decode bytes).1.events
    let outcomes := produced .empty events (enqueue bytes e).editor sink
    outcomes = [.resized 100 30] ∧ call.value = none ∧ call.editor.size = (100, 30) ∧
      call.editor.queue = [] ∧ ¬ ∀ outcome ∈ outcomes, outcome ∈ call.value.getD [] := by
  decide +kernel

/-- So it is with a line that is entered, if the terminal is gone before the next letter: it is
    recorded, and the caller never gets it. -/
example :
    let e : Editor := .start ['>'] ⟨[], [], .tableOnly⟩ (.empty 10) (80, 24)
    let sink : Sink := .failingAfter 2 "terminal gone"
    let bytes : List UInt8 := [0x6C, 0x73, 0x0D, 0x78]
    let call := (processInput .empty bytes).run e sink
    let events := e.queue ++ (e.decoder.decode bytes).1.events
    produced .empty events (enqueue bytes e).editor sink = [.line ['l', 's'] 2] ∧
      call.value = none ∧ call.editor.history.entries = [['l', 's']] ∧
      call.editor.line.text = ['x'] ∧ call.editor.queue = [] := by
  decide +kernel

/-! ## Acting up to the first outcome -/

/-- **Acting up to the first outcome loses none.** Whichever write fails, what is handed over is the
    first outcome that the events of a queue come to: where a write stops it, there was none yet. -/
theorem applyUntilOutcome_delivers (files : FileTree) (events : List Event) (e : Editor)
    (sink : Sink) :
    ((applyUntilOutcome files events).run e sink).value.getD none =
      (produced files events e sink).head? := by
  induction events generalizing e sink with
  | nil => rfl
  | cons event rest ih =>
      let first := (applyNext files event rest).run e sink
      rw [((applyUntilOutcome_alike files event rest).run e sink).1]
      cases hfirst : first.value with
      | none =>
          rw [(run_bind_stopped hfirst).1, produced_stopped hfirst]
          rfl
      | some outcome =>
          have hvalue : ((applyNext files event rest >>= fun outcome =>
              orElse outcome (applyUntilOutcome files rest)).run e sink).value =
                ((orElse outcome (applyUntilOutcome files rest)).run first.editor
                  first.sink).value := by
            rw [run_bind, Performed.andThen, hfirst]
          rw [hvalue, produced_cons hfirst]
          cases outcome with
          | none => exact ih first.editor first.sink
          | some outcome => rfl

end Edit

end Promptline
