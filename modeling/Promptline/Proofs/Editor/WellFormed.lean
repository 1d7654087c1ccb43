import Promptline.Editor.Input
import Promptline.Proofs.Completion.Answers
import Promptline.Proofs.Editor.Keys
import Promptline.Proofs.Editor.Triples
import Promptline.Proofs.History.Bounds
import Promptline.Proofs.Line.Cursor

set_option autoImplicit false

/-! # Editors stay well formed

An editor is well formed if its cursor is in the line, its history is within bounds, and candidates
below the line go with the cursor being at its end (`Editor.WellFormed`). Everything that is done to
an editor keeps it so, and not only where all of it is done: whichever write fails, what is left is
well formed.

Keys are acted on with no candidates shown, and every editor that they save on the way is one of
that kind (`Editor.Settled`). Only taking candidates away leads there from any well-formed editor
(`dismissBefore_settles`), and only showing some leads away (`showCandidates_wellFormed`). -/

namespace Promptline

open Terminal Unicode

/-- The cursor is in the line, the history within its bounds, and where candidates are shown, of
    which there is a row at least, the cursor is at the end of the line and knows its way back. -/
structure Editor.WellFormed (limit : Nat) (e : Editor) : Prop where
  line : e.line.WellFormed
  history : e.history.Bounded (max 1 limit)
  popup : ∀ p, e.mode = .popup p →
    e.line.cursor = e.line.length ∧ p.distance ≤ e.line.length ∧ 1 ≤ p.rows

/-- A well-formed editor that shows no candidates. -/
structure Editor.Settled (limit : Nat) (e : Editor) : Prop where
  line : e.line.WellFormed
  history : e.history.Bounded (max 1 limit)
  input : e.mode = .input

theorem Editor.Settled.wellFormed {limit : Nat} {e : Editor} (h : e.Settled limit) :
    e.WellFormed limit where
  line := h.line
  history := h.history
  popup p hp := by
    rw [h.input] at hp
    cases hp

theorem Editor.WellFormed.settled {limit : Nat} {e : Editor} (h : e.WellFormed limit)
    (hinput : e.mode = .input) : e.Settled limit :=
  ⟨h.line, h.history, hinput⟩

theorem Editor.settled_start (limit : Nat) (prompt : List Char) (settings : CompletionSettings)
    (size : UInt16 × UInt16) :
    (Editor.start prompt settings (.empty limit) size).Settled limit where
  line := Line.wellFormed_empty
  history := History.bounded_empty limit
  input := rfl

namespace Edit

variable {α β : Type} {limit : Nat}

/-! ## Settled editors -/

/-- An edit that saves and leaves only settled editors, if it starts from one. -/
abbrev Settles (limit : Nat) (x : Edit α) : Prop :=
  Triple (Editor.Settled limit) (Editor.Settled limit) (Editor.Settled limit) x

theorem Settles.current_bind {f : Editor → Edit β}
    (h : ∀ e : Editor, e.Settled limit → Settles limit (f e)) :
    Settles limit (current >>= f) := by
  refine Triple.current_bind fun e he => ?_
  exact (h e he).weaken (fun _ => id) (fun e' heq => heq ▸ he) (fun _ => id)

theorem saveLine_settles {l : Line} (hl : l.WellFormed) : Settles limit (saveLine l) := by
  refine Triple.update fun e he => ?_
  have hsaved : Editor.Settled limit { e with line := l } := ⟨hl, he.history, he.input⟩
  exact ⟨hsaved, hsaved⟩

theorem saveHistory_settles {h : History} (hh : h.Bounded (max 1 limit)) :
    Settles limit (saveHistory h) := by
  refine Triple.update fun e he => ?_
  have hsaved : Editor.Settled limit { e with history := h } := ⟨he.line, hh, he.input⟩
  exact ⟨hsaved, hsaved⟩

/-! ## Moves and redraws -/

instance (width : Nat) : Writes (moveBackward width) := by
  unfold moveBackward
  infer_instance

instance (width : Nat) : Writes (moveForward width) := by
  unfold moveForward
  infer_instance

instance : Writes redrawRemainder := by
  unfold redrawRemainder
  infer_instance

theorem redrawLine_settles (text : List Char) : Settles limit (redrawLine text) := by
  unfold redrawLine
  refine Settles.current_bind fun e _ => ?_
  refine (Triple.writes _).bind fun _ => ?_
  refine (Triple.writes _).bind fun _ => ?_
  refine (Triple.writes _).bind fun _ => ?_
  refine (Triple.writes _).bind fun _ => ?_
  exact saveLine_settles (Line.wellFormed_ofText text)

/-! ## Keys -/

theorem typeText_settles (s : List Char) : Settles limit (typeText s) := by
  unfold typeText
  refine Settles.current_bind fun e _ => ?_
  refine (saveLine_settles (e.line.wellFormed_insert s)).bind fun _ => ?_
  exact Triple.writes _

/-- Erasing part of the line and drawing what is left, if there is anything to erase. -/
theorem Settles.erase (erasure : Line.Erasure) {draw : Editor → List Char → Line → Edit Unit}
    (hdraw : ∀ e removed line, Writes (draw e removed line)) :
    Settles limit (do
      let e ← current
      match e.line.erase? erasure with
      | none => pure ()
      | some (removed, line) =>
        saveLine line
        draw e removed line) := by
  refine Settles.current_bind fun e he => ?_
  split
  · exact Triple.pure ()
  · next removed line hfound =>
      have hwrites : Writes (draw e removed line) := hdraw e removed line
      exact (saveLine_settles (he.line.erase? hfound)).bind fun _ => Triple.writes _

theorem eraseBehind_settles (erasure : Line.Erasure) : Settles limit (eraseBehind erasure) :=
  Settles.erase erasure fun _ _ _ => inferInstance

theorem eraseToEnd_settles : Settles limit eraseToEnd :=
  Settles.erase .toEnd fun _ _ _ => inferInstance

theorem eraseEverything_settles : Settles limit eraseEverything :=
  Settles.erase .everything fun _ _ _ => inferInstance

theorem goBackward_settles (n : Nat) : Settles limit (goBackward n) := by
  unfold goBackward
  refine Settles.current_bind fun e _ => ?_
  refine Triple.ite (fun _ => Triple.pure ()) fun _ => ?_
  exact (saveLine_settles (e.line.wellFormed_move _)).bind fun _ => Triple.writes _

theorem goForward_settles (n : Nat) : Settles limit (goForward n) := by
  unfold goForward
  refine Settles.current_bind fun e _ => ?_
  exact (saveLine_settles (e.line.wellFormed_move _)).bind fun _ => Triple.writes _

theorem browse_settles (direction : Direction) (n : Nat) : Settles limit (browse direction n) := by
  unfold browse
  refine Settles.current_bind fun e he => ?_
  refine (saveHistory_settles (he.history.historySteps direction _ n _)).bind fun _ => ?_
  split
  · exact Triple.pure ()
  · exact redrawLine_settles _

/-! ## Finishing a line -/

theorem showExpanded_settles (text : List Char) : Settles limit (showExpanded text) := by
  unfold showExpanded
  exact (redrawLine_settles text).bind fun _ => Triple.writes _

theorem submit_settles : Settles limit submit := by
  unfold submit
  refine (Triple.writes _).bind fun _ => ?_
  refine Settles.current_bind fun e he => ?_
  refine (saveLine_settles Line.wellFormed_empty).bind fun _ => ?_
  exact (saveHistory_settles (he.history.append e.line.text).reset).bind fun _ => Triple.writes _

theorem enter_settles : Settles limit enter := by
  unfold enter
  refine Settles.current_bind fun before hbefore => ?_
  refine (Triple.writes _).bind fun _ => ?_
  refine (saveLine_settles hbefore.line.moveToEnd).bind fun _ => ?_
  refine Settles.current_bind fun e _ => ?_
  refine (Triple.writes _).bind fun _ => ?_
  exact Triple.ite (fun _ => submit_settles) fun _ => showExpanded_settles _

theorem interrupt_settles : Settles limit interrupt := by
  unfold interrupt
  refine (Triple.writes _).bind fun _ => ?_
  refine Settles.current_bind fun e he => ?_
  refine (saveLine_settles Line.wellFormed_empty).bind fun _ => ?_
  exact (saveHistory_settles he.history.reset).bind fun _ => Triple.pure _

instance : Writes endInput := by
  unfold endInput
  infer_instance

/-- **Every key keeps a settled editor settled**, at each write at which it may stop. -/
theorem handle_settles (event : Event) : Settles limit (handle event) := by
  unfold handle
  cases event with
  | text s => exact (typeText_settles s).bind fun _ => Triple.pure _
  | newline => exact enter_settles.bind fun _ => Triple.pure _
  | backspace => exact (eraseBehind_settles .previous).bind fun _ => Triple.pure _
  | delete => exact (eraseBehind_settles .previous).bind fun _ => Triple.pure _
  | cursorForward n => exact (goForward_settles n.toNat).bind fun _ => Triple.pure _
  | cursorBackward n => exact (goBackward_settles n.toNat).bind fun _ => Triple.pure _
  | cursorUp n => exact (browse_settles .older n.toNat).bind fun _ => Triple.pure _
  | cursorPreviousLine n => exact (browse_settles .older n.toNat).bind fun _ => Triple.pure _
  | cursorDown n => exact (browse_settles .newer n.toNat).bind fun _ => Triple.pure _
  | cursorNextLine n => exact (browse_settles .newer n.toNat).bind fun _ => Triple.pure _
  | eraseLineToEnd => exact eraseToEnd_settles.bind fun _ => Triple.pure _
  | eraseLineToBegin => exact (eraseBehind_settles .toBegin).bind fun _ => Triple.pure _
  | eraseLine => exact eraseEverything_settles.bind fun _ => Triple.pure _
  | interrupt => exact interrupt_settles.bind fun _ => Triple.pure _
  | endOfTransmission => exact Triple.writes _
  | screenSize width height =>
      have hresize : Settles limit (update fun e => { e with size := (width, height) }) := by
        refine Triple.update fun e he => ?_
        have hsaved : Editor.Settled limit { e with size := (width, height) } :=
          ⟨he.line, he.history, he.input⟩
        exact ⟨hsaved, hsaved⟩
      exact hresize.bind fun _ => Triple.pure _
  | _ => exact (Triple.writes _).bind fun _ => Triple.pure _

/-! ## Candidates -/

instance (p : Popup) : Writes (eraseCandidates p) := by
  unfold eraseCandidates
  infer_instance

theorem restoreCursor_settles (p : Popup) : Settles limit (restoreCursor p) := by
  unfold restoreCursor
  refine Settles.current_bind fun e _ => ?_
  refine (Triple.writes _).bind fun _ => ?_
  exact saveLine_settles (e.line.wellFormed_move _)

/-- **Taking candidates away settles the editor**, already before the first write. -/
theorem dismissBefore_settles (event : Event) :
    Triple (Editor.Settled limit) (Editor.WellFormed limit) (Editor.Settled limit)
      (dismissBefore event) := by
  unfold dismissBefore
  refine Triple.current_bind fun e he => ?_
  have hstart : ∀ e', e' = e → e'.WellFormed limit := fun e' heq => heq ▸ he
  split
  · next hmode =>
      exact (Triple.pure ()).weaken (fun _ => id) (fun e' heq => heq ▸ he.settled hmode)
        (fun _ => id)
  · next p hmode =>
      have hinput : Triple (Editor.Settled limit) (· = e) (Editor.Settled limit)
          (saveMode .input) := by
        refine Triple.update fun e' heq => ?_
        have hsaved : Editor.Settled limit { e' with mode := .input } :=
          ⟨(hstart e' heq).line, (hstart e' heq).history, rfl⟩
        exact ⟨hsaved, hsaved⟩
      refine hinput.bind fun _ => ?_
      dsimp only
      split
      · exact (Triple.writes _).bind fun _ => restoreCursor_settles p
      · exact (Triple.writes _).bind fun _ => restoreCursor_settles p

/-- **Showing candidates keeps the editor well formed**: the cursor goes to the end of the line, and
    remembers how far that was. -/
theorem showCandidates_wellFormed {grid : Grid} (hrows : 0 < grid.rowCount) :
    Triple (Editor.WellFormed limit) (Editor.Settled limit) (Editor.WellFormed limit)
      (showCandidates grid) := by
  unfold showCandidates
  refine Triple.current_bind fun e he => ?_
  -- until the mode is saved, the editor is the one with the cursor at the end
  have hmoved : Editor.Settled limit { e with line := e.line.moveToEnd } :=
    ⟨he.line.moveToEnd, he.history, he.input⟩
  have hcursor : Triple (Editor.WellFormed limit) (· = e)
      (· = { e with line := e.line.moveToEnd }) (saveLine e.line.moveToEnd) := by
    refine Triple.update fun e' heq => ?_
    subst heq
    exact ⟨hmoved.wellFormed, rfl⟩
  have hmode : Triple (Editor.WellFormed limit) (· = { e with line := e.line.moveToEnd })
      (Editor.WellFormed limit)
      (saveMode (.popup { distance := e.line.distanceToEnd, rows := grid.rowCount })) := by
    refine Triple.update fun e' heq => ?_
    subst heq
    have hshown : Editor.WellFormed limit
        { e with
          line := e.line.moveToEnd
          mode := .popup { distance := e.line.distanceToEnd, rows := grid.rowCount } } := by
      refine ⟨hmoved.line, hmoved.history, ?_⟩
      rintro p ⟨rfl⟩
      exact ⟨he.line.cursor_moveToEnd, Nat.sub_le _ _, hrows⟩
    exact ⟨hshown, hshown⟩
  refine (Triple.writes _).bind fun _ => ?_
  refine hcursor.bind fun _ => ?_
  refine (Triple.writes _).bind fun _ => ?_
  refine (Triple.writes _).bind fun _ => ?_
  refine (Triple.writes _).bind fun _ => ?_
  exact hmode.bind fun _ => Triple.writes _

/-! ## Completion -/

/-- An edit that saves and leaves only well-formed editors, if it starts from one. -/
abbrev Keeps (limit : Nat) (x : Edit α) : Prop :=
  Triple (Editor.WellFormed limit) (Editor.WellFormed limit) (Editor.WellFormed limit) x

/-- What settles on the way is well formed on the way. -/
theorem Triple.wellFormed {P Q : Editor → Prop} {x : Edit α}
    (h : Triple (Editor.Settled limit) P Q x) : Triple (Editor.WellFormed limit) P Q x :=
  h.weaken (fun _ he => he.wellFormed) (fun _ => id) (fun _ => id)

theorem Settles.leaves_wellFormed {x : Edit α} (h : Settles limit x) :
    Triple (Editor.WellFormed limit) (Editor.Settled limit) (Editor.WellFormed limit) x :=
  h.weaken (fun _ he => he.wellFormed) (fun _ => id) (fun _ he => he.wellFormed)

theorem prepareCompletion_settles :
    Triple (Editor.Settled limit) (Editor.WellFormed limit) (Editor.Settled limit)
      prepareCompletion := by
  unfold prepareCompletion
  exact (dismissBefore_settles .tab).bind fun _ => Triple.writes _

theorem complete_settles (replacement : List Char) : Settles limit (complete replacement) := by
  unfold complete
  refine Settles.current_bind fun e _ => ?_
  refine (Triple.writes _).bind fun _ => ?_
  refine (saveLine_settles (e.line.wellFormed_replaceBefore _ _)).bind fun _ => ?_
  exact Triple.writes _

theorem finishCompletion_wellFormed {answer : Completion} (h : answer.LaidOut) :
    Triple (Editor.WellFormed limit) (Editor.Settled limit) (Editor.WellFormed limit)
      (finishCompletion answer) := by
  cases answer with
  | none => exact Settles.leaves_wellFormed (Triple.pure ())
  | single replacement => exact (complete_settles replacement).leaves_wellFormed
  | candidates grid => exact showCandidates_wellFormed h.rowCount_pos

theorem runCompletion_settles (files : FileTree) (request : CompletionRequest) :
    Settles limit (runCompletion files request) := by
  unfold runCompletion
  refine Settles.current_bind fun e _ => ?_
  dsimp only
  refine Triple.bind (R := Editor.Settled limit) ?_ fun _ => Triple.writes _
  refine Triple.update fun e he => ?_
  exact ⟨⟨he.line, he.history, he.input⟩, he.line, he.history, he.input⟩

theorem laidOut_runCompletion (files : FileTree) (request : CompletionRequest) (e : Editor) :
    (runCompletion files request e).value.LaidOut := by
  have hvalue : (runCompletion files request e).value =
      (e.settings.complete files e.commands request).1 := by
    simp [runCompletion]
  rw [hvalue]
  exact e.settings.laidOut_complete files e.commands request

theorem completeWord_keeps (files : FileTree) : Keeps limit (completeWord files) := by
  unfold completeWord
  refine prepareCompletion_settles.wellFormed.bind fun request => ?_
  refine (runCompletion_settles files request).wellFormed.bind_of_value
    (laidOut_runCompletion files request) fun answer hanswer => ?_
  exact finishCompletion_wellFormed hanswer

/-! ## Input -/

/-- Changing what has no part in being well formed. -/
theorem update_keeps {f : Editor → Editor} (hline : ∀ e, (f e).line = e.line)
    (hhistory : ∀ e, (f e).history = e.history) (hmode : ∀ e, (f e).mode = e.mode) :
    Keeps limit (update f) := by
  refine Triple.update fun e he => ?_
  have hsaved : (f e).WellFormed limit := by
    refine ⟨?_, ?_, ?_⟩
    · rw [hline]
      exact he.line
    · rw [hhistory]
      exact he.history
    · rw [hline, hmode]
      exact he.popup
  exact ⟨hsaved, hsaved⟩

theorem applyKey_keeps (event : Event) : Keeps limit (applyKey event) := by
  unfold applyKey
  refine (dismissBefore_settles event).wellFormed.bind fun _ => ?_
  refine (handle_settles event).leaves_wellFormed.bind fun outcome => ?_
  have hdue : Keeps limit (update fun e => { e with needsPrompt := true }) :=
    update_keeps (fun _ => rfl) (fun _ => rfl) (fun _ => rfl)
  refine Triple.ite (fun _ => ?_) fun _ => Triple.pure outcome
  exact hdue.bind fun _ => Triple.pure outcome

/-- **Every event keeps an editor well formed**, at each write at which it may stop. -/
theorem apply_keeps (files : FileTree) (event : Event) : Keeps limit (apply files event) := by
  unfold apply
  refine Triple.ite (fun _ => ?_) fun _ => applyKey_keeps event
  exact (completeWord_keeps files).bind fun _ => Triple.pure _

theorem enqueue_keeps (bytes : List UInt8) : Keeps limit (enqueue bytes) := by
  unfold enqueue
  refine Triple.current_bind fun e he => ?_
  have hqueued : Keeps limit (update fun e' =>
      { e' with
        decoder := (e.decoder.decode bytes).2
        queue := e'.queue ++ (e.decoder.decode bytes).1.events }) :=
    update_keeps (fun _ => rfl) (fun _ => rfl) (fun _ => rfl)
  refine Triple.weaken (P := Editor.WellFormed limit) ?_ (fun _ => id) (fun e' heq => heq ▸ he)
    (fun _ => id)
  refine (Triple.writes _).bind fun _ => ?_
  refine hqueued.bind fun _ => ?_
  exact Triple.writes _

theorem nextEvent_keeps : Keeps limit nextEvent := by
  unfold nextEvent
  refine Triple.current_bind fun e he => ?_
  refine Triple.weaken (P := Editor.WellFormed limit) ?_ (fun _ => id) (fun e' heq => heq ▸ he)
    (fun _ => id)
  split
  · exact Triple.pure none
  · refine Triple.bind (R := Editor.WellFormed limit) ?_ fun _ => Triple.pure _
    exact update_keeps (fun _ => rfl) (fun _ => rfl) (fun _ => rfl)

theorem applyAll_keeps (files : FileTree) (events : List Event) :
    Keeps limit (applyAll files events) := by
  induction events with
  | nil => exact Triple.pure []
  | cons event rest ih =>
      have hrest : Keeps limit (update fun e => { e with queue := rest }) :=
        update_keeps (fun _ => rfl) (fun _ => rfl) (fun _ => rfl)
      unfold applyAll
      refine hrest.bind fun _ => ?_
      refine (apply_keeps files event).bind fun _ => ?_
      exact ih.bind fun _ => Triple.pure _

theorem processInput_keeps (files : FileTree) (bytes : List UInt8) :
    Keeps limit (processInput files bytes) := by
  unfold processInput
  refine (enqueue_keeps bytes).bind fun _ => ?_
  refine (Triple.writes current).bind fun e => ?_
  exact applyAll_keeps files e.queue

theorem renderPrompt_keeps : Keeps limit renderPrompt := by
  unfold renderPrompt
  refine (Triple.writes current).bind fun e => ?_
  refine (Triple.writes _).bind fun _ => ?_
  refine (Triple.writes _).bind fun _ => ?_
  refine (Triple.writes _).bind fun _ => ?_
  exact update_keeps (fun _ => rfl) (fun _ => rfl) (fun _ => rfl)

end Edit

end Promptline
