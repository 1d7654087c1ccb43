import Promptline.Proofs.Editor.Keys

set_option autoImplicit false

/-! # What acting on an event comes to

Candidates that are shown go away before anything else happens, so acting on an event is acting on
it in the editor without them (`dismissed`). Completion is split in three: candidates go away, a
completion is looked for, and it is put to use. Only the search depends on the files, and nothing
but the command table depends on the search besides its answer (`editor_completeWord`,
`written_completeWord`). -/

namespace Promptline.Edit

open Terminal Unicode

variable (e : Editor)

/-! ## Candidates -/

instance (grid : Grid) : Sound (showCandidates grid) := by
  unfold showCandidates
  refine Sound.bind inferInstance fun e => Sound.bind inferInstance fun _ => ?_
  dsimp only
  infer_instance

/-- The rows of a grid, each on a row of its own below the cursor. -/
def rowsBelow (rows : List (List Char)) : List Char :=
  rows.flatMap fun row => lineBreak ++ row

/-- The popup that remembers how to take the candidates away again. -/
def popupOf (l : Line) (grid : Grid) : Popup :=
  { distance := l.distanceToEnd, rows := grid.rowCount }

theorem editor_rows (rows : List (List Char)) :
    (all (rows.map fun row => do print lineBreak; print row) e).editor = e :=
  editor_all e fun x hx => by
    obtain ⟨row, _, rfl⟩ := List.mem_map.1 hx
    exact fun _ => rfl

theorem written_rows (rows : List (List Char)) :
    (all (rows.map fun row => do print lineBreak; print row)).written e = rowsBelow rows := by
  rw [written_all e fun x hx => by
    obtain ⟨row, _, rfl⟩ := List.mem_map.1 hx
    exact fun _ => rfl]
  simp [rowsBelow, List.flatMap_map]

theorem editor_showCandidates (grid : Grid) :
    (showCandidates grid e).editor =
      { e with line := e.line.moveToEnd, mode := .popup (popupOf e.line grid) } := by
  simp [showCandidates, editor_rows, popupOf]

theorem written_showCandidates (grid : Grid) :
    (showCandidates grid).written e =
      forward e.line.widthAfter ++ rowsBelow grid.rows ++
        (Event.cursorPreviousLine (columns grid.rowCount)).encode ++
        forward (promptWidth e.prompt + displayWidth e.line.text) := by
  simp [showCandidates, editor_rows, written_rows]

instance (p : Popup) : Sound (restoreCursor p) := by
  unfold restoreCursor
  infer_instance

theorem editor_restoreCursor (p : Popup) :
    (restoreCursor p e).editor = { e with line := e.line.move (-p.distance) } := by
  simp [restoreCursor]

theorem written_restoreCursor (p : Popup) :
    (restoreCursor p).written e = backward (e.line.widthBefore p.distance) := by
  simp [restoreCursor]

instance (p : Popup) : Sound (eraseCandidates p) := by
  unfold eraseCandidates
  infer_instance

/-- What erases a number of rows below the cursor. -/
def wipedRows : Nat → List Char
  | 0 => []
  | n + 1 => (Event.cursorNextLine 1).encode ++ Event.eraseLine.encode ++ wipedRows n

theorem editor_eraseCandidates (p : Popup) : (eraseCandidates p e).editor = e := by
  have hrows : (all (List.replicate p.rows do
      control (.cursorNextLine 1); control .eraseLine) e).editor = e :=
    editor_all e fun x hx => by
      rw [List.eq_of_mem_replicate hx]
      exact fun _ => rfl
  simp [eraseCandidates, hrows]

theorem written_eraseCandidates (p : Popup) :
    (eraseCandidates p).written e =
      Event.saveCursor.encode ++ wipedRows p.rows ++ Event.restoreCursor.encode := by
  have hall : ∀ x ∈ List.replicate p.rows (do
      control (.cursorNextLine 1); control .eraseLine : Edit Unit), ∀ e, (x e).editor = e := by
    intro x hx
    rw [List.eq_of_mem_replicate hx]
    exact fun _ => rfl
  have hwiped : ∀ n, (List.replicate n (do
      control (.cursorNextLine 1); control .eraseLine : Edit Unit)).flatMap (·.written e)
        = wipedRows n := by
    intro n
    induction n with
    | zero => rfl
    | succ n ih => rw [List.replicate_succ, List.flatMap_cons, ih]; simp [wipedRows]
  simp [eraseCandidates, editor_all e hall, written_all e hall, hwiped]

/-- The editor without candidates below the line. -/
def dismissed : Editor :=
  match e.mode with
  | .input => e
  | .popup p => { e with mode := .input, line := e.line.move (-p.distance) }

/-- What takes candidates away that are shown for a popup. -/
def wiping (event : Event) (p : Popup) : List Char :=
  match event with
  | .screenSize .. => Event.eraseToEnd.encode
  | _ => Event.saveCursor.encode ++ wipedRows p.rows ++ Event.restoreCursor.encode

/-- What takes candidates away before an event, if there are any. -/
def dismissal (event : Event) : List Char :=
  match e.mode with
  | .input => []
  | .popup p => wiping event p ++ backward (e.line.widthBefore p.distance)

instance (event : Event) : Sound (dismissBefore event) := by
  unfold dismissBefore
  refine Sound.bind inferInstance fun e => ?_
  split
  · infer_instance
  · refine Sound.bind inferInstance fun _ => ?_
    dsimp only
    split <;> infer_instance

theorem editor_dismissBefore (event : Event) :
    (dismissBefore event e).editor = dismissed e := by
  unfold dismissed dismissBefore
  cases hm : e.mode with
  | input => simp [hm]
  | popup p =>
      cases event <;> simp [hm, editor_restoreCursor, editor_eraseCandidates]

theorem written_dismissBefore (event : Event) :
    (dismissBefore event).written e = dismissal e event := by
  unfold dismissal dismissBefore wiping
  cases hm : e.mode with
  | input => simp [hm]
  | popup p =>
      cases event <;>
        simp [hm, written_restoreCursor, written_eraseCandidates, editor_eraseCandidates]

theorem dismissed_eq_self {e : Editor} (hmode : e.mode = .input) : dismissed e = e := by
  rw [dismissed, hmode]

theorem dismissed_mode : (dismissed e).mode = .input := by
  unfold dismissed
  split
  · next h => exact h
  · rfl

theorem text_dismissed : (dismissed e).line.text = e.line.text := by
  unfold dismissed
  split <;> rfl

theorem history_dismissed : (dismissed e).history = e.history := by
  unfold dismissed
  split <;> rfl

/-! ## Completion -/

instance (replacement : List Char) : Sound (complete replacement) := by
  unfold complete
  infer_instance

theorem editor_complete (replacement : List Char) :
    (complete replacement e).editor =
      { e with line := e.line.replaceBefore e.line.wordStart replacement } := by
  simp [complete]

theorem written_complete (replacement : List Char) :
    (complete replacement).written e =
      backward (e.line.widthBefore (e.line.cursor - e.line.wordStart)) ++ replacement ++
        remainder (e.line.replaceBefore e.line.wordStart replacement) := by
  simp [complete]

instance (answer : Completion) : Sound (finishCompletion answer) := by
  unfold finishCompletion
  split <;> infer_instance

/-- The command table plays no part in putting a completion to use. -/
theorem editor_finishCompletion_commands (answer : Completion) (commands : CommandTable) :
    (finishCompletion answer { e with commands }).editor =
      { (finishCompletion answer e).editor with commands } := by
  cases answer <;>
    simp [finishCompletion, editor_complete, editor_showCandidates]

theorem written_finishCompletion_commands (answer : Completion) (commands : CommandTable) :
    (finishCompletion answer).written { e with commands } =
      (finishCompletion answer).written e := by
  cases answer <;>
    simp [finishCompletion, written_complete, written_showCandidates]

instance : Sound prepareCompletion := by
  unfold prepareCompletion
  infer_instance

@[simp]
theorem value_prepareCompletion :
    (prepareCompletion e).value = (dismissed e).completionRequest := by
  simp [prepareCompletion, editor_dismissBefore]

@[simp]
theorem editor_prepareCompletion : (prepareCompletion e).editor = dismissed e := by
  simp [prepareCompletion, editor_dismissBefore]

@[simp]
theorem written_prepareCompletion : prepareCompletion.written e = dismissal e .tab := by
  simp [prepareCompletion, written_dismissBefore]

/-- What the search for completions finds: the answer, the command table then, and records. -/
def search (files : FileTree) : Completion × CommandTable × List Log.Record :=
  (dismissed e).settings.complete files (dismissed e).commands (dismissed e).completionRequest

instance (files : FileTree) (request : CompletionRequest) :
    Sound (runCompletion files request) := by
  unfold runCompletion
  infer_instance

instance (files : FileTree) : Sound (completeWord files) := by
  unfold completeWord
  infer_instance

/-- Completing a word is putting to use what the search finds, the command table apart. -/
theorem editor_completeWord (files : FileTree) :
    (completeWord files e).editor =
      { (finishCompletion (search e files).1 (dismissed e)).editor with
        commands := (search e files).2.1 } := by
  simp [completeWord, runCompletion, search, editor_finishCompletion_commands]

theorem written_completeWord (files : FileTree) :
    (completeWord files).written e =
      dismissal e .tab ++ (finishCompletion (search e files).1).written (dismissed e) := by
  simp [completeWord, runCompletion, search, written_finishCompletion_commands]

/-! ## Events -/

instance (event : Event) : Sound (handle event) := by
  unfold handle
  cases event <;> dsimp only <;> infer_instance

instance (event : Event) : Sound (applyKey event) := by
  unfold applyKey
  infer_instance

instance (files : FileTree) (event : Event) : Sound (apply files event) := by
  unfold apply
  infer_instance

/-- A key changes the line, the history and the size, and nothing else. -/
theorem handle_frame (event : Event) :
    ∃ line history size, (handle event e).editor = { e with line, history, size } := by
  -- several keys erase, and several browse
  have herase : ∀ erasure, ∃ line history size,
      (eraseBehind erasure e).editor = { e with line, history, size } := by
    intro erasure
    rw [editor_eraseBehind]
    split <;> exact ⟨_, _, _, rfl⟩
  have hbrowse : ∀ direction n, ∃ line history size,
      (browse direction n e).editor = { e with line, history, size } := by
    intro direction n
    rw [editor_browse]
    split <;> exact ⟨_, _, _, rfl⟩
  unfold handle
  cases event with
  | text t =>
      simp only [editor_bind, editor_pure, editor_typeText]
      exact ⟨_, _, _, rfl⟩
  | newline =>
      simp only [editor_bind, editor_pure, editor_enter]
      split <;> exact ⟨_, _, _, rfl⟩
  | backspace => simpa only [editor_bind, editor_pure] using herase .previous
  | delete => simpa only [editor_bind, editor_pure] using herase .previous
  | eraseLineToBegin => simpa only [editor_bind, editor_pure] using herase .toBegin
  | cursorForward n =>
      simp only [editor_bind, editor_pure, editor_goForward]
      exact ⟨_, _, _, rfl⟩
  | cursorBackward n =>
      simp only [editor_bind, editor_pure, editor_goBackward]
      split <;> exact ⟨_, _, _, rfl⟩
  | cursorUp n => simpa only [editor_bind, editor_pure] using hbrowse .older _
  | cursorPreviousLine n => simpa only [editor_bind, editor_pure] using hbrowse .older _
  | cursorDown n => simpa only [editor_bind, editor_pure] using hbrowse .newer _
  | cursorNextLine n => simpa only [editor_bind, editor_pure] using hbrowse .newer _
  | eraseLineToEnd =>
      simp only [editor_bind, editor_pure, editor_eraseToEnd]
      split <;> exact ⟨_, _, _, rfl⟩
  | eraseLine =>
      simp only [editor_bind, editor_pure, editor_eraseEverything]
      split <;> exact ⟨_, _, _, rfl⟩
  | interrupt =>
      simp only [editor_bind, editor_pure, editor_interrupt]
      exact ⟨_, _, _, rfl⟩
  | endOfTransmission =>
      simp only [editor_endInput]
      exact ⟨e.line, e.history, e.size, rfl⟩
  | screenSize width height => exact ⟨e.line, e.history, (width, height), rfl⟩
  | _ => exact ⟨e.line, e.history, e.size, rfl⟩

@[simp]
theorem value_applyKey (event : Event) :
    (applyKey event e).value = (handle event (dismissed e)).value := by
  simp [applyKey, editor_dismissBefore]

/-- Whatever the key did, the prompt is due if the outcome ends the line. -/
theorem editor_applyKey (event : Event) :
    (applyKey event e).editor =
      if (handle event (dismissed e)).value.any Outcome.endsLine then
        { (handle event (dismissed e)).editor with needsPrompt := true }
      else (handle event (dismissed e)).editor := by
  simp [applyKey, editor_dismissBefore]

theorem written_applyKey (event : Event) :
    (applyKey event).written e = dismissal e event ++ (handle event).written (dismissed e) := by
  simp [applyKey, editor_dismissBefore, written_dismissBefore]

end Promptline.Edit
