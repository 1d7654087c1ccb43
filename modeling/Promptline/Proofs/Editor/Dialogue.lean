import Promptline.Proofs.Editor.Mirror

set_option autoImplicit false

/-! # Dialogues on a screen

A *dialogue* begins with a prompt on a fresh row of a screen and goes on with events, completions
with any answer, and a prompt whenever one is due. The screen is fed with all that is written.

Between two events the screen shows what the editor holds: prompt and line are all that stands in
the cursor's row, the cursor stands where the cursor of the line is, and below are the candidates
that the last completion left, if any, and nothing else (`Dialogue.screen_mirrors_editor`). One
invariant carries this (`Stands`): every action keeps it (`Stands.act`). -/

namespace Promptline

open Terminal Unicode Edit

/-! ## Actions -/

namespace Completion

/-- The rows that a completion shows. -/
def rows : Completion → List (List Char)
  | candidates grid => grid.rows
  | _ => []

/-- A completion puts in text over an alphabet, or shows the grid of names over it, with no more
    rows than a terminal can be told to go up. -/
def AllOver (A : Char → Prop) : Completion → Prop
  | none => True
  | single replacement => Over A replacement
  | candidates grid =>
    (∃ names width, Grid.layout names width = some grid ∧ ∀ name ∈ names, Over A name) ∧
      grid.rowCount ≤ 65535

end Completion

/-- What an editor is made to do. -/
inductive Action where
  | event (files : FileTree) (event : Event)
  /-- A completion is asked for, looked for elsewhere, and put to use. -/
  | completion (answer : Completion)

namespace Action

def edit : Action → Edit Unit
  | .event files ev => do let _ ← apply files ev
  | .completion found => do let _ ← prepareCompletion; finishCompletion found

/-- The completion that an action puts to use. -/
def answer (e : Editor) : Action → Completion
  | .event files ev => if ev = .tab then (search e files).1 else .none
  | .completion found => found

/-- An action brings in nothing but texts over an alphabet. -/
def AllOver (A : Char → Prop) (e : Editor) (a : Action) : Prop :=
  (a.answer e).AllOver A ∧ ∀ files t, a = .event files (.text t) → Over A t

end Action

/-! ## Dialogues -/

/-- An editor and a screen that belong together: the editor, the screen, and the rows that the last
    completion showed. Prompt and line are never wider than what a terminal can be told to move
    over. -/
inductive Dialogue (A : Char → Prop) : Editor → Screen → List (List Char) → Prop
  | start {e : Editor} {s : Screen} (holds : Holds A e) (input : e.mode = .input)
      (fits : Fits e) (fresh : Displays s [] [] []) :
      Dialogue A (renderPrompt.run e .working).editor
        (s.feed (renderPrompt.run e .working).output) []
  | prompt {e : Editor} {s : Screen} {rows : List (List Char)} (before : Dialogue A e s rows)
      (due : e.needsPrompt = true) (fits : Fits e) :
      Dialogue A (renderPrompt.run e .working).editor
        (s.feed (renderPrompt.run e .working).output) []
  | act {e : Editor} {s : Screen} {rows : List (List Char)} (before : Dialogue A e s rows)
      (shown : e.needsPrompt = false) (fits : Fits e) (a : Action) (plain : a.AllOver A e) :
      Dialogue A (a.edit.run e .working).editor (s.feed (a.edit.run e .working).output)
        (a.answer e).rows

/-! ## One action -/

theorem needsPrompt_dismissed (e : Editor) : (dismissed e).needsPrompt = e.needsPrompt := by
  unfold dismissed
  split <;> rfl

/-- The cursor alone moves when candidates go away. -/
theorem Fits.dismissed {e : Editor} (h : Fits e) : Fits (Edit.dismissed e) := by
  unfold Edit.dismissed
  split <;> exact h

/-- Putting a completion to use leaves the prompt as it is. -/
theorem needsPrompt_finishCompletion (e : Editor) (answer : Completion) :
    (finishCompletion answer e).editor.needsPrompt = e.needsPrompt := by
  cases answer <;> simp [finishCompletion, editor_complete, editor_showCandidates]

section Steps

variable {A : Char → Prop} (hA : PlainAlphabet A) {s : Screen} {e : Editor}
  {rows : List (List Char)}

/-- What belongs together between two actions: a fresh row where a prompt is due, else the mirror
    of the editor. -/
structure Stands (A : Char → Prop) (s : Screen) (e : Editor) (rows : List (List Char)) : Prop where
  fresh : e.needsPrompt = true → Fresh A s e ∧ e.mode = .input
  mirrors : e.needsPrompt = false → Mirrors A s e rows

theorem Shows.mirrors (h : Shows A s e []) (hmode : e.mode = .input) : Mirrors A s e [] where
  toShows := h
  input _ := rfl
  popup p hp := by
    rw [hmode] at hp
    exact absurd hp (by simp)

include hA

/-- **Every key keeps the screen in step.** What it writes turns a screen that shows the line into
    one that shows the line after it, or that stands at a fresh row where the line has ended. -/
theorem Shows.handle (h : Shows A s e []) (hfit : Fits e) {event : Event}
    (htext : ∀ t, event = .text t → Over A t) :
    if (handle event e).value.any Outcome.endsLine then
      Fresh A (s.feed ((Edit.handle event).written e)) (Edit.handle event e).editor
    else Shows A (s.feed ((Edit.handle event).written e)) (Edit.handle event e).editor [] := by
  unfold Edit.handle
  cases event with
  | text t => simpa using h.typeText hA hfit (htext t rfl)
  | newline =>
      have henter := h.enter hA hfit
      by_cases hsame : expansion e = e.line.text
      · rw [if_pos hsame] at henter
        simpa [value_enter, hsame, Outcome.endsLine] using henter
      · rw [if_neg hsame] at henter
        simpa [value_enter, hsame, Outcome.endsLine] using henter
  | backspace => simpa using h.erasePrevious hA hfit
  | delete => simpa using h.erasePrevious hA hfit
  | cursorForward n => simpa using h.goForward hA hfit n.toNat
  | cursorBackward n => simpa using h.goBackward hA hfit n.toNat
  | cursorUp n => simpa using h.browse hA hfit .older n.toNat
  | cursorPreviousLine n => simpa using h.browse hA hfit .older n.toNat
  | cursorDown n => simpa using h.browse hA hfit .newer n.toNat
  | cursorNextLine n => simpa using h.browse hA hfit .newer n.toNat
  | eraseLineToEnd => simpa using h.eraseToEnd hA hfit
  | eraseLineToBegin => simpa using h.eraseToBegin hA hfit
  | eraseLine => simpa using h.eraseEverything hA hfit
  | screenSize width height =>
      have hsize : Shows A s { e with size := (width, height) } [] :=
        ⟨⟨h.prompt, h.text, h.wellFormed, h.history⟩, h.screen⟩
      simpa [Outcome.endsLine] using hsize
  | interrupt => simpa [value_interrupt, Outcome.endsLine] using h.interrupt hA
  | endOfTransmission =>
      -- on an empty line the input ends, on any other the key does nothing
      by_cases hempty : e.line.isEmpty = true
      · have hline : e.line = .empty := by
          obtain ⟨left, right, _, _, hline⟩ := h.toHolds.exists_between hA
          rw [Line.isEmpty, hline, Line.text_between, List.isEmpty_iff, List.append_eq_nil_iff]
            at hempty
          rw [hline, hempty.1, hempty.2]
          rfl
        have hfresh := h.lineBreak hA h.history hline
        simpa [value_endInput, editor_endInput, written_endInput, hempty,
          Outcome.endsLine] using hfresh
      · simpa [value_endInput, editor_endInput, written_endInput, hempty] using h
  | _ => simpa using h

/-- Acting on a key. -/
theorem Mirrors.applyKey (h : Mirrors A s e rows) (hfit : Fits e) (hshown : e.needsPrompt = false)
    {event : Event} (htext : ∀ t, event = .text t → Over A t) :
    Stands A (s.feed ((Edit.applyKey event).written e)) (Edit.applyKey event e).editor [] := by
  have hinput := dismissed_mode e
  have hprompt : (dismissed e).needsPrompt = false := (needsPrompt_dismissed e).trans hshown
  have hhandled := (h.dismiss hA hfit event).handle hA hfit.dismissed htext
  obtain ⟨line, history, size, hframe⟩ := handle_frame (dismissed e) event
  have hmode : (Edit.handle event (dismissed e)).editor.mode = (dismissed e).mode := by
    rw [hframe]
  have hneeds : (Edit.handle event (dismissed e)).editor.needsPrompt =
      (dismissed e).needsPrompt := by
    rw [hframe]
  rw [written_applyKey, editor_applyKey, Screen.feed_append]
  -- the prompt is due from now on exactly where the line has ended
  by_cases hends : (Edit.handle event (dismissed e)).value.any Outcome.endsLine = true
  · rw [if_pos hends] at hhandled
    rw [if_pos hends]
    refine ⟨fun _ => ⟨⟨⟨hhandled.prompt, hhandled.text, hhandled.wellFormed, hhandled.history⟩,
      hhandled.screen⟩, hmode.trans hinput⟩, fun hno => absurd hno (by simp)⟩
  · rw [if_neg hends] at hhandled
    rw [if_neg hends]
    refine ⟨fun hdue => ?_, fun _ => hhandled.mirrors (hmode.trans hinput)⟩
    rw [hneeds, hprompt] at hdue
    exact absurd hdue (by simp)

/-- Putting a completion to use. -/
theorem Shows.finishCompletion (h : Shows A s e []) (hfit : Fits e) (hmode : e.mode = .input)
    {answer : Completion} (hanswer : answer.AllOver A) :
    Mirrors A (s.feed ((Edit.finishCompletion answer).written e))
      (Edit.finishCompletion answer e).editor answer.rows := by
  cases answer with
  | none => exact h.mirrors hmode
  | single replacement =>
      refine (h.complete hA hfit hanswer).mirrors ?_
      rw [editor_complete]
      exact hmode
  | candidates grid =>
      obtain ⟨⟨names, width, hlayout, hnames⟩, hle⟩ := hanswer
      have hrows : ∀ row ∈ grid.rows, Printed row := fun row hrow =>
        Grid.printed_of_mem_rows hlayout (fun name hname => printed_of_over hA (hnames name hname))
          hrow
      have hshows := h.showCandidates hA hfit hrows (Grid.rowCount_pos hlayout) hle
      refine ⟨hshows, fun hinput => ?_, fun p hp => ?_⟩
      · simp [Edit.finishCompletion, editor_showCandidates] at hinput
      · obtain ⟨left, right, hl, hr, hline⟩ := h.toHolds.exists_between hA
        simp only [Edit.finishCompletion, editor_showCandidates, Mode.popup.injEq] at hp
        refine ⟨by rw [← hp]; rfl, ?_⟩
        simp only [Edit.finishCompletion, editor_showCandidates]
        rw [hline, Line.moveToEnd_between hA hl hr,
          Line.after_between hA (over_append.2 ⟨hl, hr⟩) over_nil]

/-- A completion is looked for where the candidates have gone away, and put to use there. -/
theorem Mirrors.useCompletion (h : Mirrors A s e rows) (hfit : Fits e)
    (hshown : e.needsPrompt = false) {answer : Completion} (hanswer : answer.AllOver A) :
    Stands A
      (s.feed (dismissal e .tab ++ (Edit.finishCompletion answer).written (dismissed e)))
      (Edit.finishCompletion answer (dismissed e)).editor answer.rows := by
  have hused :=
    (h.dismiss hA hfit .tab).finishCompletion hA hfit.dismissed (dismissed_mode e) hanswer
  rw [Screen.feed_append]
  refine ⟨fun hdue => ?_, fun _ => hused⟩
  rw [needsPrompt_finishCompletion, needsPrompt_dismissed, hshown] at hdue
  exact absurd hdue (by simp)

omit hA in
/-- The command table is not on the screen. -/
theorem Stands.of_commands (h : Stands A s e rows) (commands : CommandTable) :
    Stands A s { e with commands } rows where
  fresh hdue :=
    have hfresh := h.fresh hdue
    ⟨⟨⟨hfresh.1.prompt, hfresh.1.text, hfresh.1.wellFormed, hfresh.1.history⟩,
      hfresh.1.screen⟩, hfresh.2⟩
  mirrors hshown :=
    have hmirrors := h.mirrors hshown
    ⟨⟨⟨hmirrors.prompt, hmirrors.text, hmirrors.wellFormed, hmirrors.history⟩,
      hmirrors.screen⟩, hmirrors.input, hmirrors.popup⟩

/-- **Every action keeps screen and editor together.** -/
theorem Mirrors.act (h : Mirrors A s e rows) (hfit : Fits e) (hshown : e.needsPrompt = false)
    (a : Action) (hover : a.AllOver A e) :
    Stands A (s.feed (a.edit.written e)) (a.edit e).editor (a.answer e).rows := by
  obtain ⟨hanswer, htext⟩ := hover
  cases a with
  | completion answer =>
      simp only [Action.edit, written_bind, editor_bind, written_prepareCompletion,
        editor_prepareCompletion]
      exact h.useCompletion hA hfit hshown hanswer
  | event files event =>
      by_cases htab : event = .tab
      · -- the search changes nothing but the command table
        simp only [Action.answer, if_pos htab] at hanswer ⊢
        have hused := (h.useCompletion hA hfit hshown hanswer).of_commands (search e files).2.1
        simpa [Action.edit, Edit.apply, htab, written_completeWord, editor_completeWord]
          using hused
      · simp only [Action.answer, if_neg htab]
        have hover : ∀ t, event = .text t → Over A t := fun t ht => htext files t (by rw [ht])
        have hkey := h.applyKey hA hfit hshown hover
        simpa [Action.edit, Edit.apply, htab, Completion.rows] using hkey

/-! ## All of a dialogue -/

omit hA in
instance (a : Action) : Sound a.edit := by
  unfold Action.edit
  split <;> infer_instance

theorem Fresh.stands (h : Fresh A s e) (hfit : Fits e) (hmode : e.mode = .input) :
    Stands A (s.feed (Edit.renderPrompt.written e)) (Edit.renderPrompt e).editor [] := by
  have hshows := h.renderPrompt hA hfit
  rw [editor_renderPrompt] at hshows ⊢
  exact ⟨fun hdue => absurd hdue (by simp), fun _ => hshows.mirrors hmode⟩

/-- What holds at the beginning of a dialogue and is kept by each action holds in all of it. -/
theorem Dialogue.stands (h : Dialogue A e s rows) : Stands A s e rows := by
  induction h with
  | start holds input fits fresh =>
      rw [run_working_editor, run_working_output]
      exact Fresh.stands hA ⟨holds, fresh⟩ fits input
  | prompt before due fits ih =>
      obtain ⟨hfresh, hmode⟩ := ih.fresh due
      rw [run_working_editor, run_working_output]
      exact hfresh.stands hA fits hmode
  | act before shown fits a plain ih =>
      rw [run_working_editor, run_working_output]
      exact (ih.mirrors shown).act hA fits shown a plain

/-- **The screen mirrors the editor.** Whenever no prompt is due, the cursor's row shows the prompt
    and the line and nothing else, the terminal's cursor stands where the cursor of the line is,
    and the rows below show the candidates of the last completion and nothing else: none unless the
    editor is waiting to take them away, in which case it knows how many rows there are and keeps
    its cursor at the end of the line. -/
theorem Dialogue.screen_mirrors_editor (h : Dialogue A e s rows) (hshown : e.needsPrompt = false) :
    s.cells s.row = Row.ofText (e.prompt ++ e.line.text) ∧
      s.column = displayWidth e.prompt + displayWidth e.line.before ∧
      (∀ i, s.cells (s.row + 1 + i) = Row.ofText (rows.getD i [])) ∧
      (e.mode = .input → rows = []) ∧
      (∀ p, e.mode = .popup p → p.rows = rows.length ∧ e.line.after = []) := by
  have hmirrors := (h.stands hA).mirrors hshown
  obtain ⟨left, right, hl, hr, hline⟩ := hmirrors.toHolds.exists_between hA
  refine ⟨?_, ?_, hmirrors.screen.below, hmirrors.input, hmirrors.popup⟩
  · rw [hmirrors.screen.row, List.append_assoc, Line.before_append_after]
  · rw [hmirrors.screen.column, extent_append, extent_eq_displayWidth hA hmirrors.prompt, hline,
      Line.before_between hA hl hr, extent_eq_displayWidth hA hl]

end Steps

theorem screen_mirrors_typed_word :
    ∃ e s, Dialogue PrintableAscii e s [] ∧ e.needsPrompt = false ∧ e.line.text = ['l', 's'] ∧
      s.cells s.row = Row.ofText ['>', ' ', 'l', 's'] ∧ s.column = 3 := by
  have hstart : Dialogue PrintableAscii _ _ [] := .start
    (e := .start ['>', ' '] ⟨[], [], .tableOnly⟩ (.empty 10) (80, 24))
    ⟨by decide, by decide, Nat.zero_le _, History.AllOver.empty 10⟩ rfl (by decide) displays_clear
  have htyped := hstart.act rfl (by decide) (.event .empty (.text ['l', 's']))
    ⟨trivial, by rintro _ _ ⟨⟩; decide⟩
  have hmoved := htyped.act rfl (by decide) (.event .empty (.cursorBackward 1))
    ⟨trivial, by rintro _ _ ⟨⟩⟩
  obtain ⟨hrow, hcolumn, _⟩ := hmoved.screen_mirrors_editor plain_printableAscii rfl
  exact ⟨_, _, hmoved, rfl, rfl, hrow, hcolumn⟩

end Promptline
