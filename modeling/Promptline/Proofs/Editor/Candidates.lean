import Promptline.Proofs.Editor.Events
import Promptline.Proofs.Line.Cursor

set_option autoImplicit false

/-! # Candidates leave no trace

While candidates are shown, the cursor stands at the end of the line. Taking them away puts it back
to where it was, over the same width that it went when they were shown (`dismissed_showCandidates`,
`dismissal_showCandidates`). Every event takes them away before it does anything else, so none of
them can tell whether there were any (`showCandidates_transparent`). -/

namespace Promptline.Edit

open Terminal Unicode

section Shown

variable {e : Editor} (hmode : e.mode = .input) (hline : e.line.WellFormed) (grid : Grid)
include hmode hline

/-- Taking away what was shown gives back the editor. -/
theorem dismissed_showCandidates : dismissed (showCandidates grid e).editor = e := by
  rw [editor_showCandidates]
  show { e with mode := .input, line := e.line.moveToEnd.move (-e.line.distanceToEnd) } = e
  rw [hline.move_moveToEnd, ← hmode]

omit hmode in
/-- What takes away what was shown moves the cursor back over all that stood behind it. -/
theorem dismissal_showCandidates (event : Event) :
    dismissal (showCandidates grid e).editor event =
      wiping event (popupOf e.line grid) ++ backward e.line.widthAfter := by
  rw [editor_showCandidates]
  show wiping event (popupOf e.line grid) ++
      backward (e.line.moveToEnd.widthBefore e.line.distanceToEnd) = _
  rw [hline.widthBefore_moveToEnd]

/-- Acting on a key while candidates are shown is acting on it as if there were none, once they are
    taken away. -/
theorem applyKey_showCandidates (event : Event) :
    (applyKey event (showCandidates grid e).editor).value = (applyKey event e).value ∧
      (applyKey event (showCandidates grid e).editor).editor = (applyKey event e).editor ∧
      (applyKey event).written (showCandidates grid e).editor =
        wiping event (popupOf e.line grid) ++ backward e.line.widthAfter ++
          (applyKey event).written e := by
  have hdismissed : dismissed e = e := dismissed_eq_self hmode
  have hdismissal : dismissal e event = [] := by
    rw [dismissal, hmode]
  refine ⟨?_, ?_, ?_⟩
  · rw [value_applyKey, value_applyKey, dismissed_showCandidates hmode hline, hdismissed]
  · rw [editor_applyKey, editor_applyKey, dismissed_showCandidates hmode hline, hdismissed]
  · rw [written_applyKey, written_applyKey, dismissed_showCandidates hmode hline, hdismissed,
      dismissal_showCandidates hline, hdismissal, List.nil_append]

/-- **Candidates leave no trace.** Whatever the line and wherever its cursor, on a terminal that
    takes every write: once candidates were shown, an event has the outcome, and leaves the editor,
    that it would have had and left without them, and writes the same behind what takes them away.
    What is to be completed next is the same too. The cursor of the terminal goes back, when they
    are taken away, over the width by which it went forward when they were shown, and does not move
    either time if that is zero. -/
theorem showCandidates_transparent (files : FileTree) :
    let shown := (finishCompletion (.candidates grid)).run e .working
    shown.output =
        forward e.line.widthAfter ++
          (rowsBelow grid.rows ++ (Event.cursorPreviousLine (columns grid.rowCount)).encode ++
            forward (promptWidth e.prompt + displayWidth e.line.text)) ∧
      (∀ event, event ≠ .tab →
        let after := (apply files event).run shown.editor .working
        let without := (apply files event).run e .working
        after.value = without.value ∧ after.editor = without.editor ∧
          after.output =
            wiping event (popupOf e.line grid) ++ backward e.line.widthAfter ++
              without.output) ∧
      (prepareCompletion.run shown.editor .working).value =
        (prepareCompletion.run e .working).value ∧
      (prepareCompletion.run shown.editor .working).editor = e ∧
      (prepareCompletion.run shown.editor .working).output =
        wiping .tab (popupOf e.line grid) ++ backward e.line.widthAfter := by
  intro shown
  have hshown : shown.editor = (showCandidates grid e).editor :=
    run_working_editor (showCandidates grid) e
  have hdismissed : dismissed e = e := by
    rw [dismissed, hmode]
  rw [hshown]
  refine ⟨?_, fun event htab => ?_, ?_, ?_, ?_⟩
  · have houtput : shown.output = (showCandidates grid).written e :=
      run_working_output (showCandidates grid) e
    rw [houtput, written_showCandidates]
    simp only [List.append_assoc]
  · obtain ⟨hvalue, heditor, hwritten⟩ := applyKey_showCandidates hmode hline grid event
    have hkey : apply files event = applyKey event := if_neg htab
    simp only [run_working_value, run_working_editor, run_working_output, hkey]
    exact ⟨congrArg some hvalue, heditor, hwritten⟩
  · rw [run_working_value, run_working_value, value_prepareCompletion, value_prepareCompletion,
      dismissed_showCandidates hmode hline, hdismissed]
  · rw [run_working_editor, editor_prepareCompletion, dismissed_showCandidates hmode hline]
  · rw [run_working_output, written_prepareCompletion, dismissal_showCandidates hline]

end Shown

/-- Two names below a line whose cursor has a letter with an accent behind it, of two characters
    and one column. A terminal of a new size erases more, and moves back as far. -/
theorem showCandidates_transparent_accent :
    let e : Editor :=
      { Editor.start ['>'] ⟨[], [], .tableOnly⟩ (.empty 10) (80, 24) with
        line := { text := ['\u4E16', 'e', '\u0301'], cursor := 1 } }
    let shown := (finishCompletion (.candidates ⟨[['a', ' ', 'b']], 2, 40⟩)).run e .working
    e.line.WellFormed ∧ e.line.widthAfter = 1 ∧
      shown.editor.line.cursor = 2 ∧
      ((apply .empty (.screenSize 40 24)).run shown.editor .working).editor =
        ((apply .empty (.screenSize 40 24)).run e .working).editor ∧
      ((apply .empty (.screenSize 40 24)).run shown.editor .working).output =
        Event.eraseToEnd.encode ++ (Event.cursorBackward 1).encode := by
  intro e shown
  have hline : e.line.cursor ≤ e.line.length := by decide +kernel
  obtain ⟨-, hevents, -⟩ := showCandidates_transparent (e := e) rfl hline
    ⟨[['a', ' ', 'b']], 2, 40⟩ .empty
  obtain ⟨-, heditor, houtput⟩ := hevents (.screenSize 40 24) (by decide)
  refine ⟨hline, by decide +kernel, by decide +kernel, heditor, houtput.trans ?_⟩
  decide +kernel

end Promptline.Edit
