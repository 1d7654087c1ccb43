import Promptline.Proofs.Editor.Candidates
import Promptline.Proofs.Editor.Reached
import Promptline.Proofs.Editor.Resuming
import Promptline.Proofs.Editor.Typing

set_option autoImplicit false

/-! # Candidates that cannot be taken away

While candidates are shown, the cursor stands at the end of the line, and only what is remembered
about them says where it was (`ShownOver`). Taking them away forgets that before it writes anything,
and puts the cursor back behind its last write. So if one of these writes fails, the cursor is left
at the end, and what is typed next goes there: the place survives exactly if it was the end of the
line (`failed_dismissal_keeps_place_iff`). -/

namespace Promptline

open Terminal Unicode

namespace Editor

/-- Candidates are shown over a line: its cursor went to the end, and the way back is remembered. -/
structure ShownOver (e : Editor) (l : Line) (p : Popup) : Prop where
  mode : e.mode = .popup p
  line : e.line = l.moveToEnd
  distance : p.distance = l.distanceToEnd
  wellFormed : l.WellFormed

/-- Showing candidates shows them over the line that is there. -/
theorem shownOver_showCandidates {e : Editor} (h : e.line.WellFormed) (grid : Grid) :
    (Edit.showCandidates grid e).editor.ShownOver e.line (Edit.popupOf e.line grid) := by
  rw [Edit.editor_showCandidates]
  exact ⟨rfl, rfl, rfl, h⟩

/-- Whatever calls were made: where candidates are shown, they are shown over some line. -/
theorem Reached.exists_shownOver {limit : Nat} {prepared : Bool} {e : Editor}
    (h : Reached limit prepared e) {p : Popup} (hmode : e.mode = .popup p) :
    ∃ l, e.ShownOver l p := by
  obtain ⟨hcursor, hdistance, -⟩ := h.wellFormed.1.popup p hmode
  refine ⟨{ e.line with cursor := e.line.length - p.distance }, hmode, ?_, ?_, Nat.sub_le _ _⟩
  · have hend : e.line.cursor =
        e.line.length - p.distance + (e.line.length - (e.line.length - p.distance)) := by
      omega
    exact congrArg (fun cursor => { e.line with cursor }) hend
  · show p.distance = e.line.length - (e.line.length - p.distance)
    omega

end Editor

namespace Edit

open Editor

variable {e : Editor} {sink : Sink}

/-- An event that candidates do not go away for is not acted on any further. -/
theorem run_apply_of_dismissBefore (files : FileTree) {event : Event}
    (h : ((dismissBefore event).run e sink).value = none) :
    ((apply files event).run e sink).value = none ∧
      ((apply files event).run e sink).editor = ((dismissBefore event).run e sink).editor := by
  unfold apply
  by_cases htab : event = .tab
  · rw [if_pos htab]
    subst htab
    obtain ⟨hprepare, hprepared⟩ : (prepareCompletion.run e sink).value = none ∧
        (prepareCompletion.run e sink).editor = ((dismissBefore .tab).run e sink).editor :=
      run_bind_stopped h
    obtain ⟨hcomplete, hcompleted⟩ : ((completeWord files).run e sink).value = none ∧
        ((completeWord files).run e sink).editor = (prepareCompletion.run e sink).editor :=
      run_bind_stopped hprepare
    obtain ⟨hvalue, heditor⟩ := run_bind_stopped (f := fun _ => (pure none : Edit (Option Outcome)))
      hcomplete
    exact ⟨hvalue, heditor.trans (hcompleted.trans hprepared)⟩
  · rw [if_neg htab]
    exact run_bind_stopped h

/-- **A dismissal that fails loses the place, unless it is the end of the line.** Candidates are
    shown over a line, and a write fails while they are taken away for an event. The event fails,
    and whatever it was and whichever write it is, the editor is left without candidates and with
    the cursor at the end. So neither are they still shown nor is the cursor back, unless it was at
    the end; and once the terminal works again, text is put in at the end. -/
theorem failed_dismissal_keeps_place_iff {l : Line} {p : Popup} (hshown : e.ShownOver l p)
    (files : FileTree) {event : Event}
    (hfails : ((dismissBefore event).run e sink).value = none) :
    let failed := (apply files event).run e sink
    failed.value = none ∧ failed.editor = { e with mode := .input } ∧
      ((failed.editor.mode = .popup p ∨ failed.editor.line.cursor = l.cursor) ↔
        l.cursor = l.length) ∧
      ∀ s, ((apply files (.text s)).run failed.editor .working).editor.line =
        l.moveToEnd.insert s := by
  intro failed
  obtain ⟨hvalue, heditor⟩ := run_apply_of_dismissBefore files hfails
  have hleft : failed.editor = { e with mode := .input } :=
    heditor.trans (stopsAt_dismissBefore (stopsAt_run hfails))
  refine ⟨hvalue, hleft, ?_, fun s => ?_⟩
  · rw [hleft]
    show (Mode.input = .popup p ∨ e.line.cursor = l.cursor) ↔ _
    rw [hshown.line, hshown.wellFormed.cursor_moveToEnd]
    constructor
    · rintro (hmode | hcursor)
      · cases hmode
      · exact hcursor.symm
    · intro hend
      exact Or.inr hend.symm
  · have hinput : failed.editor.mode = .input := by
      rw [hleft]
    rw [run_working_editor, (apply_text files failed.editor s).2, dismissed_eq_self hinput, hleft]
    exact congrArg (fun line => line.insert s) hshown.line

end Edit

namespace Editor

open Edit

/-- Two names that start alike, to be shown below the line. -/
def twoNames : Grid :=
  .ofNames [['a', 'b'], ['a', 'c']] 80

/-- Wherever calls lead, two names can be shown over the line that is there. -/
theorem Reached.show_twoNames {limit : Nat} {prepared : Bool} {e : Editor}
    (h : Reached limit prepared e) (hmode : e.mode = .input) :
    Reached limit false (showCandidates twoNames e).editor ∧
      (showCandidates twoNames e).editor.ShownOver e.line (popupOf e.line twoNames) := by
  have hready := h.call (c := .prepare) trivial .working
  have hlaid : (Completion.candidates twoNames).LaidOut := ⟨[['a', 'b'], ['a', 'c']], 80, rfl⟩
  have hshown := hready.call (c := .finish _) ⟨rfl, hlaid⟩ .working
  have hprepared : (Call.prepare.edit.run e .working).editor = e := by
    refine (run_map (x := prepareCompletion) (g := fun _ => ())).2.1.trans ?_
    rw [run_working_editor, editor_prepareCompletion, dismissed_eq_self hmode]
  have heditor : ((Call.finish (.candidates twoNames)).edit.run e .working).editor =
      (showCandidates twoNames e).editor :=
    run_working_editor (showCandidates twoNames) e
  rw [hprepared, heditor] at hshown
  exact ⟨hshown, shownOver_showCandidates h.wellFormed.1.line twoNames⟩

/-- Candidates are shown at the end of a line, and the terminal fails at the third of the writes
    that take them away for another look. The cursor is where it was. -/
theorem failed_dismissal_keeps_end :
    ∃ e l p failed, Reached 10 false e ∧ e.ShownOver l p ∧ l.text = ['x', ' ', 'a'] ∧
      ((apply .empty .tab).run e (.failingAfter 2 "terminal gone")).value = none ∧
      ((apply .empty .tab).run e (.failingAfter 2 "terminal gone")).editor = failed ∧
      failed.line.cursor = l.cursor ∧
      ((apply .empty (.text ['b'])).run failed .working).editor.line =
        l.moveToEnd.insert ['b'] := by
  have hstart : Reached 10 _ _ := .start ['>'] ⟨[], [], .tableOnly⟩ (80, 24)
  obtain ⟨hreached, hshown⟩ := (hstart.event (.text ['x', ' ', 'a'])).show_twoNames rfl
  obtain ⟨hvalue, hleft, hplace, hnext⟩ := failed_dismissal_keeps_place_iff hshown .empty
    (show ((dismissBefore .tab).run _ (.failingAfter 2 "terminal gone")).value = none by
      decide +kernel)
  have hend := hplace.2 (by decide +kernel)
  refine ⟨_, _, _, _, hreached, hshown, by decide +kernel, hvalue, rfl, ?_, hnext _⟩
  exact hend.resolve_left (by rw [hleft]; nofun)

/-- Candidates are shown over a line whose cursor stands inside it, and the terminal is gone when a
    letter is typed. No candidates are shown then, the cursor is at the end, and so is the letter
    that is typed once the terminal is back. -/
theorem failed_dismissal_moves_cursor :
    ∃ e l p failed, Reached 10 false e ∧ e.ShownOver l p ∧
      l = { text := ['x', ' ', 'a', ' ', 'y'], cursor := 3 } ∧
      ((apply .empty (.text ['z'])).run e (.failingAfter 0 "terminal gone")).value = none ∧
      ((apply .empty (.text ['z'])).run e (.failingAfter 0 "terminal gone")).editor = failed ∧
      failed.mode = .input ∧ failed.line.cursor = 5 ∧
      ((apply .empty (.text ['z'])).run failed .working).editor.line.text =
        ['x', ' ', 'a', ' ', 'y', 'z'] := by
  have hstart : Reached 10 _ _ := .start ['>'] ⟨[], [], .tableOnly⟩ (80, 24)
  have hmoved := (hstart.event (.text ['x', ' ', 'a', ' ', 'y'])).event (.cursorBackward 2)
  obtain ⟨hreached, hshown⟩ := hmoved.show_twoNames rfl
  exact ⟨_, _, _, _, hreached, hshown, by decide +kernel, by decide +kernel, rfl,
    by decide +kernel, by decide +kernel, by decide +kernel⟩

end Editor

end Promptline
