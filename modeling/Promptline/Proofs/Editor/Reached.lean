import Promptline.Proofs.Editor.WellFormed
import Promptline.Proofs.Line.Slices

set_option autoImplicit false

/-! # Editors that calls can reach

From a new editor, calls are made one after another in any order, and the terminal may fail at any
write of any of them, or behind it. A completion is put to use only right after it was prepared for,
whether or not a write of that failed. Whatever is reached is well formed, and so is every editor
that the next call goes through (`Reached.passes_wellFormed`): no cursor is ever beyond the end, no
difference of places is negative, and no stretch of the line that is taken is out of order or cuts a
character. -/

namespace Promptline.Editor

open Terminal Unicode

/-! ## Calls -/

/-- What can be asked of an editor. -/
inductive Call where
  /-- To decode bytes and to act on all that is queued. -/
  | input (files : FileTree) (bytes : List UInt8)
  /-- To decode bytes into the queue. -/
  | enqueue (bytes : List UInt8)
  /-- To take an event from the queue. -/
  | next
  /-- To act on an event. -/
  | event (files : FileTree) (event : Event)
  | prompt
  | setPrompt (prompt : List Char)
  /-- To say what is to be completed. -/
  | prepare
  /-- To put a completion to use. -/
  | finish (answer : Completion)

namespace Call

/-- What a call does, whatever it yields. -/
def edit : Call → Edit Unit
  | input files bytes => do let _ ← Edit.processInput files bytes
  | enqueue bytes => do let _ ← Edit.enqueue bytes
  | next => do let _ ← Edit.nextEvent
  | event files ev => do let _ ← Edit.apply files ev
  | prompt => Edit.renderPrompt
  | setPrompt text => Edit.setPrompt text
  | prepare => do let _ ← Edit.prepareCompletion
  | finish answer => Edit.finishCompletion answer

/-- Whether the next call may put a completion to use. -/
def prepares : Call → Bool
  | prepare => true
  | _ => false

/-- A completion is put to use right after it was prepared for, and candidates are a grid. -/
def Allowed (prepared : Bool) : Call → Prop
  | finish answer => prepared = true ∧ answer.LaidOut
  | _ => True

end Call

/-- The editors that calls lead to, starting with a history that keeps `limit` lines, and whether
    the last call has prepared a completion. -/
inductive Reached (limit : Nat) : Bool → Editor → Prop
  | start (prompt : List Char) (settings : CompletionSettings) (size : UInt16 × UInt16) :
      Reached limit false (.start prompt settings (.empty limit) size)
  /-- A call that writes to some terminal, which may fail. -/
  | call {prepared : Bool} {e : Editor} (before : Reached limit prepared e) {c : Call}
      (allowed : c.Allowed prepared) (sink : Sink) :
      Reached limit c.prepares (c.edit.run e sink).editor
  /-- A call that stops for another reason: what was written is not delivered. -/
  | stopped {prepared : Bool} {e e' : Editor} (before : Reached limit prepared e) {c : Call}
      (allowed : c.Allowed prepared) (stop : c.edit.Passes e e') :
      Reached limit false e'

/-- An event that is acted on leads on. -/
theorem Reached.event {limit : Nat} {prepared : Bool} {e : Editor} (h : Reached limit prepared e)
    (ev : Event) : Reached limit false ((Call.event .empty ev).edit.run e .working).editor :=
  h.call (c := .event .empty ev) trivial .working

/-! ## What calls keep -/

/-- The mode is the first thing that is saved when candidates are taken away. -/
theorem effects_dismissBefore {e : Editor} {p : Popup} (hmode : e.mode = .popup p)
    (event : Event) : ∃ rest, (Edit.dismissBefore event e).effects =
      .save { e with mode := .input } :: rest := by
  unfold Edit.dismissBefore
  rw [Edit.current_bind]
  simp only [hmode]
  exact ⟨_, rfl⟩

theorem Call.prepare_settles (limit : Nat) :
    Edit.Triple (Settled limit) (WellFormed limit) (Settled limit) Call.prepare.edit :=
  Edit.prepareCompletion_settles.bind fun _ => Edit.Triple.pure ()

/-- Nothing is saved or written besides what takes candidates away. -/
theorem Call.effects_prepare (e : Editor) :
    (Call.prepare.edit e).effects = (Edit.dismissBefore .tab e).effects := by
  show ((Edit.dismissBefore .tab e).effects ++ ([] ++ [])) ++ [] = _
  simp

section Calls

variable {limit : Nat} {prepared : Bool} {e e' : Editor}

/-- Preparing a completion takes candidates away before anything is written, so that none are shown
    wherever it stops. -/
theorem WellFormed.settled_run_prepare (h : e.WellFormed limit) (sink : Sink) :
    (Call.prepare.edit.run e sink).editor.Settled limit := by
  have hprepare := Call.prepare_settles limit
  cases hmode : e.mode with
  | input => exact hprepare.passes h (h.settled hmode) (Edit.passes_run _ e sink)
  | popup p =>
      have hfirst : Settled limit { e with mode := .input } := ⟨h.line, h.history, rfl⟩
      obtain ⟨rest, hrest⟩ : ∃ rest, (Call.prepare.edit e).effects =
          .save { e with mode := .input } :: rest := by
        obtain ⟨rest, hrest⟩ := effects_dismissBefore hmode .tab
        refine ⟨rest, ?_⟩
        rw [Call.effects_prepare, hrest]
      have hrun : (Call.prepare.edit.run e sink).editor =
          (performAll { e with mode := .input } sink rest).editor := by
        rw [Edit.run, hrest]
        rfl
      rw [hrun]
      rcases Edit.performAll_passes { e with mode := .input } sink rest with heq | hsave
      · rw [heq]
        exact hfirst
      · refine (hprepare e h).1 _ ?_
        rw [hrest]
        exact List.mem_cons_of_mem _ hsave

/-- **One call.** Wherever it stops, it leaves a well-formed editor. -/
theorem WellFormed.call {c : Call} (h : e.WellFormed limit) (hc : c.Allowed prepared)
    (hprepared : prepared = true → e.mode = .input) (hpass : c.edit.Passes e e') :
    e'.WellFormed limit := by
  have hkeeps : Edit.Keeps limit c.edit → e'.WellFormed limit := fun hcall =>
    hcall.passes h h hpass
  cases c with
  | input files bytes => exact hkeeps ((Edit.processInput_keeps files bytes).bind fun _ => .pure ())
  | enqueue bytes => exact hkeeps ((Edit.enqueue_keeps bytes).bind fun _ => .pure ())
  | next => exact hkeeps (Edit.nextEvent_keeps.bind fun _ => .pure ())
  | event files ev => exact hkeeps ((Edit.apply_keeps files ev).bind fun _ => .pure ())
  | prompt => exact hkeeps Edit.renderPrompt_keeps
  | setPrompt text =>
      exact hkeeps (Edit.update_keeps (fun _ => rfl) (fun _ => rfl) (fun _ => rfl))
  | prepare => exact (Call.prepare_settles limit).wellFormed.passes h h hpass
  | finish answer =>
      have hsettled : e.Settled limit := h.settled (hprepared hc.1)
      exact (Edit.finishCompletion_wellFormed hc.2).passes hsettled h hpass

/-- **Any calls.** The editor between two of them is well formed, and shows no candidates if a
    completion has just been prepared. -/
theorem Reached.wellFormed (h : Reached limit prepared e) :
    e.WellFormed limit ∧ (prepared = true → e.mode = .input) := by
  induction h with
  | start prompt settings size =>
      exact ⟨(settled_start limit prompt settings size).wellFormed, fun _ => rfl⟩
  | @call prepared e _ c allowed sink ih =>
      obtain ⟨hformed, hprepared⟩ := ih
      refine ⟨hformed.call allowed hprepared (Edit.passes_run c.edit e sink), ?_⟩
      intro hprepares
      cases c with
      | prepare => exact (hformed.settled_run_prepare sink).input
      | _ => cases hprepares
  | stopped _ allowed stop ih =>
      obtain ⟨hformed, hprepared⟩ := ih
      exact ⟨hformed.call allowed hprepared stop, nofun⟩

/-- **Whatever calls go through is well formed.** After any calls, at any write at which the next
    one may stop: the cursor is in the line, the place of browsing is in the history, and the
    history within its limit. Where candidates are shown, the cursor is at the end, its way back is
    not longer than the line, and there is a row to erase. So the word at the cursor does not start
    behind it, and all stretches of the line that can be taken exist. -/
theorem Reached.passes_wellFormed (h : Reached limit prepared e) {c : Call}
    (hc : c.Allowed prepared) (hpass : c.edit.Passes e e') :
    e'.line.cursor ≤ e'.line.length ∧
      e'.history.cursor ≤ e'.history.length ∧ e'.history.length ≤ max 1 limit ∧
      (∀ p, e'.mode = .popup p →
        e'.line.cursor = e'.line.length ∧ p.distance ≤ e'.line.length ∧ 1 ≤ p.rows) ∧
      e'.line.wordStart ≤ e'.line.cursor ∧ e'.line.Sliced := by
  obtain ⟨hformed, hprepared⟩ := h.wellFormed
  have hleft : e'.WellFormed limit := hformed.call hc hprepared hpass
  refine ⟨hleft.line, hleft.history.cursor, hleft.history.length, hleft.popup, ?_, ?_⟩
  · exact e'.line.wordStart_le_cursor
  · exact e'.line.sliced

end Calls

/-- A word is typed, the cursor put in front of its last letter, and candidates are shown. Then the
    terminal fails while the prompt is shown once more. -/
theorem passes_shown_candidates :
    ∃ (e e' : Editor) (c : Call),
      Reached 1 false e ∧ c.Allowed false ∧ c.edit.Passes e e' ∧
        e'.line.text = ['l', 's'] ∧ e'.mode = .popup { distance := 1, rows := 1 } ∧
        e'.line.cursor ≤ e'.line.length ∧
        e'.history.cursor ≤ e'.history.length ∧ e'.history.length ≤ max 1 1 ∧
        (∀ p, e'.mode = .popup p →
          e'.line.cursor = e'.line.length ∧ p.distance ≤ e'.line.length ∧ 1 ≤ p.rows) ∧
        e'.line.wordStart ≤ e'.line.cursor ∧ e'.line.Sliced := by
  have hstart : Reached 1 _ _ := .start ['>'] ⟨[], [], .tableOnly⟩ (80, 24)
  have htyped := hstart.call (c := .event .empty (.text ['l', 's'])) trivial .working
  have hmoved := htyped.call (c := .event .empty (.cursorBackward 1)) trivial .working
  have hready := hmoved.call (c := .prepare) trivial .working
  have hgrid : (Completion.candidates (Grid.ofNames [['l', 's'], ['l', 's', 'o']] 80)).LaidOut :=
    ⟨[['l', 's'], ['l', 's', 'o']], 80, rfl⟩
  have hshown := hready.call (c := .finish _) ⟨rfl, hgrid⟩ .working
  have hpass := fun e => Edit.passes_run Call.prompt.edit e (.failingAfter 1 "gone")
  exact ⟨_, _, .prompt, hshown, trivial, hpass _, by decide +kernel, by decide +kernel,
    hshown.passes_wellFormed (c := .prompt) trivial (hpass _)⟩

end Promptline.Editor
