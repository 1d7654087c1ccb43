import Promptline.Proofs.Editor.Input
import Promptline.Proofs.Editor.Reached
import Promptline.Proofs.Editor.Turns

set_option autoImplicit false

/-! # Browsing and coming back

The line that is being typed when browsing begins is kept as the draft, and comes back behind the
newest entry. Which line that is, is said here by following the editor event by event (`Browsed`):
the one that was there when an older line was last asked for with nothing selected, unless a line
has been entered or abandoned since. The history keeps exactly that line (`Browsed.draft`), through
all that is typed after browsing has come to its end again. So when a newer line is asked for with
nothing selected, the line of back then takes the place of the one that is there
(`Reached.newer_keeps_iff`). -/

namespace Promptline

open Terminal

/-! ## Walking through a history -/

namespace History

variable {h : History}

theorem nothingSelected_iff : h.nothingSelected = true ↔ h.cursor = h.length :=
  beq_iff_eq

/-- Where nothing is selected there is nothing newer, and the draft is found at each step. -/
theorem historySteps_newer (hnothing : h.nothingSelected = true) (text : List Char) (n : Nat)
    (selected : Option (List Char)) :
    Edit.historySteps .newer text n selected h =
      (if n = 0 then selected else h.draft <|> selected, h) := by
  have hnext : h.selectNext = (h.draft, h) :=
    if_neg (Nat.not_lt.2 (Nat.le_of_eq (nothingSelected_iff.1 hnothing).symm))
  induction n generalizing selected with
  | zero => rfl
  | succ n ih =>
      rw [Edit.historySteps_succ, Edit.historyStep, hnext, ih, if_neg (Nat.succ_ne_zero n)]
      cases h.draft <;> simp

theorem selectPrevious_eq (current : List Char) :
    h.selectPrevious current =
      (if h.cursor = 0 then none else h.entries[h.cursor - 1]?,
        { h with
          cursor := h.cursor - 1
          draft := if h.nothingSelected = true then some current else h.draft }) := by
  obtain ⟨entries, maxSize, cursor, draft⟩ := h
  simp only [selectPrevious, nothingSelected_iff]
  by_cases hnothing : cursor = length ⟨entries, maxSize, cursor, draft⟩
  · cases cursor <;> simp [if_pos hnothing]
  · cases cursor <;> simp [if_neg hnothing]

/-- The first step to what is older keeps the line that is shown then, if nothing was selected. The
    steps behind it find an entry selected, or, if there is none, keep the same line again. -/
theorem draft_historySteps_older (hcursor : h.cursor ≤ h.length) (text : List Char) (n : Nat)
    (selected : Option (List Char)) :
    (Edit.historySteps .older text n selected h).2.draft =
      if 0 < n ∧ h.nothingSelected = true then some (selected.getD text) else h.draft := by
  induction n generalizing selected h with
  | zero => rfl
  | succ n ih =>
      have hbehind : h.cursor - 1 ≤ h.length := Nat.le_trans (Nat.sub_le _ _) hcursor
      rw [Edit.historySteps_succ, Edit.historyStep, selectPrevious_eq]
      dsimp only
      rw [ih hbehind]
      simp only [nothingSelected_iff, Nat.succ_pos, true_and]
      by_cases hafter : 0 < n ∧ h.cursor - 1 = h.length
      · -- still nothing selected: there are no entries
        have hzero : h.cursor = 0 := by omega
        have hempty : h.cursor = h.length := by omega
        refine (if_pos hafter).trans ?_
        rw [if_pos hzero, if_pos hempty]
        rfl
      · exact if_neg hafter

/-- Steps to what is newer leave the draft as it is. -/
theorem draft_historySteps_newer (text : List Char) (n : Nat) (selected : Option (List Char)) :
    (Edit.historySteps .newer text n selected h).2.draft = h.draft := by
  have hnext : ∀ h : History, h.selectNext.2.draft = h.draft := by
    intro h
    unfold selectNext
    split <;> rfl
  induction n generalizing selected h with
  | zero => rfl
  | succ n ih =>
      rw [Edit.historySteps_succ, ih]
      exact hnext h

end History

/-! ## What an event does to the draft -/

/-- Whether an outcome ends browsing for good. -/
def Outcome.endsBrowsing : Outcome → Bool
  | line .. | interrupted => true
  | expanded _ | resized .. | endOfInput => false

/-- The line that was being typed when browsing began, after an event with an outcome: the line of
    now, if the event asks for an older one and nothing was selected, and none once the line was
    entered or abandoned. -/
def Editor.beganAfter (e : Editor) (event : Event) (outcome : Option Outcome)
    (began : Option (List Char)) : Option (List Char) :=
  match event with
  | .cursorUp n | .cursorPreviousLine n =>
    if 0 < n.toNat ∧ e.history.nothingSelected = true then some e.line.text else began
  | _ => if outcome.any Outcome.endsBrowsing then none else began

namespace Edit

variable (e : Editor)

theorem history_browse (direction : Direction) (n : Nat) :
    (browse direction n e).editor.history = (walked e direction n).2 := by
  rw [editor_browse]
  cases (walked e direction n).1 <;> rfl

theorem draft_handle (hcursor : e.history.cursor ≤ e.history.length) (event : Event) :
    (handle event e).editor.history.draft =
      e.beganAfter event (handle event e).value e.history.draft := by
  have holder : ∀ n, (browse .older n e).editor.history.draft =
      if 0 < n ∧ e.history.nothingSelected = true then some e.line.text else e.history.draft := by
    intro n
    rw [history_browse]
    exact History.draft_historySteps_older hcursor e.line.text n none
  have hnewer : ∀ n, (browse .newer n e).editor.history.draft = e.history.draft := by
    intro n
    rw [history_browse]
    exact History.draft_historySteps_newer e.line.text n none
  have hkept : ∀ (x : Edit Unit) [KeepsHistory x], (x e).editor.history.draft = e.history.draft :=
    fun x _ => congrArg History.draft (KeepsHistory.editor e)
  unfold handle
  cases event with
  | cursorUp n => exact holder n.toNat
  | cursorPreviousLine n => exact holder n.toNat
  | cursorDown n => exact hnewer n.toNat
  | cursorNextLine n => exact hnewer n.toNat
  | text t => exact hkept (typeText t)
  | backspace => exact hkept (eraseBehind .previous)
  | delete => exact hkept (eraseBehind .previous)
  | eraseLineToBegin => exact hkept (eraseBehind .toBegin)
  | eraseLineToEnd => exact hkept eraseToEnd
  | eraseLine => exact hkept eraseEverything
  | cursorForward n => exact hkept (goForward n.toNat)
  | cursorBackward n => exact hkept (goBackward n.toNat)
  | newline =>
      simp only [editor_bind, editor_pure, value_bind, value_pure, editor_enter, value_enter]
      by_cases hsame : expansion e = e.line.text
      · rw [if_pos hsame, if_pos hsame]
        rfl
      · rw [if_neg hsame, if_neg hsame]
        rfl
  | endOfTransmission =>
      simp only [editor_endInput, value_endInput, Editor.beganAfter]
      split <;> rfl
  | _ => rfl

/-- **One event.** What becomes of the draft is what becomes of the line that was being typed. -/
theorem draft_apply (files : FileTree) (hcursor : e.history.cursor ≤ e.history.length)
    (event : Event) :
    (apply files event e).editor.history.draft =
      e.beganAfter event (apply files event e).value e.history.draft := by
  have hhistory := history_dismissed e
  rw [value_apply, editor_apply]
  by_cases htab : event = .tab
  · rw [if_pos htab, if_pos htab, editor_completeWord, htab]
    exact congrArg History.draft ((KeepsHistory.editor _).trans hhistory)
  · have hhandle := draft_handle (dismissed e) (by rwa [hhistory]) event
    simp only [Editor.beganAfter, hhistory, text_dismissed] at hhandle
    rw [if_neg htab, if_neg htab, editor_applyKey]
    split <;> exact hhandle

/-- Where nothing is selected, a step to what is newer puts the draft in the line. -/
theorem editor_apply_newer (files : FileTree) (hnothing : e.history.nothingSelected = true)
    {event : Event} {n : UInt16} (hevent : event = .cursorDown n ∨ event = .cursorNextLine n) :
    (apply files event e).editor.history = e.history ∧
      (apply files event e).editor.line.text =
        if n.toNat = 0 then e.line.text else e.history.draft.getD e.line.text := by
  have hwalked : walked (dismissed e) .newer n.toNat =
      (if n.toNat = 0 then none else e.history.draft, e.history) := by
    rw [walked, history_dismissed, History.historySteps_newer hnothing]
    cases e.history.draft <;> rfl
  have hkey : (apply files event e).editor = (browse .newer n.toNat (dismissed e)).editor := by
    rw [editor_apply]
    rcases hevent with rfl | rfl
    · exact (if_neg nofun).trans (editor_applyKey e _)
    · exact (if_neg nofun).trans (editor_applyKey e _)
  rw [hkey, editor_browse, hwalked]
  by_cases hzero : n.toNat = 0
  · simp only [if_pos hzero]
    exact ⟨trivial, text_dismissed e⟩
  · simp only [if_neg hzero]
    cases e.history.draft with
    | none => exact ⟨rfl, text_dismissed e⟩
    | some line => exact ⟨rfl, rfl⟩

end Edit

/-! ## Calls -/

namespace Editor

open Edit

/-- The editors that calls lead to, starting with a history that keeps `limit` lines, whether the
    last call has prepared a completion, and the line that was being typed when browsing began, if
    it did. Terminals may fail: what counts for an event is how far the history got. -/
inductive Browsed (limit : Nat) : Bool → Option (List Char) → Editor → Prop
  | start (prompt : List Char) (settings : CompletionSettings) (size : UInt16 × UInt16) :
      Browsed limit false none (.start prompt settings (.empty limit) size)
  /-- An event after which the history is the one that the event leads to. -/
  | event {prepared : Bool} {began : Option (List Char)} {e e' : Editor}
      (before : Browsed limit prepared began e) (files : FileTree) (ev : Event)
      (stop : (apply files ev).Passes e e')
      (done : e'.history = (apply files ev e).editor.history) :
      Browsed limit false (e.beganAfter ev (apply files ev e).value began) e'
  /-- A call after which the history is the one from before. -/
  | other {prepared : Bool} {began : Option (List Char)} {e e' : Editor}
      (before : Browsed limit prepared began e) {c : Call} (allowed : c.Allowed prepared)
      (stop : c.edit.Passes e e') (same : e'.history = e.history) :
      Browsed limit false began e'
  /-- A completion that is prepared. -/
  | prepared {prepared : Bool} {began : Option (List Char)} {e : Editor}
      (before : Browsed limit prepared began e) (sink : Sink) :
      Browsed limit true began (Call.prepare.edit.run e sink).editor

instance keepsHistory_prepare : KeepsHistory Call.prepare.edit :=
  inferInstanceAs (KeepsHistory (prepareCompletion >>= fun _ => pure ()))

namespace Browsed

variable {limit : Nat} {prepared : Bool} {began : Option (List Char)} {e e' : Editor}

theorem reached (h : Browsed limit prepared began e) : Reached limit prepared e := by
  induction h with
  | start prompt settings size => exact .start prompt settings size
  | event _ files ev stop _ ih =>
      exact ih.stopped (c := .event files ev) trivial (passes_bind_pure.2 stop)
  | other _ allowed stop _ ih => exact ih.stopped allowed stop
  | prepared _ sink ih => exact ih.call (c := .prepare) trivial sink

/-- **What the history keeps** is the line that was being typed when browsing began. -/
theorem draft (h : Browsed limit prepared began e) : e.history.draft = began := by
  induction h with
  | start => rfl
  | event before files ev _ done ih =>
      have hcursor := before.reached.wellFormed.1.history.cursor
      rw [done, draft_apply _ files hcursor, ih]
  | other _ _ _ same ih => rw [same, ih]
  | prepared _ sink ih => rw [KeepsHistory.passes (passes_run _ _ sink), ih]

/-! Whatever is reached is reached in this way. -/

theorem of_event (h : Browsed limit prepared began e) {files : FileTree} {ev : Event}
    (stop : (apply files ev).Passes e e') : ∃ began', Browsed limit false began' e' := by
  rcases (turns_apply files ev).passes stop with same | done
  · exact ⟨began, h.other (c := .event files ev) trivial (passes_bind_pure.2 stop) same⟩
  · exact ⟨_, h.event files ev stop done⟩

/-- Events that are queued are taken one by one and acted on. -/
theorem of_applyAll {files : FileTree} {events : List Event} (h : Browsed limit false began e)
    (hqueue : e.queue = events) (stop : (applyAll files events).Passes e e') :
    ∃ began', Browsed limit false began' e' := by
  induction events generalizing e began with
  | nil =>
      rcases stop with rfl | hsave
      · exact ⟨began, h⟩
      · exact absurd hsave List.not_mem_nil
  | cons ev rest ih =>
      have hnext : (nextEvent e).editor = { e with queue := rest } := by
        simp [nextEvent, hqueue]
      have htaken : Browsed limit false began { e with queue := rest } := by
        refine h.other (c := .next) trivial (passes_bind_pure.2 ?_) rfl
        rw [← hnext]
        exact passes_editor nextEvent e
      rw [Edit.applyAll] at stop
      rcases stop.of_bind with hupdate | hrest
      · rcases hupdate with rfl | hsave
        · exact ⟨began, h⟩
        · obtain rfl := Effect.save.inj (List.mem_singleton.1 hsave)
          exact ⟨began, htaken⟩
      rcases hrest.of_bind with hevent | hlater
      · exact htaken.of_event hevent
      · have happlied := htaken.event files ev (passes_editor _ _) rfl
        exact ih happlied (queue_apply _ files ev) (passes_bind_pure.1 hlater)

/-- Bytes are decoded into the queue, and then acted on. -/
theorem of_processInput (h : Browsed limit prepared began e) {files : FileTree}
    {bytes : List UInt8} (stop : (processInput files bytes).Passes e e') :
    ∃ began', Browsed limit false began' e' := by
  have hqueued : ∀ e', (enqueue bytes).Passes e e' → Browsed limit false began e' :=
    fun e' hpass => h.other (c := .enqueue bytes) trivial (passes_bind_pure.2 hpass)
      (KeepsHistory.passes hpass)
  rcases stop.of_bind with hfirst | hrest
  · exact ⟨began, hqueued e' hfirst⟩
  · exact (hqueued _ (passes_editor _ e)).of_applyAll rfl hrest

theorem of_call (h : Browsed limit prepared began e) {c : Call} (allowed : c.Allowed prepared)
    (stop : c.edit.Passes e e') : ∃ began', Browsed limit false began' e' := by
  have hkeeps : KeepsHistory c.edit → ∃ began', Browsed limit false began' e' := fun _ =>
    ⟨began, h.other allowed stop (KeepsHistory.passes stop)⟩
  cases c with
  | input files bytes => exact h.of_processInput (passes_bind_pure.1 stop)
  | event files ev => exact h.of_event (passes_bind_pure.1 stop)
  | enqueue bytes => exact hkeeps (inferInstanceAs (KeepsHistory (enqueue bytes >>= _)))
  | next => exact hkeeps (inferInstanceAs (KeepsHistory (nextEvent >>= _)))
  | prompt => exact hkeeps (inferInstanceAs (KeepsHistory renderPrompt))
  | setPrompt text => exact hkeeps (.update fun _ => rfl)
  | prepare => exact hkeeps inferInstance
  | finish answer => exact hkeeps (inferInstanceAs (KeepsHistory (finishCompletion answer)))

end Browsed

/-- After any calls, whichever writes have failed, there is a line that was being typed when
    browsing began, or there is none. -/
theorem Reached.browsed {limit : Nat} {prepared : Bool} {e : Editor}
    (h : Reached limit prepared e) : ∃ began, Browsed limit prepared began e := by
  induction h with
  | start prompt settings size => exact ⟨none, .start prompt settings size⟩
  | @call prepared e _ c allowed sink ih =>
      obtain ⟨began, hbefore⟩ := ih
      cases c with
      | prepare => exact ⟨began, hbefore.prepared sink⟩
      | _ => exact hbefore.of_call allowed (passes_run _ e sink)
  | stopped _ allowed stop ih =>
      obtain ⟨began, hbefore⟩ := ih
      exact hbefore.of_call allowed stop

/-- **Asking for a newer line with nothing selected.** After any calls, whichever writes have
    failed, and for either key, on a terminal that takes every write: the line that was being typed
    when browsing began takes the place of the one that is there, and the history stays as it is. So
    the line is kept just if that one is the same, or browsing has not begun since the last line was
    entered or abandoned, or no step is taken. -/
theorem Reached.newer_keeps_iff {limit : Nat} {prepared : Bool} {e : Editor}
    (h : Reached limit prepared e) (hnothing : e.history.nothingSelected = true)
    (files : FileTree) {event : Event} {n : UInt16}
    (hevent : event = .cursorDown n ∨ event = .cursorNextLine n) :
    let after := ((apply files event).run e .working).editor
    ∃ began, Browsed limit prepared began e ∧ after.history = e.history ∧
      after.line.text = (if n.toNat = 0 then e.line.text else began.getD e.line.text) ∧
      (after.line.text = e.line.text ↔
        n.toNat = 0 ∨ ∀ line, began = some line → line = e.line.text) := by
  intro after
  obtain ⟨began, hbrowsed⟩ := h.browsed
  obtain ⟨hhistory, htext⟩ := editor_apply_newer e files hnothing hevent
  have hafter : after = (apply files event e).editor := run_working_editor _ e
  rw [hafter, hhistory, htext, hbrowsed.draft]
  refine ⟨began, hbrowsed, rfl, rfl, ?_⟩
  by_cases hzero : n.toNat = 0
  · rw [if_pos hzero]
    exact ⟨fun _ => .inl hzero, fun _ => rfl⟩
  · rw [if_neg hzero, or_iff_right hzero]
    cases began with
    | none => exact ⟨fun _ => nofun, fun _ => rfl⟩
    | some line =>
        refine ⟨fun hsame other hother => ?_, fun hsame => hsame line rfl⟩
        rwa [← Option.some.inj hother]

/-- A line is entered, another one typed, and the entry looked at: the other line is there again,
    and one more step leaves it. -/
theorem newer_keeps_restored_line :
    ∃ e, Reached 10 false e ∧ e.history.entries = [['l', 's']] ∧
      e.history.nothingSelected = true ∧ e.line.text = ['a'] ∧
      Browsed 10 false (some ['a']) e ∧
      ((apply .empty (.cursorDown 1)).run e .working).editor.line.text = e.line.text := by
  have hstart : Reached 10 _ _ := .start ['>'] ⟨[], [], .tableOnly⟩ (80, 24)
  have hentered := (hstart.event (.text ['l', 's'])).event .newline
  have hback := ((hentered.event (.text ['a'])).event (.cursorUp 1)).event (.cursorDown 2)
  obtain ⟨began, hbrowsed, _, _, hiff⟩ :=
    hback.newer_keeps_iff (by decide +kernel) .empty (n := 1) (.inl rfl)
  have hbegan : began = some ['a'] := by
    rw [← hbrowsed.draft]
    decide +kernel
  subst hbegan
  refine ⟨_, hback, by decide +kernel, by decide +kernel, by decide +kernel, hbrowsed,
    hiff.2 (.inr fun line hline => ?_)⟩
  rw [← Option.some.inj hline]
  decide +kernel

/-- What is typed after an older line was asked for, and none was there, is lost to the next step to
    what is newer. -/
theorem newer_discards_typed :
    ∃ e, Reached 10 false e ∧ e.history.nothingSelected = true ∧ e.line.text = ['a', 'b'] ∧
      ((apply .empty (.cursorDown 1)).run e .working).editor.line.text = ['a'] := by
  have hstart : Reached 10 _ _ := .start ['>'] ⟨[], [], .tableOnly⟩ (80, 24)
  have htyped := ((hstart.event (.text ['a'])).event (.cursorUp 1)).event (.text ['b'])
  exact ⟨_, htyped, by decide +kernel, by decide +kernel, by decide +kernel⟩

end Editor

end Promptline
