import Promptline.Proofs.Editor.Dialogue
import Promptline.Proofs.Editor.Triples
import Promptline.Proofs.Editor.WellFormed

set_option autoImplicit false

/-! # Where an edit may stop

A write that fails stops an edit, and what is left is the editor that was current at that write.
These are fewer editors than an edit saves: what is saved behind the last write is never left
half done. For every key they are listed here, as the editors that it *stops at*.

Keys that edit the line save it before they draw it. Those that lead to another line write all that
they have to write before they save it. So whichever write fails, the text is the old one or the
new one, and nothing else that the user could miss is touched (`stopsAt_handle`,
`stopsAt_apply`). -/

namespace Promptline

open Terminal Unicode

/-- Whether an event leads from the line to another one: it enters or abandons the line, or browses
    in the history. -/
def Terminal.Event.leavesLine : Event → Bool
  | .newline | .interrupt => true
  | .cursorUp _ | .cursorDown _ | .cursorPreviousLine _ | .cursorNextLine _ => true
  | _ => false

def Action.leavesLine : Action → Bool
  | .event _ ev => ev.leavesLine
  | .completion _ => false

namespace Edit

variable {α β : Type}

/-! ## Editors that are current at a write -/

/-- The editors that are current at the writes among effects, in order. -/
def currentAtWrites (e : Editor) : List Effect → List Editor
  | [] => []
  | .save e' :: rest => currentAtWrites e' rest
  | .note _ :: rest => currentAtWrites e rest
  | .print _ :: rest => e :: currentAtWrites e rest
  | .control _ :: rest => e :: currentAtWrites e rest

theorem currentAtWrites_append (e : Editor) (xs ys : List Effect) :
    currentAtWrites e (xs ++ ys) = currentAtWrites e xs ++ currentAtWrites (lastSaved e xs) ys := by
  induction xs generalizing e with
  | nil => rfl
  | cons x rest ih =>
      cases x with
      | save e' => exact ih e'
      | note r => exact ih e
      | print s => exact congrArg (e :: ·) (ih e)
      | control event => exact congrArg (e :: ·) (ih e)

/-- An edit stops at an editor if that one is current at one of its writes. -/
def StopsAt (x : Edit α) (e e' : Editor) : Prop :=
  e' ∈ currentAtWrites e (x e).effects

theorem performAll_stops {e : Editor} {sink : Sink} {effects : List Effect}
    (h : (performAll e sink effects).value = none) :
    (performAll e sink effects).editor ∈ currentAtWrites e effects := by
  induction effects generalizing e sink with
  | nil => exact absurd h nofun
  | cons x rest ih =>
      cases x with
      | save e' => exact ih h
      | note r => exact ih h
      | print s =>
          simp only [performAll] at h ⊢
          split
          · exact List.mem_cons_self
          · next sink' haccept =>
              simp only [haccept] at h
              exact List.mem_cons_of_mem _ (ih h)
      | control event =>
          simp only [performAll] at h ⊢
          split
          · exact List.mem_cons_self
          · next sink' haccept =>
              simp only [haccept] at h
              exact List.mem_cons_of_mem _ (ih h)

/-- Whichever write fails, the editor that is left is one that the edit stops at. -/
theorem stopsAt_run {x : Edit α} {e : Editor} {sink : Sink} (h : (x.run e sink).value = none) :
    x.StopsAt e (x.run e sink).editor :=
  performAll_stops (Option.map_eq_none_iff.1 h)

section Combinators

variable (e e' : Editor)

@[simp]
theorem stopsAt_pure (a : α) : ¬ (pure a : Edit α).StopsAt e e' :=
  List.not_mem_nil

/-- One edit and the next stop where the first does, or where the next does behind it. -/
@[simp]
theorem stopsAt_bind (x : Edit α) [hx : Sound x] (f : α → Edit β) :
    (x >>= f).StopsAt e e' ↔
      x.StopsAt e e' ∨ (f (x e).value).StopsAt (x e).editor e' := by
  show e' ∈ currentAtWrites e ((x e).effects ++ (f (x e).value (x e).editor).effects) ↔ _
  rw [currentAtWrites_append, hx.saved, List.mem_append]
  rfl

/-- Looking at the editor is no place to stop. -/
@[simp high]
theorem stopsAt_current_bind (f : Editor → Edit β) :
    (current >>= f).StopsAt e e' ↔ (f e).StopsAt e e' :=
  Iff.rfl

@[simp]
theorem stopsAt_update (f : Editor → Editor) : ¬ (update f).StopsAt e e' :=
  List.not_mem_nil

@[simp]
theorem stopsAt_saveLine (l : Line) : ¬ (saveLine l).StopsAt e e' :=
  List.not_mem_nil

@[simp]
theorem stopsAt_saveHistory (h : History) : ¬ (saveHistory h).StopsAt e e' :=
  List.not_mem_nil

@[simp]
theorem stopsAt_saveMode (m : Mode) : ¬ (saveMode m).StopsAt e e' :=
  List.not_mem_nil

@[simp]
theorem stopsAt_note (r : Log.Record) : ¬ (note r).StopsAt e e' :=
  List.not_mem_nil

@[simp]
theorem stopsAt_all_note {γ : Type} (f : γ → Log.Record) (rs : List γ) :
    ¬ (all (rs.map fun r => note (f r))).StopsAt e e' := by
  induction rs with
  | nil => exact stopsAt_pure e e' ()
  | cons r rest ih =>
      rw [List.map_cons, all, stopsAt_bind]
      exact not_or_intro (stopsAt_note e e' _) ih

@[simp]
theorem stopsAt_all_map_note (rs : List Log.Record) : ¬ (all (rs.map note)).StopsAt e e' :=
  stopsAt_all_note e e' id rs

end Combinators

/-- Edits that save nothing stop at the editor that they start with. -/
theorem stopsAt_writes {x : Edit α} [hx : Writes x] {e e' : Editor} (h : x.StopsAt e e') :
    e' = e := by
  have hsaves := hx.saves e
  unfold StopsAt at h
  generalize (x e).effects = effects at h hsaves
  induction effects with
  | nil => exact absurd h List.not_mem_nil
  | cons y rest ih =>
      have hrest : ∀ e', .save e' ∉ rest := fun e' hmem => hsaves e' (List.mem_cons_of_mem _ hmem)
      cases y with
      | save e'' => exact absurd List.mem_cons_self (hsaves e'')
      | note r => exact ih h hrest
      | print s => exact (List.mem_cons.1 h).elim id fun hmem => ih hmem hrest
      | control event => exact (List.mem_cons.1 h).elim id fun hmem => ih hmem hrest

/-! ## Where each key stops -/

section Keys

variable {e e' : Editor}

/-- Saving a line and writing then stops with that line. -/
theorem stopsAt_saveLine_bind {l : Line} {x : Edit α} [Writes x]
    (h : (do saveLine l; x : Edit α).StopsAt e e') : e' = { e with line := l } := by
  rw [stopsAt_bind] at h
  rcases h with h | h
  · exact absurd h (stopsAt_saveLine e e' l)
  · exact stopsAt_writes h

/-- Typing stops with the text put in. -/
theorem stopsAt_typeText {s : List Char} (h : (typeText s).StopsAt e e') :
    e' = (typeText s e).editor := by
  rw [editor_typeText]
  rw [typeText, stopsAt_current_bind] at h
  exact stopsAt_saveLine_bind h

/-- Erasing stops with the text erased, however the line is drawn then. -/
theorem stopsAt_erase {erasure : Line.Erasure} {draw : Editor → List Char → Line → Edit Unit}
    (hdraw : ∀ e removed line, Writes (draw e removed line))
    (h : (do
      let e ← current
      match e.line.erase? erasure with
      | none => pure ()
      | some (removed, line) =>
        saveLine line
        draw e removed line : Edit Unit).StopsAt e e') :
    ∃ removed line, e.line.erase? erasure = some (removed, line) ∧ e' = { e with line } := by
  rw [stopsAt_current_bind] at h
  cases hfound : e.line.erase? erasure with
  | none =>
      simp only [hfound, stopsAt_pure] at h
  | some found =>
      simp only [hfound] at h
      have hwrites : Writes (draw e found.1 found.2) := hdraw e found.1 found.2
      exact ⟨found.1, found.2, rfl, stopsAt_saveLine_bind h⟩

theorem stopsAt_eraseBehind {erasure : Line.Erasure} (h : (eraseBehind erasure).StopsAt e e') :
    e' = (eraseBehind erasure e).editor := by
  obtain ⟨removed, line, hfound, hleft⟩ := stopsAt_erase (fun _ _ _ => inferInstance) h
  rw [editor_eraseBehind, hfound]
  exact hleft

theorem stopsAt_eraseToEnd (h : eraseToEnd.StopsAt e e') : e' = (eraseToEnd e).editor := by
  obtain ⟨removed, line, hfound, hleft⟩ := stopsAt_erase (fun _ _ _ => inferInstance) h
  rw [editor_eraseToEnd, hfound]
  exact hleft

theorem stopsAt_eraseEverything (h : eraseEverything.StopsAt e e') :
    e' = (eraseEverything e).editor := by
  obtain ⟨removed, line, hfound, hleft⟩ := stopsAt_erase (fun _ _ _ => inferInstance) h
  rw [editor_eraseEverything, hfound]
  exact hleft

/-- Moving the cursor stops with the cursor moved. -/
theorem stopsAt_goBackward {n : Nat} (h : (goBackward n).StopsAt e e') :
    e' = (goBackward n e).editor := by
  rw [goBackward, stopsAt_current_bind] at h
  rw [editor_goBackward]
  dsimp only at h
  by_cases hcount : min n e.line.cursor = 0
  · rw [if_pos hcount] at h
    exact absurd h (stopsAt_pure e e' ())
  · rw [if_neg hcount] at h ⊢
    exact stopsAt_saveLine_bind h

theorem stopsAt_goForward {n : Nat} (h : (goForward n).StopsAt e e') :
    e' = (goForward n e).editor := by
  rw [editor_goForward]
  rw [goForward, stopsAt_current_bind] at h
  exact stopsAt_saveLine_bind h

/-- Drawing another line stops with the line that is still there. -/
theorem stopsAt_redrawLine {text : List Char} (h : (redrawLine text).StopsAt e e') : e' = e := by
  rw [redrawLine, stopsAt_current_bind] at h
  simp only [stopsAt_bind, stopsAt_saveLine, or_false, editor_moveForward, editor_moveBackward,
    editor_control] at h
  rcases h with h | h | h | h
  · exact stopsAt_writes h
  · exact stopsAt_writes h
  · exact stopsAt_writes h
  · exact stopsAt_writes h

/-- Browsing stops with the place of browsing moved, and the line still there. -/
theorem stopsAt_browse {direction : Direction} {n : Nat} (h : (browse direction n).StopsAt e e') :
    e' = { e with history := (walked e direction n).2 } := by
  rw [browse, stopsAt_current_bind, stopsAt_bind] at h
  rcases h with h | h
  · exact absurd h (stopsAt_saveHistory e e' _)
  split at h
  · exact absurd h (stopsAt_pure _ e' ())
  · exact stopsAt_redrawLine h

theorem stopsAt_showExpanded {text : List Char} (h : (showExpanded text).StopsAt e e') :
    e' = e := by
  simp only [showExpanded, stopsAt_bind, stopsAt_note, stopsAt_pure, or_false] at h
  exact stopsAt_redrawLine h

theorem stopsAt_submit (h : submit.StopsAt e e') : e' = e := by
  rw [submit, stopsAt_bind, stopsAt_current_bind] at h
  simp only [stopsAt_bind, stopsAt_saveLine, stopsAt_saveHistory, stopsAt_note, stopsAt_pure,
    or_false] at h
  exact stopsAt_writes h

/-- Entering a line stops with the line still there; its cursor may have gone to the end. -/
theorem stopsAt_enter (h : enter.StopsAt e e') :
    e' = e ∨ e' = { e with line := e.line.moveToEnd } := by
  rw [enter, stopsAt_current_bind, stopsAt_bind, stopsAt_bind, stopsAt_current_bind,
    stopsAt_bind] at h
  rcases h with h | h | h | h
  · exact Or.inl (stopsAt_writes h)
  · exact absurd h (stopsAt_saveLine _ e' _)
  · exact absurd h (stopsAt_all_map_note _ e' _)
  refine Or.inr ?_
  simp only [editor_moveForward, editor_saveLine, editor_all_map_note] at h
  split at h
  · exact stopsAt_submit h
  · exact stopsAt_showExpanded h

/-- Abandoning a line stops with the line still there. -/
theorem stopsAt_interrupt (h : interrupt.StopsAt e e') : e' = e := by
  rw [interrupt, stopsAt_bind, stopsAt_current_bind] at h
  simp only [stopsAt_bind, stopsAt_saveLine, stopsAt_saveHistory, stopsAt_pure, or_false] at h
  exact stopsAt_writes h

/-! ## Candidates and completion -/

/-- Putting the cursor back stops before it is put back. -/
theorem stopsAt_restoreCursor {p : Popup} (h : (restoreCursor p).StopsAt e e') : e' = e := by
  rw [restoreCursor, stopsAt_current_bind, stopsAt_bind] at h
  rcases h with h | h
  · exact stopsAt_writes h
  · exact absurd h (stopsAt_saveLine _ e' _)

/-- Taking candidates away stops in the mode without them, the cursor not yet put back. -/
theorem stopsAt_dismissBefore {event : Event} (h : (dismissBefore event).StopsAt e e') :
    e' = { e with mode := .input } := by
  rw [dismissBefore, stopsAt_current_bind] at h
  split at h
  · exact absurd h (stopsAt_pure e e' ())
  · next p hmode =>
      rw [stopsAt_bind, editor_saveMode] at h
      rcases h with h | h
      · exact absurd h (stopsAt_saveMode e e' _)
      dsimp only at h
      split at h
      · rw [stopsAt_bind, editor_control] at h
        exact h.elim stopsAt_writes stopsAt_restoreCursor
      · rw [stopsAt_bind, editor_eraseCandidates] at h
        exact h.elim stopsAt_writes stopsAt_restoreCursor

/-- Showing candidates stops with the line still there; its cursor may have gone to the end. -/
theorem stopsAt_showCandidates {grid : Grid} (h : (showCandidates grid).StopsAt e e') :
    e' = e ∨ e' = { e with line := e.line.moveToEnd } := by
  rw [showCandidates, stopsAt_current_bind] at h
  simp only [stopsAt_bind, stopsAt_saveLine, stopsAt_saveMode, stopsAt_note, false_or, or_false,
    editor_moveForward, editor_saveLine, editor_rows, editor_control] at h
  rcases h with h | h | h | h
  · exact Or.inl (stopsAt_writes h)
  · exact Or.inr (stopsAt_writes h)
  · exact Or.inr (stopsAt_writes h)
  · exact Or.inr (stopsAt_writes h)

/-- Putting in the only completion stops before it is in the line, or behind that. -/
theorem stopsAt_complete {replacement : List Char} (h : (complete replacement).StopsAt e e') :
    e' = e ∨ e' = (complete replacement e).editor := by
  rw [editor_complete]
  rw [complete, stopsAt_current_bind, stopsAt_bind, editor_moveBackward] at h
  rcases h with h | h
  · exact Or.inl (stopsAt_writes h)
  · exact Or.inr (stopsAt_saveLine_bind h)

/-- Looking for completions writes nothing. -/
theorem not_stopsAt_runCompletion (files : FileTree) (request : CompletionRequest) :
    ¬ (runCompletion files request).StopsAt e e' := by
  rw [runCompletion, stopsAt_current_bind]
  simp only [stopsAt_bind, stopsAt_update, stopsAt_all_map_note, stopsAt_pure, or_self,
    not_false_eq_true]

end Keys

/-! ## What is left -/

/-- What may be left, if a write fails, of an edit that leads from one editor to another. `leaves`
    says that the line that is there afterwards is another one, not an edited one. -/
structure Halfway (leaves : Bool) (e done e' : Editor) : Prop where
  entries : e'.history.entries = e.history.entries
  queue : e'.queue = e.queue
  decoder : e'.decoder = e.decoder
  prompt : e'.prompt = e.prompt
  size : e'.size = e.size
  needsPrompt : e'.needsPrompt = e.needsPrompt
  text : e'.line.text = e.line.text ∨ leaves = false ∧ e'.line.text = done.line.text

namespace Halfway

variable {leaves : Bool} {e done e' : Editor}

/-- Nothing may have happened. -/
theorem of_eq (hleft : e' = e) : Halfway leaves e done e' := by
  rw [hleft]
  exact ⟨rfl, rfl, rfl, rfl, rfl, rfl, Or.inl rfl⟩

/-- The cursor may have gone to the end of the line. -/
theorem of_moveToEnd (hleft : e' = { e with line := e.line.moveToEnd }) :
    Halfway leaves e done e' := by
  rw [hleft]
  exact ⟨rfl, rfl, rfl, rfl, rfl, rfl, Or.inl rfl⟩

/-- The place of browsing may have moved. -/
theorem of_history {history : History} (hentries : history.entries = e.history.entries)
    (hleft : e' = { e with history }) : Halfway leaves e done e' := by
  rw [hleft]
  exact ⟨hentries, rfl, rfl, rfl, rfl, rfl, Or.inl rfl⟩

/-- An edit of the line may be done. -/
theorem of_done (hdone : ∃ line, done = { e with line }) (hleft : e' = done) :
    Halfway false e done e' := by
  obtain ⟨line, rfl⟩ := hdone
  rw [hleft]
  exact ⟨rfl, rfl, rfl, rfl, rfl, rfl, Or.inr ⟨rfl, rfl⟩⟩

/-- Nothing else is touched when candidates go away before the edit. -/
theorem of_dismissed (h : Halfway leaves (dismissed e) done e') : Halfway leaves e done e' := by
  unfold dismissed at h
  split at h
  · exact h
  · exact ⟨h.entries, h.queue, h.decoder, h.prompt, h.size, h.needsPrompt, h.text⟩

/-- Nothing else is touched when the command table is rebuilt before the edit. -/
theorem of_commands {start : Editor} (h : Halfway leaves start done e') {commands : CommandTable}
    (hstart : start = { e with commands }) : Halfway leaves e done e' := by
  rw [hstart] at h
  exact ⟨h.entries, h.queue, h.decoder, h.prompt, h.size, h.needsPrompt, h.text⟩

/-- What is left is judged by the line that the edit leads to. -/
theorem of_line {last : Editor} (h : Halfway leaves e done e') (hline : last.line = done.line) :
    Halfway leaves e last e' := by
  refine ⟨h.entries, h.queue, h.decoder, h.prompt, h.size, h.needsPrompt, ?_⟩
  rw [hline]
  exact h.text

end Halfway

section Left

variable {e e' : Editor}

/-- An edit whose value is replaced stops where it does, and leads to the same. -/
theorem Halfway.of_map {leaves : Bool} {x : Edit α} [Sound x] {f : α → β}
    (hx : x.StopsAt e e' → Halfway leaves e (x e).editor e')
    (h : (x >>= fun a => pure (f a)).StopsAt e e') :
    Halfway leaves e ((x >>= fun a => pure (f a)) e).editor e' := by
  rw [stopsAt_bind] at h
  exact hx (h.resolve_right (stopsAt_pure _ e' _))

theorem editor_erased (erasure : Line.Erasure) :
    ∃ line, (match e.line.erase? erasure with
      | none => e
      | some (_, line) => { e with line }) = { e with line } := by
  split
  · exact ⟨e.line, rfl⟩
  · exact ⟨_, rfl⟩

/-- **No key loses a line.** Whichever write of a key fails, the text is the old one or the one
    that the key leads to. It is the old one if the key leads to another line. -/
theorem stopsAt_handle {event : Event} (h : (handle event).StopsAt e e') :
    Halfway event.leavesLine e (handle event e).editor e' := by
  have herase : ∀ {erasure}, (eraseBehind erasure).StopsAt e e' →
      Halfway false e (eraseBehind erasure e).editor e' := by
    intro erasure hstop
    exact .of_done (editor_eraseBehind e erasure ▸ editor_erased erasure)
      (stopsAt_eraseBehind hstop)
  have hbrowse : ∀ {direction n}, (browse direction n).StopsAt e e' →
      Halfway true e (browse direction n e).editor e' := by
    intro direction n hstop
    have hkept := History.kept_historySteps direction e.line.text n none e.history
    exact .of_history hkept.1 (stopsAt_browse hstop)
  unfold handle at h ⊢
  cases event with
  | text t =>
      refine Halfway.of_map (fun hstop => ?_) h
      exact .of_done ⟨_, editor_typeText e t⟩ (stopsAt_typeText hstop)
  | newline =>
      refine Halfway.of_map (fun hstop => ?_) h
      exact (stopsAt_enter hstop).elim .of_eq .of_moveToEnd
  | backspace => exact .of_map herase h
  | delete => exact .of_map herase h
  | eraseLineToBegin => exact .of_map herase h
  | eraseLineToEnd =>
      refine Halfway.of_map (fun hstop => ?_) h
      exact .of_done (editor_eraseToEnd e ▸ editor_erased .toEnd) (stopsAt_eraseToEnd hstop)
  | eraseLine =>
      refine Halfway.of_map (fun hstop => ?_) h
      exact .of_done (editor_eraseEverything e ▸ editor_erased .everything)
        (stopsAt_eraseEverything hstop)
  | cursorForward n =>
      refine Halfway.of_map (fun hstop => ?_) h
      exact .of_done ⟨_, editor_goForward e _⟩ (stopsAt_goForward hstop)
  | cursorBackward n =>
      refine Halfway.of_map (fun hstop => .of_done ?_ (stopsAt_goBackward hstop)) h
      rw [editor_goBackward]
      split
      · exact ⟨e.line, rfl⟩
      · exact ⟨_, rfl⟩
  | cursorUp n => exact .of_map hbrowse h
  | cursorPreviousLine n => exact .of_map hbrowse h
  | cursorDown n => exact .of_map hbrowse h
  | cursorNextLine n => exact .of_map hbrowse h
  | interrupt => exact .of_map (fun hstop => .of_eq (stopsAt_interrupt hstop)) h
  | endOfTransmission =>
      have hstop : endInput.StopsAt e e' := h
      exact .of_eq (stopsAt_writes hstop)
  | screenSize width height =>
      exact .of_map (fun hstop => absurd hstop (stopsAt_update e e' _)) h
  | _ => exact .of_map (fun hstop => absurd hstop (stopsAt_note e e' _)) h

/-- Putting a completion to use stops with the old line or with the new one. -/
theorem stopsAt_finishCompletion {answer : Completion}
    (h : (finishCompletion answer).StopsAt e e') :
    Halfway false e (finishCompletion answer e).editor e' := by
  cases answer with
  | none => exact absurd h (stopsAt_pure e e' ())
  | single replacement =>
      exact (stopsAt_complete h).elim .of_eq (.of_done ⟨_, editor_complete e replacement⟩)
  | candidates grid =>
      exact (stopsAt_showCandidates h).elim .of_eq .of_moveToEnd

/-- Taking candidates away stops with the old line. -/
theorem Halfway.of_dismissBefore {event : Event} (h : (dismissBefore event).StopsAt e e')
    (leaves : Bool) (done : Editor) : Halfway leaves e done e' := by
  rw [stopsAt_dismissBefore h]
  exact ⟨rfl, rfl, rfl, rfl, rfl, rfl, Or.inl rfl⟩

theorem Halfway.of_prepareCompletion (h : prepareCompletion.StopsAt e e') (leaves : Bool)
    (done : Editor) : Halfway leaves e done e' := by
  rw [prepareCompletion, stopsAt_bind, stopsAt_current_bind] at h
  exact .of_dismissBefore (h.resolve_right (stopsAt_pure _ e' _)) leaves done

theorem stopsAt_applyKey {event : Event} (h : (applyKey event).StopsAt e e') :
    Halfway event.leavesLine e (applyKey event e).editor e' := by
  have hline : (applyKey event e).editor.line = (handle event (dismissed e)).editor.line := by
    rw [editor_applyKey]
    split <;> rfl
  rw [applyKey, stopsAt_bind, stopsAt_bind, editor_dismissBefore] at h
  rcases h with h | h | h
  · exact .of_dismissBefore h _ _
  · exact ((stopsAt_handle h).of_dismissed).of_line hline
  · -- whether a prompt is due is set behind the last write
    split at h
    · rw [stopsAt_bind] at h
      exact absurd h (not_or_intro (stopsAt_update _ e' _) (stopsAt_pure _ e' _))
    · exact absurd h (stopsAt_pure _ e' _)

/-- Looking for completions changes the command table at most. -/
theorem editor_runCompletion (files : FileTree) (request : CompletionRequest) :
    ∃ commands, (runCompletion files request e).editor = { e with commands } := by
  rw [runCompletion, current_bind]
  exact ⟨_, editor_all_map_note _ _⟩

theorem stopsAt_completeWord {files : FileTree} (h : (completeWord files).StopsAt e e') :
    Halfway false e (completeWord files e).editor e' := by
  rw [completeWord, stopsAt_bind, stopsAt_bind, editor_prepareCompletion] at h
  rcases h with h | h | h
  · exact .of_prepareCompletion h _ _
  · exact absurd h (not_stopsAt_runCompletion files _)
  · obtain ⟨commands, hsearched⟩ := editor_runCompletion (e := dismissed e) files
      (prepareCompletion e).value
    refine ((stopsAt_finishCompletion h).of_commands hsearched).of_dismissed.of_line ?_
    rw [completeWord, editor_bind, editor_bind, editor_prepareCompletion]

/-- **No event loses a line.** Whichever write fails, the entries of the history, the input that was
    not yet acted on, the prompt and the size of the terminal are what they were. The text is the
    old one or the one that the event leads to, and it is the old one if the event leads to another
    line. -/
theorem stopsAt_apply {files : FileTree} {event : Event} (h : (apply files event).StopsAt e e') :
    Halfway event.leavesLine e (apply files event e).editor e' := by
  unfold apply at h ⊢
  by_cases htab : event = .tab
  · rw [if_pos htab] at h ⊢
    rw [htab]
    exact .of_map stopsAt_completeWord h
  · rw [if_neg htab] at h ⊢
    exact stopsAt_applyKey h

/-- So it is if the completion was looked for elsewhere. -/
theorem stopsAt_action {a : Action} (h : a.edit.StopsAt e e') :
    Halfway a.leavesLine e (a.edit e).editor e' := by
  cases a with
  | event files ev => exact .of_map stopsAt_apply h
  | completion answer =>
      rw [Action.edit, stopsAt_bind, editor_prepareCompletion] at h
      rcases h with h | h
      · exact .of_prepareCompletion h _ _
      · refine (stopsAt_finishCompletion h).of_dismissed.of_line ?_
        rw [Action.edit, editor_bind, editor_prepareCompletion]

end Left

end Edit

end Promptline
