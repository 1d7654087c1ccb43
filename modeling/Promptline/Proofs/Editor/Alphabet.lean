import Promptline.Proofs.Completion.Insertion
import Promptline.Proofs.History
import Promptline.Proofs.Line

set_option autoImplicit false

/-! # Editors over an alphabet

All text of a line was typed, recalled from the history, or completed. So if the line, the history
and the names that completion may offer are over an alphabet that has a space and a slash, then they
stay so, whatever is typed over it (`Editor.TextsOver.apply`). -/

namespace Promptline

open Terminal Unicode

/-! ## Completion -/

/-- The names that completion may offer are over an alphabet: those of the command table, rebuilt if
    it is stale, and where files are completed, all names of files that are texts. -/
structure CompletionSettings.OffersOver (A : Char → Prop) (s : CompletionSettings)
    (files : FileTree) (table : CommandTable) : Prop where
  commands : ∀ name ∈ (s.loaded files table).1.names, Over A name
  entries : s.mode = .pipelineAware → ∀ directory names, files.list directory = .ok names →
    ∀ name ∈ names, ∀ text, Utf8.decodeAll? name = some text → Over A text

namespace CompletionSettings

variable {A : Char → Prop} {s : CompletionSettings} {files : FileTree} {table : CommandTable}

theorem loaded_loaded (s : CompletionSettings) (files : FileTree) (table : CommandTable) :
    (s.loaded files (s.loaded files table).1).1 = (s.loaded files table).1 := by
  unfold loaded
  split <;> rfl

/-- A table that was looked up in is as it was, or rebuilt. -/
theorem table_complete (s : CompletionSettings) (files : FileTree) (table : CommandTable)
    (request : CompletionRequest) :
    (s.complete files table request).2.1 = table ∨
      (s.complete files table request).2.1 = (s.loaded files table).1 := by
  unfold complete
  dsimp only
  split
  · exact .inl rfl
  split
  · exact .inr rfl
  split
  · exact .inl rfl
  · exact .inl rfl

theorem OffersOver.mono {B : Char → Prop} (h : s.OffersOver A files table)
    (hAB : ∀ c, A c → B c) : s.OffersOver B files table where
  commands name hname := (h.commands name hname).mono hAB
  entries hmode directory names hlist name hname text htext :=
    (h.entries hmode directory names hlist name hname text htext).mono hAB

theorem OffersOver.complete (h : s.OffersOver A files table) (request : CompletionRequest) :
    s.OffersOver A files (s.complete files table request).2.1 where
  commands := by
    rcases s.table_complete files table request with hsame | hloaded
    · rw [hsame]
      exact h.commands
    · rw [hloaded, loaded_loaded]
      exact h.commands
  entries := h.entries

/-- The one completion of a word over the alphabet. A completed command has a space behind it, and
    a directory a slash. -/
theorem OffersOver.over_of_complete (h : s.OffersOver A files table) (hspace : A ' ')
    (hslash : A '/') {request : CompletionRequest} (hword : Over A request.word) {r : List Char}
    (hr : (s.complete files table request).1 = .single r) : Over A r := by
  rcases complete_eq_single hr with hcommand | ⟨hmode, hfile⟩
  · obtain ⟨name, hname, rfl⟩ := completeCommand_eq_single hcommand
    have hnames := h.commands name (CommandTable.mem_matching_iff.1 hname).1
    exact over_append.2 ⟨hnames, over_cons.2 ⟨hspace, over_nil⟩⟩
  · obtain ⟨names, name, isDirectory, hlist, hentry, rfl⟩ := completeFile_eq_single hfile
    obtain ⟨hlisted, _, _⟩ := mem_entriesMatching_iff.1 hentry
    have htext : Utf8.decodeAll? (Utf8.encode name) = some name :=
      Utf8.decodeAll?_eq_some_iff.2 rfl
    have hname : Over A name := h.entries hmode _ _ hlist _ hlisted _ htext
    have hpart : Over A (splitAtLastSlash request.word).1 := by
      rw [← splitAtLastSlash_append request.word] at hword
      exact (over_append.1 hword).1
    refine over_append.2 ⟨over_append.2 ⟨hpart, hname⟩, ?_⟩
    split
    · exact over_cons.2 ⟨hslash, over_nil⟩
    · exact over_nil

end CompletionSettings

/-! ## Events -/

/-- All text that an editor holds or may get by completion is over an alphabet. -/
structure Editor.TextsOver (A : Char → Prop) (files : FileTree) (e : Editor) : Prop where
  line : Over A e.line.text
  history : e.history.AllOver A
  offers : e.settings.OffersOver A files e.commands

namespace Editor.TextsOver

open Edit

variable {A : Char → Prop} {files : FileTree} {e : Editor}

theorem mono {B : Char → Prop} (h : e.TextsOver A files) (hAB : ∀ c, A c → B c) :
    e.TextsOver B files :=
  ⟨h.line.mono hAB, h.history.mono hAB, h.offers.mono hAB⟩

theorem dismissed (h : e.TextsOver A files) : (Edit.dismissed e).TextsOver A files := by
  unfold Edit.dismissed
  split
  · exact h
  · exact ⟨h.line, h.history, h.offers⟩

theorem eraseBehind (h : e.TextsOver A files) (erasure : Line.Erasure) :
    (Edit.eraseBehind erasure e).editor.TextsOver A files := by
  rw [editor_eraseBehind]
  split
  · exact h
  · next herase => exact ⟨Line.over_erase? h.line herase, h.history, h.offers⟩

theorem browse (h : e.TextsOver A files) (direction : Direction) (n : Nat) :
    (Edit.browse direction n e).editor.TextsOver A files := by
  have hnone : ∀ line, (none : Option (List Char)) = some line → Over A line := nofun
  obtain ⟨hhistory, hselected⟩ := h.history.historySteps direction h.line n hnone
  rw [editor_browse]
  split
  · exact ⟨h.line, hhistory, h.offers⟩
  · next entry hentry => exact ⟨hselected entry hentry, hhistory, h.offers⟩

theorem enter (h : e.TextsOver A files) : (Edit.enter e).editor.TextsOver A files := by
  rw [editor_enter]
  split
  · exact ⟨over_nil, (h.history.append h.line).reset, h.offers⟩
  · exact ⟨h.history.expand h.line, h.history, h.offers⟩

/-- Every key keeps to the alphabet. -/
theorem handle (h : e.TextsOver A files) {event : Event}
    (htext : ∀ s, event = .text s → Over A s) :
    (Edit.handle event e).editor.TextsOver A files := by
  unfold Edit.handle
  cases event with
  | text s =>
      simp only [editor_bind, editor_pure, editor_typeText]
      exact ⟨Line.over_insert h.line (htext s rfl), h.history, h.offers⟩
  | newline => exact h.enter
  | backspace => exact h.eraseBehind .previous
  | delete => exact h.eraseBehind .previous
  | eraseLineToBegin => exact h.eraseBehind .toBegin
  | cursorForward n =>
      simp only [editor_bind, editor_pure, editor_goForward]
      exact ⟨h.line, h.history, h.offers⟩
  | cursorBackward n =>
      simp only [editor_bind, editor_pure, editor_goBackward]
      split
      · exact h
      · exact ⟨h.line, h.history, h.offers⟩
  | cursorUp n => exact h.browse .older n.toNat
  | cursorPreviousLine n => exact h.browse .older n.toNat
  | cursorDown n => exact h.browse .newer n.toNat
  | cursorNextLine n => exact h.browse .newer n.toNat
  | eraseLineToEnd =>
      simp only [editor_bind, editor_pure, editor_eraseToEnd]
      split
      · exact h
      · next herase => exact ⟨Line.over_erase? h.line herase, h.history, h.offers⟩
  | eraseLine =>
      simp only [editor_bind, editor_pure, editor_eraseEverything]
      split
      · exact h
      · next herase => exact ⟨Line.over_erase? h.line herase, h.history, h.offers⟩
  | interrupt =>
      simp only [editor_bind, editor_pure, editor_interrupt]
      exact ⟨over_nil, h.history.reset, h.offers⟩
  | endOfTransmission =>
      simp only [editor_endInput]
      exact h
  | screenSize width height => exact ⟨h.line, h.history, h.offers⟩
  | _ => exact h

/-- So does a completion. -/
theorem completeWord (h : e.TextsOver A files) (hspace : A ' ') (hslash : A '/') :
    (Edit.completeWord files e).editor.TextsOver A files := by
  have hfirst := h.dismissed
  have hword : Over A (Edit.dismissed e).completionRequest.word := fun c hc =>
    Line.over_before hfirst.line c (mem_of_mem_lastWord hc).1
  have hoffers := hfirst.offers.complete (Edit.dismissed e).completionRequest
  rw [editor_completeWord]
  cases hanswer : (search e files).1 with
  | none => exact ⟨hfirst.line, hfirst.history, hoffers⟩
  | candidates grid =>
      simp only [finishCompletion, editor_showCandidates]
      exact ⟨hfirst.line, hfirst.history, hoffers⟩
  | single r =>
      have hr := hfirst.offers.over_of_complete hspace hslash hword hanswer
      simp only [finishCompletion, editor_complete]
      exact ⟨Line.over_replaceBefore hfirst.line _ hr, hfirst.history, hoffers⟩

/-- **Every event keeps to the alphabet**, if it is no text beyond it. -/
theorem apply (h : e.TextsOver A files) (hspace : A ' ') (hslash : A '/') {event : Event}
    (htext : ∀ s, event = .text s → Over A s) :
    (Edit.apply files event e).editor.TextsOver A files := by
  rw [editor_apply]
  split
  · exact h.completeWord hspace hslash
  · have hhandle := h.dismissed.handle htext
    rw [editor_applyKey]
    split
    · exact ⟨hhandle.line, hhandle.history, hhandle.offers⟩
    · exact hhandle

end Editor.TextsOver

end Promptline
