import Promptline.Proofs.Completion.Names
import Promptline.Proofs.Editor.Input
import Promptline.Proofs.Line.Word
import Promptline.Proofs.Unicode.Alphabet

set_option autoImplicit false

/-! # Completion inserts

What a word is completed to begins with the word (`prefix_of_complete`): the names that are looked
through are those that begin with it. So putting a completion in the place of the word only puts
text in, as long as the word that is taken out of the line is the word that was looked up. The two
are found in different ways, and just where they are the same, nothing that was typed is lost
(`complete_inserts_iff`). -/

namespace Promptline

open Terminal Unicode

theorem Completion.ofNames_ne_single (names : List (List Char)) (width : Nat) (r : List Char) :
    Completion.ofNames names width ≠ .single r := by
  unfold Completion.ofNames
  split
  · simp
  · simp

namespace CompletionSettings

/-- The one name of a command, with a space behind it. -/
theorem completeCommand_eq_single {table : CommandTable} {word r : List Char} {width : Nat}
    (h : completeCommand table word width = .single r) :
    ∃ name ∈ table.matching word, r = name ++ [' '] := by
  unfold completeCommand at h
  split at h
  · cases h
  · next name hname =>
      cases h
      refine ⟨name, ?_, rfl⟩
      rw [hname]
      exact List.mem_singleton_self name
  · exact absurd h (Completion.ofNames_ne_single _ _ _)

/-- The one name of a file, behind the directory part of the word, with a slash behind it if it is
    a directory. -/
theorem completeFile_eq_single {s : CompletionSettings} {files : FileTree} {word r : List Char}
    {width : Nat} (h : (s.completeFile files word width).1 = .single r) :
    ∃ names name, ∃ isDirectory : Bool,
      files.list (s.directoryOf (splitAtLastSlash word).1) = .ok names ∧
      (name, isDirectory) ∈ entriesMatching files (s.directoryOf (splitAtLastSlash word).1)
        (splitAtLastSlash word).2 names ∧
      r = (splitAtLastSlash word).1 ++ name ++ if isDirectory then ['/'] else [] := by
  unfold completeFile at h
  dsimp only at h
  split at h
  · cases h
  · next names hnames =>
    dsimp only at h
    split at h
    · cases h
    · next name isDirectory hentries =>
        cases h
        refine ⟨names, name, isDirectory, hnames, ?_, rfl⟩
        rw [hentries]
        exact List.mem_singleton_self _
    · exact absurd h (Completion.ofNames_ne_single _ _ _)

/-- The one completion of a word is that of a command or, where files are completed, of a file. -/
theorem complete_eq_single {s : CompletionSettings} {files : FileTree} {table : CommandTable}
    {request : CompletionRequest} {r : List Char}
    (h : (s.complete files table request).1 = .single r) :
    completeCommand (s.loaded files table).1 request.word request.width = .single r ∨
      s.mode = .pipelineAware ∧
        (s.completeFile files request.word request.width).1 = .single r := by
  unfold complete at h
  dsimp only at h
  split at h
  · cases h
  split at h
  · exact .inl h
  split at h
  · next hmode => exact .inr ⟨hmode, h⟩
  · cases h

/-- **A completion begins with the word that was looked up**, whatever it was looked up in. -/
theorem prefix_of_complete {s : CompletionSettings} {files : FileTree} {table : CommandTable}
    {request : CompletionRequest} {r : List Char}
    (h : (s.complete files table request).1 = .single r) : request.word <+: r := by
  rcases complete_eq_single h with hcommand | ⟨_, hfile⟩
  · obtain ⟨name, hname, rfl⟩ := completeCommand_eq_single hcommand
    exact (CommandTable.mem_matching_iff.1 hname).2.trans (List.prefix_append _ _)
  · obtain ⟨names, name, isDirectory, _, hentry, rfl⟩ := completeFile_eq_single hfile
    obtain ⟨_, ⟨rest, hrest⟩, _⟩ := mem_entriesMatching_iff.1 hentry
    dsimp only at hrest
    refine ⟨rest ++ if isDirectory then ['/'] else [], ?_⟩
    calc request.word ++ (rest ++ if isDirectory then ['/'] else [])
      _ = (splitAtLastSlash request.word).1 ++ ((splitAtLastSlash request.word).2 ++ rest) ++
            (if isDirectory then ['/'] else []) := by
          rw [← List.append_assoc, ← List.append_assoc, splitAtLastSlash_append]
      _ = _ := by rw [hrest]

end CompletionSettings

namespace Edit

variable {e : Editor} {files : FileTree} {r : List Char}

/-- The line after the one completion of its word was put in. -/
theorem line_apply_tab (hmode : e.mode = .input)
    (hfound : (e.settings.complete files e.commands e.completionRequest).1 = .single r) :
    ((apply files .tab).run e .working).editor.line = e.line.replaceBefore e.line.wordStart r := by
  have hdismissed : dismissed e = e := dismissed_eq_self hmode
  have hsearch : (search e files).1 = .single r := by
    rw [search, hdismissed]
    exact hfound
  have hcomplete : finishCompletion (.single r) = complete r := rfl
  rw [run_working_editor, editor_apply, if_pos rfl, editor_completeWord, hsearch, hdismissed,
    hcomplete, editor_complete]

/-- **Completion only inserts, or takes out another word.** Where the word at the cursor has one
    completion, the following go together: the last cluster in front of the cursor that holds a
    blank character, if there is one, is blank throughout; and the word that is taken out of the
    line is the one that was looked up, the completion begins with it, and the text is what stood in
    front of the cursor, some text, and what stood behind it. -/
theorem complete_inserts_iff (hmode : e.mode = .input)
    (hfound : (e.settings.complete files e.commands e.completionRequest).1 = .single r) :
    (∀ cluster ∈ e.line.lastBlank?, isBlankText cluster = true) ↔
      e.line.word = e.completionRequest.word ∧ e.completionRequest.word <+: r ∧
        ∃ inserted, ((apply files .tab).run e .working).editor.line.text =
          e.line.before ++ inserted ++ e.line.after := by
  have hword : e.completionRequest.word = lastWord e.line.before := rfl
  rw [← Line.word_eq_lastWord_iff, ← hword]
  constructor
  · intro hsame
    obtain ⟨inserted, rfl⟩ := CompletionSettings.prefix_of_complete hfound
    refine ⟨hsame, List.prefix_append _ _, inserted, ?_⟩
    rw [line_apply_tab hmode hfound, Line.replaceBefore,
      Nat.min_eq_left e.line.wordStart_le_cursor, ← e.line.firstClusters_append_word, hsame]
    simp only [List.append_assoc]
  · intro h
    exact h.1

/-- An editor with a line that is typed in a directory that holds one file. -/
def besideFile (text : List Char) : Editor :=
  { Editor.start ['>'] ⟨[], Path.here, .pipelineAware⟩ (.empty 10) (80, 24) with
    line := .ofText text }

/-- The directory with the file `bx` in it. -/
def fileTree : FileTree :=
  .put .empty (Path.ofString "bx") (.file 0o644 [])

/-- A word behind a space is completed to the name of a file. -/
theorem complete_inserts_file_name :
    let e := besideFile ['q', ' ', 'b']
    (e.settings.complete fileTree e.commands e.completionRequest).1 = .single ['b', 'x'] ∧
      e.line.word = e.completionRequest.word ∧ e.completionRequest.word <+: ['b', 'x'] ∧
      ∃ inserted, ((apply fileTree .tab).run e .working).editor.line.text =
        e.line.before ++ inserted ++ e.line.after := by
  intro e
  have hfound : (e.settings.complete fileTree e.commands e.completionRequest).1 =
      .single ['b', 'x'] := by
    decide +kernel
  have hblank : ∀ cluster ∈ e.line.lastBlank?, isBlankText cluster = true := by
    decide +kernel
  exact ⟨hfound, (complete_inserts_iff rfl hfound).1 hblank⟩

/-- A sign that goes in front of others and the space behind it are one cluster. The word that is
    looked up stands behind the space, but the sign and the space are taken out with it. -/
theorem complete_takes_out_sign :
    let e := besideFile ['\u0600', ' ', 'b']
    (e.settings.complete fileTree e.commands e.completionRequest).1 = .single ['b', 'x'] ∧
      e.line.word = ['\u0600', ' ', 'b'] ∧ e.completionRequest.word = ['b'] ∧
      ((apply fileTree .tab).run e .working).editor.line.text = ['b', 'x'] ∧
      ¬ ∃ inserted, ((apply fileTree .tab).run e .working).editor.line.text =
        e.line.before ++ inserted ++ e.line.after := by
  intro e
  have htext : ((apply fileTree .tab).run e .working).editor.line.text = ['b', 'x'] := by
    decide +kernel
  have hbefore : e.line.before = ['\u0600', ' ', 'b'] := by
    decide +kernel
  refine ⟨by decide +kernel, by decide +kernel, by decide +kernel, htext, ?_⟩
  rintro ⟨inserted, hinserted⟩
  rw [htext, hbefore] at hinserted
  exact absurd (List.cons.inj hinserted).1 (by decide)

end Edit

end Promptline
