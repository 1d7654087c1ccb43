import Promptline.Proofs.Completion.Names
import Promptline.Proofs.Files.Tree
import Promptline.Proofs.Line.Word

set_option autoImplicit false

/-! # What is offered

Completion reads two words off the line: the one that ends at the cursor, and the last one in front
of it, which says whether a command or a file is meant. The names that are offered are those of the
commands, or of the files in one directory, that begin as the word does (`Suits`), each once and in
increasing order (`complete_exact`). Neither the order in which a directory is listed nor that in
which commands were found is seen.

A tree holds one node at each place, and a table its names in order. Both are so from the start, and
whatever is done to them keeps them so (`FileTree.Distinct.put`, `ordered_complete` and others). -/

namespace Promptline

open Unicode

/-! ## What is asked for -/

namespace CompletionRequest

variable (r : CompletionRequest)

/-- What is typed of the word at the cursor: all that stands behind the last blank character in
    front of the cursor. -/
def typed : List Char :=
  r.before.rtakeWhile inWord

/-- The last word in front of that, empty if there is none. -/
def preceding : List Char :=
  ((r.before.rdropWhile inWord).rdropWhile isBlank).rtakeWhile inWord

/-- A command is expected as the first word, and behind a bar where lines are pipelines. -/
def AtCommand (mode : CompletionMode) : Prop :=
  r.preceding = [] ∨ r.preceding = ['|'] ∧ mode = .pipelineAware

instance (mode : CompletionMode) : Decidable (r.AtCommand mode) :=
  inferInstanceAs (Decidable (_ ∨ _))

/-- What is typed up to its last slash. -/
def directoryPart : List Char :=
  r.typed.rdropWhile (· != '/')

/-- What is typed behind the last slash. -/
def namePart : List Char :=
  r.typed.rtakeWhile (· != '/')

theorem word_eq_typed : r.word = r.typed :=
  lastWord_eq_rtakeWhile r.before

theorem previousWord?_eq :
    r.previousWord? = if r.preceding.isEmpty then none else some r.preceding := by
  unfold previousWord? preceding
  rcases splitAtBlanks_cases r.before with ⟨hfront, hsplit⟩ | ⟨front, b, hb, hfront, hsplit⟩
  · rw [hfront, hsplit]
    rfl
  · rw [hfront, hsplit, List.dropLast_concat, find?_splitAtBlanks,
      List.rdropWhile_concat_pos _ _ _ hb]

theorem expectsCommand_iff (mode : CompletionMode) :
    r.expectsCommand mode = true ↔ r.AtCommand mode := by
  unfold expectsCommand AtCommand
  rw [previousWord?_eq]
  cases hword : r.preceding with
  | nil => simp
  | cons c rest => cases mode <;> simp [bar]

theorem splitAtLastSlash_typed : splitAtLastSlash r.typed = (r.directoryPart, r.namePart) := by
  have hname : (splitAtLastSlash r.typed).2 = r.namePart := rfl
  have hparts := splitAtLastSlash_append r.typed
  have htyped : r.directoryPart ++ r.namePart = r.typed := List.rdropWhile_append_rtakeWhile
  rw [hname] at hparts
  exact Prod.ext (List.append_cancel_right (hparts.trans htyped.symm)) hname

end CompletionRequest

namespace Completion

/-- How names are offered: one name as what it is replaced by, more of them as a grid. -/
inductive Offers (replacement : List Char → List Char) (width : Nat) :
    List (List Char) → Completion → Prop
  | none : Offers replacement width [] .none
  | single (name : List Char) : Offers replacement width [name] (.single (replacement name))
  | candidates {names : List (List Char)} {grid : Grid} (h : 2 ≤ names.length)
      (hgrid : Grid.layout names width = some grid) :
      Offers replacement width names (.candidates grid)

theorem offers_ofNames (replacement : List Char → List Char) (width : Nat)
    {names : List (List Char)} (h : 2 ≤ names.length) :
    Offers replacement width names (ofNames names width) := by
  have hne : names.isEmpty = false := by
    rw [List.isEmpty_eq_false_iff, ← List.length_pos_iff]
    omega
  have hgrid : Grid.layout names width = some (Grid.ofNames names (max 1 width)) := by
    rw [Grid.layout, hne]
    rfl
  rw [ofNames, hgrid]
  exact .candidates h hgrid

end Completion

namespace CompletionSettings

variable (s : CompletionSettings) (files : FileTree) (table : CommandTable) (r : CompletionRequest)

/-- The directory in which files are looked for: the one that the word names, taken from the current
    directory unless it starts at the root, or else the current directory itself. -/
def searched : Path :=
  if r.directoryPart = [] then s.currentDirectory
  else if r.directoryPart.head? = some '/' then Utf8.encode r.directoryPart
  else s.currentDirectory.join (Utf8.encode r.directoryPart)

/-- The names that suit the word: those of commands where a command is expected, and otherwise,
    where lines are pipelines, those of files. -/
inductive Suits (name : List Char) : Prop
  | command (hplace : r.AtCommand s.mode) (hname : name ∈ table.names)
      (hbegin : r.typed <+: name)
  | file {names : List Path} (hplace : ¬ r.AtCommand s.mode) (hmode : s.mode = .pipelineAware)
      (hlist : files.list (s.searched r) = .ok names) (hname : Utf8.encode name ∈ names)
      (hbegin : r.namePart <+: name)

/-- What the word is replaced by if one name suits it. -/
def replacement (name : List Char) : List Char :=
  if r.AtCommand s.mode then name ++ [' ']
  else r.directoryPart ++ name ++
    if files.isDirectory ((s.searched r).join (Utf8.encode name)) then ['/'] else []

theorem directoryOf_eq_searched : s.directoryOf r.directoryPart = s.searched r := by
  unfold directoryOf searched
  cases hpart : r.directoryPart with
  | nil => rfl
  | cons c rest =>
      by_cases hc : c = '/'
      · subst hc
        rfl
      · simp [hc]

/-! ## Answers -/

variable {s files table r}

theorem offers_completeCommand (word : List Char) (width : Nat) :
    Completion.Offers (· ++ [' ']) width (table.matching word)
      (completeCommand table word width) := by
  unfold completeCommand
  rcases table.matching word with _ | ⟨name, _ | ⟨other, rest⟩⟩
  · exact .none
  · exact .single name
  · exact Completion.offers_ofNames _ _ (by simp)

theorem offers_completeFile {names : List Path} (h : files.list (s.searched r) = .ok names) :
    Completion.Offers
      (fun name => r.directoryPart ++ name ++
        if files.isDirectory ((s.searched r).join (Utf8.encode name)) then ['/'] else [])
      r.width ((entriesMatching files (s.searched r) r.namePart names).map Prod.fst)
      (s.completeFile files r.typed r.width).1 := by
  have hmem : ∀ entry ∈ entriesMatching files (s.searched r) r.namePart names,
      entry.2 = files.isDirectory ((s.searched r).join (Utf8.encode entry.1)) :=
    fun entry hentry => (mem_entriesMatching_iff.1 hentry).2.2
  unfold completeFile
  rw [r.splitAtLastSlash_typed]
  dsimp only
  rw [directoryOf_eq_searched, h]
  dsimp only
  generalize entriesMatching files (s.searched r) r.namePart names = entries at hmem ⊢
  rcases entries with _ | ⟨⟨name, isDirectory⟩, _ | ⟨other, rest⟩⟩
  · exact .none
  · have hdirectory : isDirectory = _ := hmem (name, isDirectory) (List.mem_singleton_self _)
    rw [hdirectory]
    exact .single name
  · exact Completion.offers_ofNames _ _ (by simp)

theorem completeFile_of_error {e : FileError} (h : files.list (s.searched r) = .error e) :
    (s.completeFile files r.typed r.width).1 = .none := by
  unfold completeFile
  rw [r.splitAtLastSlash_typed]
  dsimp only
  rw [directoryOf_eq_searched, h]

theorem complete_of_typed_eq_nil (h : r.typed = []) :
    s.complete files table r = (.none, table, []) := by
  unfold complete
  rw [r.word_eq_typed, h]
  rfl

variable (s files table) in
/-- What is looked up for a word that is not empty. -/
theorem complete_of_typed_ne_nil (h : r.typed ≠ []) :
    (s.complete files table r).1 =
        (if r.AtCommand s.mode then completeCommand (s.loaded files table).1 r.typed r.width
        else if s.mode = .pipelineAware then (s.completeFile files r.typed r.width).1
        else .none) ∧
      (s.complete files table r).2.1 =
        if r.AtCommand s.mode then (s.loaded files table).1 else table := by
  have hempty : ¬ r.typed.isEmpty = true := by simpa using h
  unfold complete
  rw [r.word_eq_typed]
  dsimp only
  rw [if_neg hempty]
  by_cases hplace : r.AtCommand s.mode
  · simp [(r.expectsCommand_iff s.mode).2 hplace, hplace]
  · have hfile : r.expectsCommand s.mode = false := by
      rw [← Bool.not_eq_true, r.expectsCommand_iff]
      exact hplace
    simp only [hfile, if_neg hplace, Bool.false_eq_true, if_false]
    split
    · exact ⟨rfl, rfl⟩
    · exact ⟨rfl, rfl⟩

theorem ordered_loaded (h : table.Ordered) : (s.loaded files table).1.Ordered := by
  unfold loaded
  split
  · exact h
  · exact table.ordered_rebuild files s.searchPaths

/-- A table is ordered after a look-up as it was before. -/
theorem ordered_complete (h : table.Ordered) : (s.complete files table r).2.1.Ordered := by
  by_cases htyped : r.typed = []
  · rw [complete_of_typed_eq_nil htyped]
    exact h
  · rw [(complete_of_typed_ne_nil s files table htyped).2]
    split
    · exact ordered_loaded h
    · exact h

/-! ## All names that suit -/

/-- Where a command is expected, the names of the table that begin as the word does are offered. -/
theorem exists_offers_completeCommand (hplace : r.AtCommand s.mode) (htable : table.Ordered) :
    ∃ names : List (List Char), names.Pairwise (· < ·) ∧
      (∀ name, name ∈ names ↔ s.Suits files table r name) ∧
      Completion.Offers (s.replacement files r) r.width names
        (completeCommand table r.typed r.width) := by
  have hreplacement : s.replacement files r = (· ++ [' ']) := by
    funext name
    rw [replacement, if_pos hplace]
  refine ⟨table.matching r.typed, htable.filter _, ?_, ?_⟩
  · intro name
    rw [CommandTable.mem_matching_iff]
    constructor
    · rintro ⟨hname, hbegin⟩
      exact .command hplace hname hbegin
    · rintro (⟨_, hname, hbegin⟩ | ⟨hfile⟩)
      · exact ⟨hname, hbegin⟩
      · exact absurd hplace hfile
  · rw [hreplacement]
    exact offers_completeCommand _ _

/-- Behind a command, the names in the directory that begin as the word does are offered, and none
    if the directory cannot be listed. -/
theorem exists_offers_completeFile (hplace : ¬ r.AtCommand s.mode) (hmode : s.mode = .pipelineAware)
    (hfiles : files.Distinct) :
    ∃ names : List (List Char), names.Pairwise (· < ·) ∧
      (∀ name, name ∈ names ↔ s.Suits files table r name) ∧
      Completion.Offers (s.replacement files r) r.width names
        (s.completeFile files r.typed r.width).1 := by
  cases hlist : files.list (s.searched r) with
  | error e =>
      refine ⟨[], .nil, ?_, ?_⟩
      · intro name
        refine ⟨fun h => absurd h List.not_mem_nil, ?_⟩
        rintro (⟨hcommand⟩ | ⟨_, _, hlist'⟩)
        · exact absurd hcommand hplace
        · rw [hlist] at hlist'
          cases hlist'
      · rw [completeFile_of_error hlist]
        exact .none
  | ok names =>
      have hreplacement : s.replacement files r = fun name => r.directoryPart ++ name ++
          if files.isDirectory ((s.searched r).join (Utf8.encode name)) then ['/'] else [] := by
        funext name
        rw [replacement, if_neg hplace]
      refine ⟨(entriesMatching files (s.searched r) r.namePart names).map Prod.fst,
        pairwise_entriesMatching (hfiles.nodup_list hlist), ?_, ?_⟩
      · intro name
        rw [List.mem_map]
        constructor
        · rintro ⟨entry, hentry, rfl⟩
          obtain ⟨hname, hbegin, _⟩ := mem_entriesMatching_iff.1 hentry
          exact .file hplace hmode hlist hname hbegin
        · rintro (⟨hcommand⟩ | ⟨_, _, hlist', hname, hbegin⟩)
          · exact absurd hcommand hplace
          · rw [hlist] at hlist'
            cases hlist'
            exact ⟨(name, files.isDirectory ((s.searched r).join (Utf8.encode name))),
              mem_entriesMatching_iff.2 ⟨hname, hbegin, rfl⟩, rfl⟩
      · rw [hreplacement]
        exact offers_completeFile hlist

/-- **Completion offers exactly the names that suit the word.** A table that is stale is rebuilt
    just when a command is looked up. Nothing is offered for an empty word. For any other, the names
    that suit it are offered in increasing order: as nothing if there are none, as what replaces the
    word if there is one, and else as a grid. -/
theorem complete_exact (hfiles : files.Distinct) (htable : table.Ordered) :
    ((s.complete files table r).2.1 =
      if r.typed ≠ [] ∧ r.AtCommand s.mode ∧ table.isLoaded = false then
        (table.rebuild files s.searchPaths).2
      else table) ∧
    (r.typed = [] → (s.complete files table r).1 = .none) ∧
    (r.typed ≠ [] → ∃ names : List (List Char), names.Pairwise (· < ·) ∧
      (∀ name, name ∈ names ↔ s.Suits files (s.complete files table r).2.1 r name) ∧
      Completion.Offers (s.replacement files r) r.width names (s.complete files table r).1) := by
  by_cases htyped : r.typed = []
  · rw [complete_of_typed_eq_nil htyped]
    exact ⟨by simp [htyped], fun _ => rfl, fun h => absurd htyped h⟩
  · obtain ⟨hanswer, htable'⟩ := complete_of_typed_ne_nil s files table htyped
    rw [hanswer, htable']
    refine ⟨?_, fun h => absurd h htyped, fun _ => ?_⟩
    · by_cases hplace : r.AtCommand s.mode
      · cases h : table.isLoaded <;> simp [loaded, htyped, hplace, h]
      · simp [hplace]
    · by_cases hplace : r.AtCommand s.mode
      · rw [if_pos hplace, if_pos hplace]
        exact exists_offers_completeCommand hplace (ordered_loaded htable)
      · rw [if_neg hplace, if_neg hplace]
        by_cases hmode : s.mode = .pipelineAware
        · rw [if_pos hmode]
          exact exists_offers_completeFile hplace hmode hfiles
        · rw [if_neg hmode]
          refine ⟨[], .nil, ?_, .none⟩
          intro name
          refine ⟨fun h => absurd h List.not_mem_nil, ?_⟩
          rintro (⟨hcommand⟩ | ⟨_, hpipeline⟩)
          · exact absurd hcommand hplace
          · exact absurd hpipeline hmode

/-- A directory `d` in the current one, with the file `by` and the directory `bx` in it. -/
def nestedTree : FileTree :=
  ((FileTree.empty.put (Path.ofString "d/by") (.file 0o644 [])).makeDirectory
    (Path.ofString "d/bx")).1

/-- The word starts at the root, and the one name in the directory that begins as it does is that of
    a directory. -/
theorem complete_exact_nested_directory :
    let s : CompletionSettings := ⟨[], Path.here, .pipelineAware⟩
    let r : CompletionRequest := ⟨"q /home/d/bx".toList, 12, 80⟩
    nestedTree.Distinct ∧ CommandTable.empty.Ordered ∧ r.typed ≠ [] ∧
      (s.complete nestedTree .empty r).2.1 = .empty ∧
      ∃ names : List (List Char), names.Pairwise (· < ·) ∧
        (∀ name, name ∈ names ↔ s.Suits nestedTree .empty r name) ∧
        Completion.Offers (s.replacement nestedTree r) 80 names
          (.single "/home/d/bx/".toList) := by
  intro s r
  have hfiles : nestedTree.Distinct := (FileTree.distinct_empty.put _ _).makeDirectory _
  have htyped : r.typed ≠ [] := by
    decide +kernel
  have hanswer : (s.complete nestedTree .empty r).1 = .single "/home/d/bx/".toList := by
    decide +kernel
  have hstale : ¬ (r.typed ≠ [] ∧ r.AtCommand s.mode ∧ CommandTable.empty.isLoaded = false) := by
    decide +kernel
  obtain ⟨htable, -, hoffers⟩ := complete_exact (s := s) (r := r) hfiles CommandTable.ordered_empty
  rw [if_neg hstale] at htable
  rw [htable, hanswer] at hoffers
  exact ⟨hfiles, CommandTable.ordered_empty, htyped, htable, hoffers htyped⟩

end CompletionSettings

end Promptline
