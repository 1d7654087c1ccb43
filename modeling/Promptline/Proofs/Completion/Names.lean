import Mathlib.Data.List.Nodup
import Promptline.Completion.Completer
import Promptline.Proofs.Completion.CommandTable
import Promptline.Proofs.Text.Utf8

set_option autoImplicit false

/-! # Names that are looked through

The names of commands and of files that begin as a word does. A file counts if its name is a text,
and then the text stands for that file alone, so that the names of a directory are texts in
increasing order (`pairwise_entriesMatching`). -/

namespace Promptline

/-- The two parts of a word that names a file are the word. -/
theorem splitAtLastSlash_append (word : List Char) :
    (splitAtLastSlash word).1 ++ (splitAtLastSlash word).2 = word := by
  have hsuffix : (word.reverse.takeWhile (· != '/')).reverse <:+ word := by
    rw [← List.reverse_prefix, List.reverse_reverse]
    exact List.takeWhile_prefix _
  obtain ⟨front, hfront⟩ := hsuffix
  unfold splitAtLastSlash
  dsimp only
  generalize (word.reverse.takeWhile (· != '/')).reverse = name at hfront ⊢
  rw [← hfront, List.length_append, Nat.add_sub_cancel, List.take_left]

theorem CommandTable.mem_matching_iff {table : CommandTable} {word name : List Char} :
    name ∈ table.matching word ↔ name ∈ table.names ∧ word <+: name := by
  rw [matching, List.mem_filter, List.isPrefixOf_iff_prefix]

namespace CompletionSettings

variable {files : FileTree} {directory : Path} {beginning : List Char} {names : List Path}
  {name : Path} {entry : List Char × Bool}

/-- A name in a directory that is a text and begins as it should, and whether it is a directory. -/
def matched? (files : FileTree) (directory : Path) (beginning : List Char) (name : Path) :
    Option (List Char × Bool) :=
  match Utf8.decodeAll? name with
  | none => none
  | some text =>
    if beginning.isPrefixOf text then some (text, files.isDirectory (directory.join name)) else none

theorem entriesMatching_eq_mergeSort :
    entriesMatching files directory beginning names =
      (names.filterMap (matched? files directory beginning)).mergeSort
        fun a b => !decide (b.1 < a.1) :=
  rfl

theorem matched?_eq_some_iff :
    matched? files directory beginning name = some entry ↔
      name = Utf8.encode entry.1 ∧ beginning <+: entry.1 ∧
        entry.2 = files.isDirectory (directory.join name) := by
  unfold matched?
  constructor
  · intro h
    split at h
    · cases h
    · next text htext =>
        rw [Option.ite_none_right_eq_some] at h
        obtain ⟨hbegin, hentry⟩ := h
        cases hentry
        exact ⟨Utf8.decodeAll?_eq_some_iff.1 htext, List.isPrefixOf_iff_prefix.1 hbegin, rfl⟩
  · rintro ⟨hname, hbegin, hdirectory⟩
    rw [Utf8.decodeAll?_eq_some_iff.2 hname]
    dsimp only
    rw [if_pos (List.isPrefixOf_iff_prefix.2 hbegin), ← hdirectory]

theorem mem_entriesMatching_iff :
    entry ∈ entriesMatching files directory beginning names ↔
      Utf8.encode entry.1 ∈ names ∧ beginning <+: entry.1 ∧
        entry.2 = files.isDirectory (directory.join (Utf8.encode entry.1)) := by
  rw [entriesMatching_eq_mergeSort, List.mem_mergeSort, List.mem_filterMap]
  simp only [matched?_eq_some_iff]
  constructor
  · rintro ⟨name, hname, rfl, hbegin, hdirectory⟩
    exact ⟨hname, hbegin, hdirectory⟩
  · rintro ⟨hname, hbegin, hdirectory⟩
    exact ⟨_, hname, rfl, hbegin, hdirectory⟩

/-- The entries of a directory that holds no name twice come in increasing order of their names. -/
theorem pairwise_entriesMatching (h : names.Nodup) :
    ((entriesMatching files directory beginning names).map Prod.fst).Pairwise (· < ·) := by
  have hsorted : (entriesMatching files directory beginning names).Pairwise
      fun a b => (!decide (b.1 < a.1)) = true := by
    refine List.pairwise_mergeSort ?_ ?_ _
    · intro a b c hab hbc
      simp only [Bool.not_eq_true', decide_eq_false_iff_not, not_lt] at hab hbc ⊢
      exact hab.trans hbc
    · intro a b
      simpa using le_total a.1 b.1
  have hnodup : ((entriesMatching files directory beginning names).map Prod.fst).Nodup := by
    have hperm := List.mergeSort_perm (names.filterMap (matched? files directory beginning))
      fun a b => !decide (b.1 < a.1)
    rw [entriesMatching_eq_mergeSort, (hperm.map Prod.fst).nodup_iff, List.map_filterMap]
    refine h.filterMap ?_
    -- a text is the name of one file
    intro name name' text hname hname'
    obtain ⟨entry, hentry, rfl⟩ := Option.map_eq_some_iff.1 hname
    obtain ⟨entry', hentry', hsame⟩ := Option.map_eq_some_iff.1 hname'
    rw [(matched?_eq_some_iff.1 hentry).1, (matched?_eq_some_iff.1 hentry').1, hsame]
  rw [List.Nodup, List.pairwise_map] at hnodup
  rw [List.pairwise_map]
  refine (hsorted.and hnodup).imp ?_
  rintro a b ⟨hle, hne⟩
  simp only [Bool.not_eq_true', decide_eq_false_iff_not, not_lt] at hle
  exact lt_of_le_of_ne hle hne

end CompletionSettings

end Promptline
