import Mathlib.Data.Char
import Mathlib.Data.List.Lex
import Promptline.Completion.CommandTable

set_option autoImplicit false

/-! # Names of commands in order

The names of a command table are in increasing order, each of them once (`CommandTable.Ordered`):
so it is with the empty table, and rebuilding a table or marking it as stale keeps it. -/

namespace Promptline.CommandTable

variable {files : FileTree} {commands : List (List Char × Path)} {t : CommandTable}

/-- The names of commands increase, and so none of them is there twice. -/
def Increasing (commands : List (List Char × Path)) : Prop :=
  (commands.map Prod.fst).Pairwise (· < ·)

/-- The names of a table increase. -/
def Ordered (t : CommandTable) : Prop :=
  Increasing t.commands

/-! ## Adding a command -/

theorem mem_names_insert {name other : List Char} {path : Path} :
    other ∈ (insert name path commands).map Prod.fst ↔
      other = name ∨ other ∈ commands.map Prod.fst := by
  induction commands with
  | nil => simp [insert]
  | cons command rest ih =>
      obtain ⟨first, p⟩ := command
      rw [insert]
      split
      · simp
      · split
        · simp [ih, or_left_comm]
        · next h h' =>
            obtain rfl : name = first := le_antisymm (not_lt.1 h') (not_lt.1 h)
            simp

theorem Increasing.insert (h : Increasing commands) (name : List Char) (path : Path) :
    Increasing (insert name path commands) := by
  induction commands with
  | nil => exact List.pairwise_singleton _ _
  | cons command rest ih =>
      obtain ⟨first, p⟩ := command
      obtain ⟨hfirst, hrest⟩ := List.pairwise_cons.1 h
      rw [CommandTable.insert]
      split
      · next hlt =>
          refine List.pairwise_cons.2 ⟨?_, h⟩
          intro other hother
          rcases List.mem_cons.1 hother with rfl | hother
          · exact hlt
          · exact hlt.trans (hfirst other hother)
      · split
        · next hlt =>
            refine List.pairwise_cons.2 ⟨?_, ih hrest⟩
            intro other hother
            rcases mem_names_insert.1 hother with rfl | hother
            · exact hlt
            · exact hfirst other hother
        · next h h' =>
            obtain rfl : name = first := le_antisymm (not_lt.1 h') (not_lt.1 h)
            exact List.pairwise_cons.2 ⟨hfirst, hrest⟩

/-! ## Rebuilding a table -/

theorem Increasing.scan {commands' : List (List Char × Path)} {directory : Path}
    (h : Increasing commands) (hscan : scan files commands directory = .ok commands') :
    Increasing commands' := by
  unfold CommandTable.scan at hscan
  split at hscan
  · cases hscan
  · next names _ =>
      cases hscan
      generalize commandsIn files directory names = found
      induction found generalizing commands with
      | nil => exact h
      | cons command rest ih => exact ih (h.insert command.1 command.2)

theorem Increasing.scanAll (h : Increasing commands) (searchPaths : List Path) :
    Increasing (scanAll files commands searchPaths).2 := by
  induction searchPaths generalizing commands with
  | nil => exact h
  | cons directory rest ih =>
      rw [CommandTable.scanAll]
      split
      · next hscan => exact ih (h.scan hscan)
      · exact ih h

theorem ordered_empty : empty.Ordered :=
  List.Pairwise.nil

theorem Ordered.invalidate (h : t.Ordered) : t.invalidate.Ordered :=
  h

theorem ordered_rebuild (t : CommandTable) (files : FileTree) (searchPaths : List Path) :
    (t.rebuild files searchPaths).2.Ordered :=
  Increasing.scanAll ordered_empty searchPaths

end Promptline.CommandTable
