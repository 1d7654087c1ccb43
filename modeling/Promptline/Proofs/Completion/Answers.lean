import Promptline.Completion.Completer
import Promptline.Proofs.Completion.Grid

set_option autoImplicit false

/-! # What completion answers with

Candidates are only ever answered as a grid that was laid out from names, and so as at least one
row. -/

namespace Promptline

open Unicode

namespace Completion

/-- Candidates, if there are any, are a grid laid out from names. -/
def LaidOut : Completion → Prop
  | candidates grid => ∃ names width, Grid.layout names width = some grid
  | _ => True

theorem LaidOut.rowCount_pos {grid : Grid} (h : (candidates grid).LaidOut) :
    0 < grid.rowCount := by
  obtain ⟨names, width, hgrid⟩ := h
  exact Grid.rowCount_pos hgrid

theorem laidOut_ofNames (names : List (List Char)) (width : Nat) :
    (ofNames names width).LaidOut := by
  unfold ofNames
  split
  · next grid hgrid => exact ⟨names, width, hgrid⟩
  · trivial

end Completion

namespace CompletionSettings

theorem laidOut_completeCommand (table : CommandTable) (word : List Char) (width : Nat) :
    (completeCommand table word width).LaidOut := by
  unfold completeCommand
  split
  · trivial
  · trivial
  · exact Completion.laidOut_ofNames _ _

theorem laidOut_completeFile (s : CompletionSettings) (files : FileTree) (word : List Char)
    (width : Nat) : (s.completeFile files word width).1.LaidOut := by
  unfold completeFile
  dsimp only
  split
  · trivial
  · dsimp only
    split
    · trivial
    · trivial
    · exact Completion.laidOut_ofNames _ _

/-- Whatever there is to complete, an answer of candidates is a grid of names. -/
theorem laidOut_complete (s : CompletionSettings) (files : FileTree) (table : CommandTable)
    (r : CompletionRequest) : (s.complete files table r).1.LaidOut := by
  unfold complete
  dsimp only
  split
  · trivial
  split
  · exact laidOut_completeCommand _ _ _
  split
  · exact s.laidOut_completeFile files _ _
  · trivial

end CompletionSettings

end Promptline
