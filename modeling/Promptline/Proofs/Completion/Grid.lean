import Promptline.Completion.Grid
import Promptline.Proofs.Unicode.Alphabet

set_option autoImplicit false

/-! # What grids show

The rows of a grid hold characters of the names and spaces, nothing else, and a grid has a row. -/

namespace Promptline.Grid

open Unicode

theorem mem_of_mem_fitting {cluster : List Char} {width : Nat} {cs : List (List Char)}
    (h : cluster ∈ fitting width cs) : cluster ∈ cs := by
  induction cs generalizing width with
  | nil => simp [fitting] at h
  | cons first rest ih =>
      rw [fitting] at h
      split at h
      · rcases List.mem_cons.1 h with rfl | h
        · exact List.mem_cons_self ..
        · exact List.mem_cons_of_mem _ (ih h)
      · exact absurd h List.not_mem_nil

theorem mem_of_mem_truncate {c : Char} {name : List Char} {width : Nat}
    (h : c ∈ truncate name width) : c ∈ name := by
  obtain ⟨cluster, hcluster, hc⟩ := List.mem_flatten.1 h
  rw [← clusters_flatten name]
  exact List.mem_flatten.2 ⟨cluster, mem_of_mem_fitting hcluster, hc⟩

theorem mem_of_mem_cell {c : Char} {name : List Char} {widest width : Nat}
    (h : c ∈ cell widest width name) : c ∈ name := by
  unfold cell at h
  split at h
  · exact mem_of_mem_truncate h
  · exact h

section Chunks

variable {α : Type} {n fuel : Nat} {xs : List α}

theorem mem_of_mem_chunksWith {chunk : List α} (h : chunk ∈ chunksWith n fuel xs) :
    ∀ x ∈ chunk, x ∈ xs := by
  induction fuel generalizing xs with
  | zero => simp [chunksWith] at h
  | succ fuel ih =>
      cases xs with
      | nil => simp [chunksWith] at h
      | cons x rest =>
          rw [chunksWith] at h
          rcases List.mem_cons.1 h with rfl | h
          · exact fun y hy => List.mem_of_mem_take hy
          · exact fun y hy => List.mem_of_mem_drop (ih h y hy)

theorem chunks_ne_nil (h : xs ≠ []) : chunks n xs ≠ [] := by
  cases xs with
  | nil => exact absurd rfl h
  | cons x rest => simp [chunks, chunksWith]

end Chunks

section Layout

variable {names : List (List Char)} {width : Nat} {g : Grid}

/-- A grid has a row. -/
theorem rowCount_pos (h : layout names width = some g) : 0 < g.rowCount := by
  unfold layout at h
  split at h
  · exact absurd h (by simp)
  · next hne =>
      rw [← Option.some.inj h, rowCount, ofNames, List.length_map]
      refine List.length_pos_iff.2 (chunks_ne_nil ?_)
      simpa using hne

/-- The rows of a grid hold characters of the names, and spaces. -/
theorem mem_name_of_mem_row (h : layout names width = some g) {row : List Char}
    (hrow : row ∈ g.rows) {c : Char} (hc : c ∈ row) : c = ' ' ∨ ∃ name ∈ names, c ∈ name := by
  unfold layout at h
  split at h
  · exact absurd h (by simp)
  · rw [← Option.some.inj h, ofNames] at hrow
    -- a row is a chunk of the cells that are shown, each padded with spaces
    obtain ⟨chunk, hchunk, rfl⟩ := List.mem_map.1 hrow
    obtain ⟨shown, hshown, hc⟩ := List.mem_flatMap.1 hc
    obtain ⟨name, hname, rfl⟩ := List.mem_map.1 (mem_of_mem_chunksWith hchunk shown hshown)
    rcases List.mem_append.1 hc with hc | hc
    · exact Or.inr ⟨name, hname, mem_of_mem_cell hc⟩
    · exact Or.inl (List.eq_of_mem_replicate hc)

/-- Nothing in a grid of printed names is a control. -/
theorem printed_of_mem_rows (h : layout names width = some g)
    (hnames : ∀ name ∈ names, ∀ c ∈ name, isControl c = false) {row : List Char}
    (hrow : row ∈ g.rows) : ∀ c ∈ row, isControl c = false := by
  intro c hc
  rcases mem_name_of_mem_row h hrow hc with rfl | ⟨name, hname, hc⟩
  · decide
  · exact hnames name hname c hc

end Layout

end Promptline.Grid
