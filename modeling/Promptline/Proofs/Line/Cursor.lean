import Promptline.Line
import Promptline.Proofs.Unicode.Prefix

set_option autoImplicit false

/-! # The cursor stays in the line

Putting text in or taking it out may join the clusters on both sides of the place, so that there
are fewer of them. Every operation still leaves the cursor within the line, whatever the text
(`WellFormed.insert`, `WellFormed.erase?`, ..), because the cursor is counted over the text in
front of it, and text behind it cannot make that count too large. -/

namespace Promptline.Line

open Unicode

theorem wellFormed_empty : Line.empty.WellFormed :=
  Nat.le_refl 0

theorem wellFormed_ofText (text : List Char) : (ofText text).WellFormed :=
  Nat.le_refl _

variable (l : Line)

/-! ## Clusters in front of a place -/

theorem clusters_firstClusters (n : Nat) :
    clusters (l.firstClusters n) = (clusters l.text).take n :=
  clusters_flatten_take l.text n

theorem clusterCount_firstClusters (n : Nat) :
    clusterCount (l.firstClusters n) = min n l.length := by
  rw [clusterCount, clusters_firstClusters, List.length_take]
  rfl

/-- The word at the cursor starts at the cursor or in front of it. -/
theorem wordStart_le_cursor : l.wordStart ≤ l.cursor := by
  have hbefore : (clusters l.before).length = min l.cursor l.length :=
    l.clusterCount_firstClusters l.cursor
  rw [wordStart, hbefore]
  omega

/-- Nothing behind the cursor joins what stands in front of it. -/
theorem joining_before_after : joining l.before l.after = [] := by
  have hparts := joining_append_drop l.before l.after
  have hdrop : (clusters l.text).drop (min l.cursor l.length) =
      (clusters l.text).drop l.cursor := by
    rcases Nat.le_total l.cursor l.length with hle | hle
    · rw [Nat.min_eq_left hle]
    · rw [Nat.min_eq_right hle, List.drop_of_length_le hle]
      exact List.drop_length
  rw [before_append_after, before, clusterCount_firstClusters, hdrop] at hparts
  exact List.append_left_eq_self.1 hparts

/-! ## Clusters between two places -/

/-- The text of the clusters from `m` up to `n`. -/
def stretch (m n : Nat) : List Char :=
  (((clusters l.text).take n).drop m).flatten

theorem firstClusters_append_stretch {m n : Nat} (h : m ≤ n) :
    l.firstClusters m ++ l.stretch m n = l.firstClusters n := by
  have htake : (clusters l.text).take m = ((clusters l.text).take n).take m := by
    rw [List.take_take, Nat.min_eq_left h]
  rw [firstClusters, stretch, htake, ← List.flatten_append, List.take_append_drop]
  rfl

/-- The whole line is in front of its end. -/
theorem firstClusters_length : l.firstClusters l.length = l.text := by
  rw [firstClusters, length, clusterCount, List.take_length, clusters_flatten]

/-! ## Operations -/

theorem wellFormed_insert (s : List Char) : (l.insert s).WellFormed :=
  Nat.min_le_right _ _

/-- Texts put in one behind the other are one text, if nothing joins the first of them. -/
theorem insert_insert {s : List Char} (h : joining (l.before ++ s) l.after = []) (t : List Char) :
    (l.insert s).insert t = l.insert (s ++ t) := by
  have hcursor : (l.insert s).cursor = clusterCount (l.before ++ s) :=
    Nat.min_eq_left (clusterCount_le_append _ _)
  have hafter : (l.insert s).after = l.after := by
    have hparts := joining_append_drop (l.before ++ s) l.after
    rw [h, List.nil_append] at hparts
    rw [after, hcursor]
    exact hparts
  have hbefore : (l.insert s).before = l.before ++ s := by
    have htext := (l.insert s).before_append_after
    rw [hafter] at htext
    exact List.append_cancel_right htext
  rw [insert, hbefore, hafter, insert, List.append_assoc l.before]

theorem wellFormed_replaceBefore (start : Nat) (s : List Char) :
    (l.replaceBefore start s).WellFormed :=
  clusterCount_le_append _ _

theorem wellFormed_move (delta : Int) : (l.move delta).WellFormed := by
  have htarget : l.target delta ≤ l.length := by
    rw [target]
    omega
  exact htarget

variable {l}

/-- As many clusters stand in front of the cursor as it counts. -/
theorem WellFormed.clusterCount_before (h : l.WellFormed) : clusterCount l.before = l.cursor :=
  (l.clusterCount_firstClusters l.cursor).trans (Nat.min_eq_left h)

/-- The cursor arrives at the end of the line. -/
theorem WellFormed.cursor_moveToEnd (h : l.WellFormed) : l.moveToEnd.cursor = l.length := by
  have hcursor : l.cursor ≤ l.length := h
  rw [moveToEnd, distanceToEnd]
  dsimp only
  omega

theorem WellFormed.moveToEnd (h : l.WellFormed) : l.moveToEnd.WellFormed :=
  Nat.le_of_eq h.cursor_moveToEnd

/-- Moving back by as much as the end was away. -/
theorem WellFormed.move_moveToEnd (h : l.WellFormed) :
    l.moveToEnd.move (-l.distanceToEnd) = l := by
  have hcursor : l.cursor ≤ l.length := h
  have hlength : l.moveToEnd.length = l.length := rfl
  have htarget : l.moveToEnd.target (-l.distanceToEnd) = l.cursor := by
    rw [target, h.cursor_moveToEnd, hlength, distanceToEnd]
    omega
  rw [move, htarget]
  rfl

/-- What the way back leads over is what stood behind the cursor. -/
theorem WellFormed.widthBefore_moveToEnd (h : l.WellFormed) :
    l.moveToEnd.widthBefore l.distanceToEnd = l.widthAfter := by
  have hcursor : l.cursor ≤ l.length := h
  have hback : l.length - l.distanceToEnd = l.cursor := by
    rw [distanceToEnd]
    omega
  have hlast : l.moveToEnd.lastBefore l.distanceToEnd = l.after := by
    have hall : (clusters l.text).take l.length = clusters l.text := List.take_length
    rw [lastBefore, h.cursor_moveToEnd, hback]
    show (((clusters l.text).take l.length).drop l.cursor).flatten = l.after
    rw [hall]
    rfl
  rw [widthBefore, hlast]
  rfl

/-- What is left of an erasure. The clusters in front of the cursor stay as they are, whatever then
    stands behind them. -/
theorem WellFormed.erase? (h : l.WellFormed) {erasure : Erasure} {removed : List Char} {l' : Line}
    (he : l.erase? erasure = some (removed, l')) : l'.WellFormed := by
  have hcursor : l.cursor ≤ l.length := h
  cases erasure with
  | previous =>
      rw [Line.erase?] at he
      split at he
      · cases he
      · cases he
        calc l.cursor - 1
          _ = clusterCount (l.firstClusters (l.cursor - 1)) := by
              rw [clusterCount_firstClusters]
              omega
          _ ≤ clusterCount (l.firstClusters (l.cursor - 1) ++ l.after) :=
              clusterCount_le_append _ _
  | toEnd =>
      rw [Line.erase?] at he
      split at he
      · cases he
      · cases he
        exact Nat.le_of_eq h.clusterCount_before.symm
  | toBegin =>
      rw [Line.erase?] at he
      split at he
      · cases he
      · cases he
        exact Nat.zero_le _
  | everything =>
      rw [Line.erase?] at he
      split at he
      · cases he
      · cases he
        exact wellFormed_empty

end Promptline.Line
