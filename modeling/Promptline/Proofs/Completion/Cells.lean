import Mathlib.Algebra.BigOperators.Group.List.Basic
import Mathlib.Algebra.Order.Floor.Div
import Mathlib.Data.List.Forall2
import Mathlib.Order.Bounds.Basic
import Promptline.Proofs.Completion.Grid
import Promptline.Proofs.Unicode.ClusterWidth

set_option autoImplicit false

/-! # Cells of a grid

A grid shows each name in one cell, row by row. A cell is the whole name if all names leave room for
a space, and else as much of it, cluster by cluster, as fits the terminal (`LongestFit`). There are
as many columns as fit, and no more rows than needed (`layout_exact`). Since a text is no wider than
its clusters, what is shown of a name that was cut fits its cell as well.

A name that is exactly as wide as the terminal fits as a whole, and leaves no room for a space
(`whole_name_without_space`). -/

namespace Promptline.Grid

open Unicode

/-! ## What fits -/

/-- The longest beginning of whole clusters of a name whose widths add up to `width` at most. -/
def LongestFit (width : Nat) (name shown : List Char) : Prop :=
  ∃ front, front <+: clusters name ∧ shown = front.flatten ∧ columnsOf front ≤ width ∧
    ∀ other, other <+: clusters name → columnsOf other ≤ width → other <+: front

theorem fitting_prefix (width : Nat) (cs : List (List Char)) : fitting width cs <+: cs := by
  induction cs generalizing width with
  | nil => exact List.prefix_rfl
  | cons c rest ih =>
      rw [fitting]
      split
      · exact (List.prefix_cons_inj c).2 (ih _)
      · exact List.nil_prefix

theorem columnsOf_fitting_le (width : Nat) (cs : List (List Char)) :
    columnsOf (fitting width cs) ≤ width := by
  induction cs generalizing width with
  | nil => exact Nat.zero_le width
  | cons c rest ih =>
      rw [fitting]
      split
      · next hfits =>
          have hrest := ih (width - displayWidth c)
          rw [columnsOf_cons]
          omega
      · exact Nat.zero_le width

/-- Whatever fits is part of it. -/
theorem prefix_fitting {width : Nat} {cs other : List (List Char)} (hother : other <+: cs)
    (hfits : columnsOf other ≤ width) : other <+: fitting width cs := by
  induction cs generalizing width other with
  | nil => exact hother
  | cons c rest ih =>
      cases other with
      | nil => exact List.nil_prefix
      | cons d other =>
          obtain ⟨rfl, hrest⟩ := List.cons_prefix_cons.1 hother
          rw [columnsOf_cons] at hfits
          rw [fitting, if_pos (by omega)]
          exact (List.prefix_cons_inj d).2 (ih hrest (by omega))

/-- What was cut to fit is not wider, read as a text of its own. -/
theorem LongestFit.displayWidth_le {width : Nat} {name shown : List Char}
    (h : LongestFit width name shown) : displayWidth shown ≤ width := by
  obtain ⟨front, hfront, rfl, hfits, -⟩ := h
  have hclusters : clusters front.flatten = front := by
    rw [List.prefix_iff_eq_take.1 hfront]
    exact clusters_flatten_take name front.length
  have hwidth := displayWidth_le_columnsOf front.flatten
  rw [hclusters] at hwidth
  exact hwidth.trans hfits

theorem longestFit_truncate (width : Nat) (name : List Char) :
    LongestFit width name (truncate name width) :=
  ⟨_, fitting_prefix _ _, rfl, columnsOf_fitting_le _ _, fun _ => prefix_fitting⟩

/-! ## Rows of cells -/

section Rows

variable {α : Type} {n : Nat}

/-- The cells of a row, if a row has room for `n` of them. -/
def rowOf (n : Nat) (cells : List α) (r : Nat) : List α :=
  (cells.drop (r * n)).take n

/-- One row more for every `n` cells. -/
theorem ceilDiv_eq_succ (length : Nat) (hn : 0 < n) (hlength : 0 < length) :
    length ⌈/⌉ n = (length - n) ⌈/⌉ n + 1 := by
  rw [Nat.ceilDiv_eq_add_pred_div, Nat.ceilDiv_eq_add_pred_div]
  rcases Nat.lt_or_ge length n with hless | hmore
  · rw [Nat.sub_eq_zero_of_le (Nat.le_of_lt hless), Nat.zero_add,
      Nat.div_eq_of_lt (Nat.sub_lt hn Nat.one_pos)]
    exact Nat.div_eq_of_lt_le (by omega) (by omega)
  · rw [← Nat.add_div_right _ hn]
    congr 1
    omega

theorem chunksWith_eq {fuel : Nat} {cells : List α} (hn : 0 < n) (hfuel : cells.length ≤ fuel) :
    chunksWith n fuel cells = (List.range (cells.length ⌈/⌉ n)).map (rowOf n cells) := by
  induction fuel generalizing cells with
  | zero =>
      obtain rfl := List.length_eq_zero_iff.1 (Nat.le_zero.1 hfuel)
      simp [chunksWith]
  | succ fuel ih =>
      cases cells with
      | nil => simp [chunksWith]
      | cons c rest =>
          have hrest : ((c :: rest).drop n).length ≤ fuel := by
            rw [List.length_drop]
            simp only [List.length_cons] at hfuel ⊢
            omega
          rw [chunksWith, ih hrest, List.length_drop,
            ceilDiv_eq_succ (c :: rest).length hn (Nat.succ_pos _),
            List.range_succ_eq_map, List.map_cons, List.map_map]
          congr 1
          · rw [rowOf, Nat.zero_mul, List.drop_zero]
          · refine List.map_congr_left fun r _ => ?_
            rw [Function.comp_apply, rowOf, rowOf, List.drop_drop, Nat.succ_mul, Nat.add_comm n]

/-- **Groups of `n` cells** are the rows, one after another. -/
theorem chunks_eq_rows (hn : 0 < n) (cells : List α) :
    chunks n cells = (List.range (cells.length ⌈/⌉ n)).map (rowOf n cells) :=
  chunksWith_eq hn (Nat.le_refl _)

/-- Every cell is in one row, and they come in order. -/
theorem flatMap_rowOf (hn : 0 < n) (cells : List α) :
    (List.range (cells.length ⌈/⌉ n)).flatMap (rowOf n cells) = cells := by
  suffices htake : ∀ count, (List.range count).flatMap (rowOf n cells) = cells.take (count * n) by
    rw [htake]
    have hround : cells.length ≤ n • (cells.length ⌈/⌉ n) := le_smul_ceilDiv hn
    exact List.take_of_length_le (hround.trans_eq (Nat.mul_comm n _))
  intro count
  induction count with
  | zero => simp
  | succ count ih =>
      rw [List.range_succ, List.flatMap_append, ih, List.flatMap_singleton, rowOf, Nat.succ_mul,
        List.take_add]

end Rows

/-! ## The width of the columns, and how many there are -/

theorem widest_fold (names : List (List Char)) (start : Nat) :
    let width := names.foldl (fun w name => max w (displayWidth name)) start
    (start ≤ width ∧ ∀ name ∈ names, displayWidth name ≤ width) ∧
      (width = start ∨ ∃ name ∈ names, displayWidth name = width) := by
  induction names generalizing start with
  | nil => exact ⟨⟨Nat.le_refl _, nofun⟩, Or.inl rfl⟩
  | cons first rest ih =>
      obtain ⟨⟨hstart, hle⟩, hmem⟩ := ih (max start (displayWidth first))
      rw [List.foldl_cons]
      refine ⟨⟨(Nat.le_max_left _ _).trans hstart, fun name hname => ?_⟩, ?_⟩
      · rcases List.mem_cons.1 hname with rfl | hname
        · exact (Nat.le_max_right _ _).trans hstart
        · exact hle name hname
      · rcases hmem with heq | ⟨name, hname, heq⟩
        · rw [heq]
          rcases Nat.le_total start (displayWidth first) with hless | hless
          · exact Or.inr ⟨first, List.mem_cons_self, (Nat.max_eq_right hless).symm⟩
          · exact Or.inl (Nat.max_eq_left hless)
        · exact Or.inr ⟨name, List.mem_cons_of_mem _ hname, heq⟩

theorem le_widest {names : List (List Char)} {name : List Char} (h : name ∈ names) :
    displayWidth name ≤ widest names :=
  (widest_fold names 0).1.2 name h

/-- The width of the widest name is one of the widths, unless there are no names. -/
theorem isGreatest_widest {names : List (List Char)} (h : names ≠ []) :
    IsGreatest {w | ∃ name ∈ names, displayWidth name = w} (widest names) := by
  refine ⟨?_, fun w ⟨name, hname, hw⟩ => hw ▸ le_widest hname⟩
  rcases (widest_fold names 0).2 with hzero | hmem
  · obtain ⟨name, hname⟩ := List.exists_mem_of_ne_nil names h
    exact ⟨name, hname, Nat.eq_zero_of_le_zero ((le_widest hname).trans_eq hzero) |>.trans
      hzero.symm⟩
  · exact hmem

theorem isGreatest_columnCount {columnWidth width : Nat} (hpos : 0 < columnWidth)
    (hle : columnWidth ≤ width) :
    IsGreatest {count | 1 ≤ count ∧ count * columnWidth ≤ width} (max 1 (width / columnWidth)) := by
  rw [Nat.max_eq_right (Nat.div_pos hle hpos)]
  exact ⟨⟨Nat.div_pos hle hpos, Nat.div_mul_le_self _ _⟩,
    fun count hcount => (Nat.le_div_iff_mul_le hpos).2 hcount.2⟩

/-! ## The grid -/

/-- What a grid shows of names on a terminal of `width` columns: `widest` is how wide the widest
    name is, and `cells` is what is shown of each of them. -/
structure Shows (names : List (List Char)) (width : Nat) (grid : Grid) (widest : Nat)
    (cells : List (List Char)) : Prop where
  isWidest : IsGreatest {w | ∃ name ∈ names, displayWidth name = w} widest
  whole : widest + 1 ≤ width → grid.columnWidth = widest + 1 ∧ cells = names
  cut : width < widest + 1 →
    grid.columnWidth = width ∧ List.Forall₂ (LongestFit width) names cells
  columnWidth_pos : 0 < grid.columnWidth
  columnCount :
    IsGreatest {count | 1 ≤ count ∧ count * grid.columnWidth ≤ width} grid.columnCount
  rowCount : grid.rowCount = names.length ⌈/⌉ grid.columnCount
  rows : grid.rows = (List.range grid.rowCount).map fun r =>
    (rowOf grid.columnCount cells r).flatMap fun cell =>
      cell ++ List.replicate (grid.columnWidth - displayWidth cell) ' '
  inOrder : (List.range grid.rowCount).flatMap (rowOf grid.columnCount cells) = cells
  /-- No cell is wider than a column. -/
  fits : ∀ cell ∈ cells, displayWidth cell ≤ grid.columnWidth
  spaced : widest + 1 ≤ width → ∀ cell ∈ cells, 1 ≤ grid.columnWidth - displayWidth cell
  /-- Cells and spaces of a row take up all of its columns, and these are not wider than the
      terminal. -/
  filled : ∀ r, ((rowOf grid.columnCount cells r).map fun cell =>
      displayWidth cell + (grid.columnWidth - displayWidth cell)).sum =
        (rowOf grid.columnCount cells r).length * grid.columnWidth ∧
      (rowOf grid.columnCount cells r).length * grid.columnWidth ≤ width

section Layout

variable {names : List (List Char)} {width : Nat}

theorem cells_of_whole (h : widest names + 1 ≤ width) :
    names.map (cell (widest names) width) = names := by
  have hcell : cell (widest names) width = id := by
    funext name
    exact if_neg (Nat.not_lt.2 h)
  rw [hcell, List.map_id]

theorem cells_of_cut (h : width < widest names + 1) :
    List.Forall₂ (LongestFit width) names (names.map (cell (widest names) width)) := by
  rw [List.forall₂_map_right_iff, List.forall₂_same]
  intro name _
  rw [cell, if_pos h]
  exact longestFit_truncate width name

theorem displayWidth_cell_le {shown : List Char}
    (h : shown ∈ names.map (cell (widest names) width)) :
    displayWidth shown ≤ columnWidthFor (widest names) width := by
  obtain ⟨name, hname, rfl⟩ := List.mem_map.1 h
  have hle := le_widest hname
  unfold cell columnWidthFor
  split
  · next hcut =>
      rw [Nat.min_eq_right (Nat.le_of_lt hcut)]
      exact (longestFit_truncate width name).displayWidth_le
  · omega

/-- A row of cells that fit, with the spaces behind them. -/
theorem sum_filled {cells : List (List Char)} {columnWidth : Nat}
    (h : ∀ cell ∈ cells, displayWidth cell ≤ columnWidth) :
    (cells.map fun cell => displayWidth cell + (columnWidth - displayWidth cell)).sum =
      cells.length * columnWidth := by
  have hcells : ∀ cell ∈ cells,
      displayWidth cell + (columnWidth - displayWidth cell) = columnWidth := fun cell hcell =>
    Nat.add_sub_of_le (h cell hcell)
  rw [List.map_congr_left hcells, List.map_const', List.sum_replicate, smul_eq_mul]

/-- The grid of names. -/
theorem shows_ofNames (hnames : names ≠ []) (hwidth : 0 < width) :
    Shows names width (ofNames names width) (widest names)
      (names.map (cell (widest names) width)) := by
  have hpos : 0 < columnWidthFor (widest names) width := by
    unfold columnWidthFor
    omega
  have hle : columnWidthFor (widest names) width ≤ width := Nat.min_le_right _ _
  have hcount := isGreatest_columnCount hpos hle
  have hfits : ∀ shown ∈ names.map (cell (widest names) width),
      displayWidth shown ≤ columnWidthFor (widest names) width := fun _ => displayWidth_cell_le
  have hrows : (ofNames names width).rows =
      (List.range (names.length ⌈/⌉ (ofNames names width).columnCount)).map fun r =>
        (rowOf (ofNames names width).columnCount (names.map (cell (widest names) width)) r).flatMap
          fun shown => pad shown (ofNames names width).columnWidth := by
    rw [ofNames]
    dsimp only
    rw [chunks_eq_rows hcount.1.1, List.map_map, List.length_map]
    rfl
  have hrowCount : (ofNames names width).rowCount =
      names.length ⌈/⌉ (ofNames names width).columnCount := by
    rw [rowCount, hrows, List.length_map, List.length_range]
  refine
    { isWidest := isGreatest_widest hnames
      whole := fun h => ⟨Nat.min_eq_left h, cells_of_whole h⟩
      cut := fun h => ⟨Nat.min_eq_right (Nat.le_of_lt h), cells_of_cut h⟩
      columnWidth_pos := hpos
      columnCount := hcount
      rowCount := hrowCount
      rows := hrowCount ▸ hrows
      inOrder := ?_
      fits := hfits
      spaced := fun h shown hshown => ?_
      filled := fun r => ⟨?_, ?_⟩ }
  · have hall := flatMap_rowOf hcount.1.1 (names.map (cell (widest names) width))
    rw [List.length_map] at hall
    rw [hrowCount]
    exact hall
  · rw [cells_of_whole h] at hshown
    have hshorter := le_widest hshown
    have hwider : (ofNames names width).columnWidth = widest names + 1 := Nat.min_eq_left h
    omega
  · exact sum_filled fun shown hshown =>
      hfits shown (List.mem_of_mem_drop (List.mem_of_mem_take hshown))
  · exact (Nat.mul_le_mul_right _ (List.length_take_le _ _)).trans hcount.1.2

/-- **Which grid names are laid out in.** There is one unless there are no names, and a terminal
    counts as one column wide at least. -/
theorem layout_exact (names : List (List Char)) (width : Nat) :
    (layout names width = none ↔ names = []) ∧
      ∀ grid, layout names width = some grid →
        ∃ widest cells, Shows names (max width 1) grid widest cells := by
  unfold layout
  cases names with
  | nil => exact ⟨⟨fun _ => rfl, fun _ => rfl⟩, nofun⟩
  | cons first rest =>
      refine ⟨⟨nofun, nofun⟩, fun grid h => ?_⟩
      rw [Nat.max_comm, ← Option.some.inj h]
      exact ⟨_, _, shows_ofNames (List.cons_ne_nil _ _) (Nat.le_max_left 1 width)⟩

end Layout

theorem layout_exact_wide_name :
    layout ["日本語".toList, "ab".toList] 5 = some ⟨["日本 ".toList, "ab   ".toList], 5, 1⟩ ∧
      ∃ widest cells, Shows ["日本語".toList, "ab".toList] 5
        ⟨["日本 ".toList, "ab   ".toList], 5, 1⟩ widest cells := by
  have hlayout : layout ["日本語".toList, "ab".toList] 5 =
      some ⟨["日本 ".toList, "ab   ".toList], 5, 1⟩ := by decide +kernel
  exact ⟨hlayout, (layout_exact _ 5).2 _ hlayout⟩

/-- That no name is cut does not mean that there is a space behind each of them. -/
theorem whole_name_without_space :
    ¬ ∀ (names : List (List Char)) (width : Nat) (grid : Grid), layout names width = some grid →
      names.map (cell (widest names) (max 1 width)) = names →
      ∀ name ∈ names, 1 ≤ grid.columnWidth - displayWidth name := by
  intro hspaced
  have hlayout : layout ["abcde".toList] 5 = some ⟨["abcde".toList], 5, 1⟩ := by decide +kernel
  have hwhole : ["abcde".toList].map (cell (widest ["abcde".toList]) (max 1 5)) =
      ["abcde".toList] := by decide +kernel
  have hwidth : displayWidth "abcde".toList = 5 := by decide +kernel
  have hspace := hspaced _ _ _ hlayout hwhole _ List.mem_cons_self
  rw [hwidth] at hspace
  exact absurd hspace (by decide)

end Promptline.Grid
