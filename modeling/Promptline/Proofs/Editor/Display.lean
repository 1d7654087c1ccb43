import Promptline.Proofs.Editor.Events
import Promptline.Proofs.Terminal.Screen

set_option autoImplicit false

/-! # A line on the screen

`Displays` says that a screen shows a text on the row of the cursor and rows of text right below,
and nothing else down there, the cursor standing inside the text. Everything that an editor writes
is put together from a few pieces, and each of them leads from one such state to another. Nothing
here asks what the text is made of but that it is printed. -/

namespace Promptline.Terminal

open Unicode Edit

/-- The cursor's row shows `left` in front of the cursor and `right` behind it; the rows below show
    `rows`, and below them there is nothing. -/
structure Displays (s : Screen) (left right : List Char) (rows : List (List Char)) : Prop where
  stage : s.stage = .text
  column : s.column = extent left
  row : s.cells s.row = Row.ofText (left ++ right)
  below : ∀ i, s.cells (s.row + 1 + i) = Row.ofText (rows.getD i [])

theorem displays_clear : Displays .clear [] [] [] :=
  ⟨rfl, rfl, rfl, fun _ => rfl⟩

/-- As far as the cursor, the cursor's row shows `left`; what stands behind it does not matter. -/
structure Starts (s : Screen) (left : List Char) (rows : List (List Char)) : Prop where
  stage : s.stage = .text
  column : s.column = extent left
  row : (s.cells s.row).Begins left
  below : ∀ i, s.cells (s.row + 1 + i) = Row.ofText (rows.getD i [])

/-- No character of a text is a control. -/
def Printed (t : List Char) : Prop :=
  ∀ c ∈ t, isControl c = false

namespace Starts

variable {s : Screen} {left t : List Char} {rows : List (List Char)}

theorem print (h : Starts s left rows) (ht : Printed t) :
    Starts (s.feed t) (left ++ t) rows := by
  rw [Screen.feed_printed h.stage ht, h.column]
  refine ⟨h.stage, (extent_append left t).symm, ?_, fun i => ?_⟩
  · simp only [Screen.onRow, if_true]
    exact h.row.putAll t
  · simp only [Screen.onRow]
    rw [if_neg (by omega)]
    exact h.below i

theorem eraseLineToEnd (h : Starts s left rows) :
    Displays (s.feed Event.eraseLineToEnd.encode) left [] rows := by
  rw [Screen.feed_eraseLineToEnd h.stage, h.column]
  refine ⟨h.stage, h.column, ?_, fun i => ?_⟩
  · simp only [Screen.onRow, if_true, List.append_nil]
    exact h.row.eraseFrom
  · simp only [Screen.onRow]
    rw [if_neg (by omega)]
    exact h.below i

end Starts

namespace Displays

variable {s : Screen} {left mid right t : List Char} {rows : List (List Char)}

/-! ## Printing and erasing -/

theorem starts (h : Displays s left right rows) : Starts s left rows where
  stage := h.stage
  column := h.column
  row := by
    rw [h.row]
    exact Row.begins_ofText left right
  below := h.below

/-- Text that is printed over what stands behind the cursor, and covers it. -/
theorem print (h : Displays s left right rows) (ht : Printed t)
    (hle : extent right ≤ extent t) : Displays (s.feed t) (left ++ t) [] rows := by
  have hstarts := h.starts.print ht
  refine ⟨hstarts.stage, hstarts.column, ?_, hstarts.below⟩
  -- `t` covers `right`, so what is blank behind `right` is blank behind `t`
  have hblank : (s.cells s.row).BlankFrom (extent (left ++ right)) := by
    rw [h.row]
    exact Row.blankFrom_ofText _
  have hrow : (s.feed t).cells (s.feed t).row = (s.cells s.row).putAll (extent left) t := by
    rw [Screen.feed_printed h.stage ht, h.column]
    simp only [Screen.onRow, if_true]
  rw [List.append_nil]
  refine hstarts.row.eq_ofText fun y hy => ?_
  rw [hrow]
  refine hblank.putAll t y ?_
  simp only [extent_append] at hy ⊢
  omega

/-- Erasing what stands behind the cursor. -/
theorem eraseLineToEnd (h : Displays s left right rows) :
    Displays (s.feed Event.eraseLineToEnd.encode) left [] rows :=
  h.starts.eraseLineToEnd

/-- Text that is printed over what stands behind the cursor, the rest of which is then erased. -/
theorem print_erase (h : Displays s left right rows) (ht : Printed t) :
    Displays (s.feed (t ++ Event.eraseLineToEnd.encode)) (left ++ t) [] rows := by
  rw [Screen.feed_append]
  exact (h.starts.print ht).eraseLineToEnd

/-! ## Moving along the row -/

theorem toNat_columns {w : Nat} (h : w ≤ 65535) : (columns w).toNat = w := by
  rw [columns, UInt16.toNat_ofNat', Nat.min_eq_left h]
  omega

/-- The cursor moves back over `mid`. -/
theorem backward (h : Displays s (left ++ mid) right rows) {w : Nat} (hw : w = extent mid)
    (hle : w ≤ 65535) : Displays (s.feed (Edit.backward w)) left (mid ++ right) rows := by
  have hrow : s.cells s.row = Row.ofText (left ++ (mid ++ right)) := by
    rw [h.row, List.append_assoc]
  have hcol : s.column = extent left + w := by rw [h.column, extent_append, hw]
  unfold Edit.backward
  split
  · next h0 =>
      rw [h0, Nat.add_zero] at hcol
      exact ⟨h.stage, hcol, hrow, h.below⟩
  · next h0 =>
      have hn := toNat_columns hle
      rw [Screen.feed_cursorBackward h.stage (by omega)]
      refine ⟨h.stage, ?_, hrow, h.below⟩
      simp only [hcol, hn]
      omega

/-- The cursor moves on over `mid`. -/
theorem forward (h : Displays s left (mid ++ right) rows) {w : Nat} (hw : w = extent mid)
    (hle : w ≤ 65535) : Displays (s.feed (Edit.forward w)) (left ++ mid) right rows := by
  have hrow : s.cells s.row = Row.ofText (left ++ mid ++ right) := by
    rw [h.row, List.append_assoc]
  have hcol : extent (left ++ mid) = s.column + w := by rw [h.column, extent_append, hw]
  unfold Edit.forward
  split
  · next h0 =>
      rw [h0, Nat.add_zero] at hcol
      exact ⟨h.stage, hcol.symm, hrow, h.below⟩
  · next h0 =>
      have hn := toNat_columns hle
      rw [Screen.feed_cursorForward h.stage (by omega)]
      refine ⟨h.stage, ?_, hrow, h.below⟩
      simp only [hcol, hn]

/-- The next row, if nothing stands below, is a fresh one. -/
theorem feed_lineBreak {s : Screen} (hs : s.stage = .text)
    (hbelow : ∀ i, s.cells (s.row + 1 + i) = Row.ofText []) :
    Displays (s.feed Edit.lineBreak) [] [] [] := by
  rw [Edit.lineBreak, Screen.feed_lineBreak hs]
  refine ⟨hs, rfl, hbelow 0, fun i => ?_⟩
  have hi := hbelow (1 + i)
  rw [← Nat.add_assoc] at hi
  exact hi

theorem lineBreak (h : Displays s left right []) : Displays (s.feed Edit.lineBreak) [] [] [] :=
  feed_lineBreak h.stage h.below

/-! ## Rows below -/

/-- Rows printed one below the other from the row below the cursor on. -/
theorem feed_rowsBelow {s : Screen} (hs : s.stage = .text)
    (hbelow : ∀ i, s.cells (s.row + 1 + i) = Row.ofText [])
    (hrows : ∀ row ∈ rows, Printed row) :
    (s.feed (rowsBelow rows)).stage = .text ∧
      (s.feed (rowsBelow rows)).row = s.row + rows.length ∧
      (∀ r, r ≤ s.row → (s.feed (rowsBelow rows)).cells r = s.cells r) ∧
      (∀ i, (s.feed (rowsBelow rows)).cells (s.row + 1 + i) = Row.ofText (rows.getD i [])) := by
  induction rows generalizing s with
  | nil => exact ⟨hs, rfl, fun _ _ => rfl, by simpa [rowsBelow] using hbelow⟩
  | cons row rest ih =>
      -- the first row goes to the fresh row below the cursor, the others below that
      have hprinted := hrows row (List.mem_cons_self ..)
      have hrow := (feed_lineBreak hs hbelow).print hprinted (Nat.zero_le _)
      have hfeed : s.feed (rowsBelow (row :: rest)) =
          (({ s with row := s.row + 1, column := 0 } : Screen).feed row).feed (rowsBelow rest) := by
        rw [rowsBelow, List.flatMap_cons, ← rowsBelow, Screen.feed_append, Screen.feed_append,
          Edit.lineBreak, Screen.feed_lineBreak hs]
      rw [Edit.lineBreak, Screen.feed_lineBreak hs] at hrow
      rw [Screen.feed_printed (s := { s with row := s.row + 1, column := 0 }) hs hprinted]
        at hrow hfeed
      obtain ⟨hstage, hlast, habove, hrest⟩ := ih hrow.stage hrow.below
        fun r hr => hrows r (List.mem_cons_of_mem _ hr)
      rw [hfeed]
      simp only [Screen.onRow] at hstage hlast habove hrest hrow ⊢
      refine ⟨hstage, by rw [hlast, List.length_cons]; omega, fun r hr => ?_, fun i => ?_⟩
      · rw [habove r (by omega), if_neg (by omega)]
      · cases i with
        | zero =>
            have hfirst := hrow.row
            simp only [if_true, List.nil_append, List.append_nil] at hfirst
            rw [Nat.add_zero, habove _ (Nat.le_refl _), if_pos rfl, hfirst, List.getD_cons_zero]
        | succ i =>
            have hi := hrest i
            rw [Nat.add_right_comm (s.row + 1) 1 i, Nat.add_assoc (s.row + 1) i 1] at hi
            exact hi

/-- Rows shown below a line, and the cursor brought back to the beginning of the line. -/
theorem showRows (h : Displays s left right []) (hrows : ∀ row ∈ rows, Printed row)
    {n : Nat} (hn : n = rows.length) (hpos : 0 < n) (hle : n ≤ 65535) :
    Displays (s.feed (rowsBelow rows ++ (Event.cursorPreviousLine (columns n)).encode))
      [] (left ++ right) rows := by
  obtain ⟨hstage, hlast, habove, hbelow⟩ := feed_rowsBelow h.stage h.below hrows
  have hcount := toNat_columns hle
  rw [Screen.feed_append, Screen.feed_cursorPreviousLine hstage (by omega), hcount, hlast, hn,
    Nat.add_sub_cancel]
  exact ⟨hstage, rfl, (habove _ (Nat.le_refl _)).trans h.row, hbelow⟩

/-- Rows wiped from the row below the cursor on. -/
theorem feed_wipedRows (n : Nat) {s : Screen} (hs : s.stage = .text) :
    (s.feed (wipedRows n)).stage = .text ∧
      (s.feed (wipedRows n)).saved = s.saved ∧
      (∀ r, (s.feed (wipedRows n)).cells r =
        if s.row < r ∧ r ≤ s.row + n then Row.ofText [] else s.cells r) := by
  induction n generalizing s with
  | zero =>
      refine ⟨hs, rfl, fun r => ?_⟩
      rw [if_neg (by omega)]
      rfl
  | succ n ih =>
      have hnext : s.feed (wipedRows (n + 1)) =
          (Screen.onRow { s with row := s.row + 1, column := 0 } fun _ => Row.ofText []).feed
            (wipedRows n) := by
        rw [wipedRows, Screen.feed_append, Screen.feed_append,
          Screen.feed_cursorNextLine hs (by decide), Screen.feed_eraseLine (by exact hs)]
        rfl
      -- the next row is wiped first, and from there the others
      obtain ⟨hstage, hsaved, hcells⟩ := ih
        (s := Screen.onRow { s with row := s.row + 1, column := 0 } fun _ => Row.ofText []) hs
      rw [hnext]
      refine ⟨hstage, hsaved, fun r => ?_⟩
      rw [hcells r]
      simp only [Screen.onRow]
      by_cases hr : r = s.row + 1
      · rw [if_neg (by omega), if_pos hr, if_pos (by omega)]
      · rw [if_neg hr]
        exact if_congr (by omega) rfl rfl

/-- The rows below a line wiped, the cursor staying where it is. -/
theorem wipeRows (h : Displays s left right rows) :
    Displays (s.feed (Event.saveCursor.encode ++ wipedRows rows.length
      ++ Event.restoreCursor.encode)) left right [] := by
  obtain ⟨hstage, hsaved, hcells⟩ := feed_wipedRows rows.length
    (s := { s with saved := (s.row, s.column) }) h.stage
  rw [Screen.feed_append, Screen.feed_append, Screen.feed_saveCursor h.stage,
    Screen.feed_restoreCursor hstage, hsaved]
  refine ⟨hstage, h.column, ?_, fun i => ?_⟩
  · simp only [hcells]
    rw [if_neg (by omega)]
    exact h.row
  · -- below the rows that are wiped nothing stood before
    simp only [hcells, List.getD_nil]
    split
    · rfl
    · next hi => rw [h.below i, List.getD_eq_getElem?_getD, List.getElem?_eq_none (by omega)]; rfl

/-- Everything behind the end of a line erased. -/
theorem eraseToEnd (h : Displays s left [] rows) :
    Displays (s.feed Event.eraseToEnd.encode) left [] [] := by
  rw [Screen.feed_eraseToEnd h.stage]
  refine ⟨h.stage, h.column, ?_, fun i => ?_⟩
  · simp only [Screen.eraseBelow, if_true, h.column, List.append_nil]
    exact h.starts.row.eraseFrom
  · simp only [Screen.eraseBelow, List.getD_nil]
    rw [if_neg (by omega), if_pos (by omega)]

end Displays

end Promptline.Terminal
