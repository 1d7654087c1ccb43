import Mathlib.Data.List.DropRight
import Promptline.Proofs.History.Bounds

set_option autoImplicit false

/-! # The newest lines

A history is a window on the lines that were ever recorded: whatever was done to it, recording and
browsing in any order, its entries are the newest of them, as many as it may keep, and an entry is
found by its place in that window (`keeps_newest`). The window moves by one line at a time: a line
that comes in at the end pushes out the oldest of too many (`trim_rtake_concat`). -/

namespace Promptline.History

open Unicode

/-- What can be done to a history. -/
inductive Call where
  | append (line : List Char)
  | selectPrevious (current : List Char)
  | selectNext
  | reset
  deriving DecidableEq, Repr

/-- The history after a call. -/
def perform (h : History) : Call → History
  | .append line => h.append line
  | .selectPrevious current => (h.selectPrevious current).2
  | .selectNext => h.selectNext.2
  | .reset => h.reset

/-- The line that a call records. -/
def Call.recorded? : Call → Option (List Char)
  | append line => if isBlankText line then none else some line
  | _ => none

/-- All lines that calls record, oldest first. -/
def recorded (calls : List Call) : List (List Char) :=
  calls.filterMap Call.recorded?

/-! ## One call -/

/-- Of the newest lines and one more, the oldest goes if there are too many then. -/
theorem trim_rtake_concat (limit : Nat) (lines : List (List Char)) (line : List Char) :
    trim limit (lines.rtake limit ++ [line]) = (lines ++ [line]).rtake limit := by
  have hwindow : lines.rtake limit ++ [line] = (lines ++ [line]).drop (lines.length - limit) := by
    rw [List.rtake, List.drop_append_of_le_length (Nat.sub_le _ _)]
  have hlength : ((lines ++ [line]).drop (lines.length - limit)).length =
      lines.length + 1 - (lines.length - limit) := by
    rw [List.length_drop, List.length_append, List.length_singleton]
  rw [hwindow, trim, hlength, List.rtake, List.length_append, List.length_singleton]
  by_cases hfull : limit ≤ lines.length
  · have hnext : lines.length - limit + 1 = lines.length + 1 - limit := by omega
    rw [if_pos (by omega), List.drop_drop, hnext]
  · have hall : lines.length - limit = lines.length + 1 - limit := by omega
    rw [if_neg (by omega), hall]

theorem entries_append (h : History) (line : List Char) :
    (h.append line).entries =
      if isBlankText line then h.entries else trim h.maxSize (h.entries ++ [line]) :=
  rfl

theorem Bounded.perform {limit : Nat} {h : History} (hh : h.Bounded limit) (call : Call) :
    (h.perform call).Bounded limit := by
  cases call with
  | append line => exact hh.append line
  | selectPrevious current => exact hh.selectPrevious current
  | selectNext => exact hh.selectNext
  | reset => exact hh.reset

/-- **One call.** The entries stay the newest of the lines that were recorded. -/
theorem entries_perform {limit : Nat} {h : History} (hsize : h.maxSize = limit)
    {lines : List (List Char)} (hentries : h.entries = lines.rtake limit) (call : Call) :
    (h.perform call).entries = (lines ++ call.recorded?.toList).rtake limit := by
  have hsame : ∀ {h' : History}, h'.entries = h.entries → call.recorded? = none →
      h'.entries = (lines ++ call.recorded?.toList).rtake limit := by
    intro h' hkept hnone
    rw [hkept, hnone, Option.toList_none, List.append_nil, hentries]
  cases call with
  | append line =>
      rw [perform, entries_append, Call.recorded?]
      by_cases hblank : isBlankText line = true
      · rw [if_pos hblank, if_pos hblank, Option.toList_none, List.append_nil, hentries]
      · rw [if_neg hblank, if_neg hblank, hentries, hsize]
        exact trim_rtake_concat limit lines line
  | selectPrevious current => exact hsame (h.kept_selectPrevious current).1 rfl
  | selectNext => exact hsame h.kept_selectNext.1 rfl
  | reset => exact hsame rfl rfl

/-! ## All calls -/

/-- Calls on an empty history leave it bounded, with the newest of the recorded lines. -/
theorem bounded_foldl_perform (maxSize : Nat) (calls : List Call) :
    (calls.foldl perform (empty maxSize)).Bounded (max 1 maxSize) ∧
      (calls.foldl perform (empty maxSize)).entries =
        (recorded calls).rtake (max 1 maxSize) := by
  induction calls using List.reverseRecOn with
  | nil => exact ⟨bounded_empty maxSize, (List.rtake_nil _).symm⟩
  | append_singleton calls call ih =>
      obtain ⟨hbounded, hentries⟩ := ih
      have hrecorded : recorded (calls ++ [call]) = recorded calls ++ call.recorded?.toList := by
        rw [recorded, List.filterMap_append]
        cases hcall : call.recorded? <;> simp [recorded, hcall]
      rw [List.foldl_concat, hrecorded]
      exact ⟨hbounded.perform call, entries_perform hbounded.maxSize hentries call⟩

/-- A history that holds just the given lines, and finds each of them by its number. -/
structure Keeps (h : History) (lines : List (List Char)) : Prop where
  entries : h.entries = lines
  /-- The place of browsing is at a line or behind the newest. -/
  cursor : h.cursor ≤ h.length
  found (i : Nat) (within : i < lines.length) : h.lookup (i + 1) = .ok lines[i]
  missing (i : Nat) (outside : i = 0 ∨ lines.length < i) :
    h.lookup i = .error { index := i, length := lines.length }

theorem keeps_of_cursor_le {h : History} (hcursor : h.cursor ≤ h.length) : h.Keeps h.entries where
  entries := rfl
  cursor := hcursor
  found i within := by
    rw [lookup, entry?, if_neg (Nat.succ_ne_zero i), Nat.add_sub_cancel,
      List.getElem?_eq_getElem within]
  missing i outside := by
    have hnone : h.entry? i = none := by
      unfold entry?
      by_cases hzero : i = 0
      · rw [if_pos hzero]
      · rw [if_neg hzero, List.getElem?_eq_none_iff]
        omega
    rw [lookup, hnone]
    rfl

/-- **A history keeps exactly the newest lines.** After any calls, in any order, its entries are the
    last of the lines that were recorded, as many as are kept, and at least one is; each is found by
    its number, and no other number finds anything. A call that records or stops browsing selects
    nothing, and browsing changes no entry. -/
theorem keeps_newest (maxSize : Nat) (calls : List Call) :
    let h := calls.foldl perform (empty maxSize)
    h.Keeps ((recorded calls).rtake (max 1 maxSize)) ∧
      (∀ line, (h.append line).cursor = (h.append line).length) ∧
      h.reset.cursor = h.reset.length ∧
      (∀ current, (h.selectPrevious current).2.entries = h.entries) ∧
      h.selectNext.2.entries = h.entries := by
  intro h
  obtain ⟨hbounded, hentries⟩ := bounded_foldl_perform maxSize calls
  rw [← hentries]
  exact ⟨keeps_of_cursor_le hbounded.cursor, fun _ => rfl, rfl,
    fun current => (h.kept_selectPrevious current).1, h.kept_selectNext.1⟩

/-- Two lines are kept. A blank one is passed over, one is looked at in between, and the third line
    that is not blank takes the place of the first. -/
theorem keeps_newest_third_line :
    let calls : List Call :=
      [.append ['a'], .append [' ', '\t'], .append ['b'], .selectPrevious ['x'],
        .selectPrevious ['b'], .append ['c'], .selectPrevious []]
    let h := calls.foldl perform (empty 2)
    h.entries = [['b'], ['c']] ∧ h.cursor = 1 ∧ h.lookup 1 = .ok ['b'] ∧ h.lookup 2 = .ok ['c'] ∧
      h.lookup 0 = .error { index := 0, length := 2 } ∧
      h.lookup 3 = .error { index := 3, length := 2 } := by
  intro calls h
  obtain ⟨hkeeps, -⟩ := keeps_newest 2 calls
  exact ⟨hkeeps.entries, by decide, hkeeps.found 0 (by decide), hkeeps.found 1 (by decide),
    hkeeps.missing 0 (.inl rfl), hkeeps.missing 3 (.inr (by decide))⟩

end Promptline.History
