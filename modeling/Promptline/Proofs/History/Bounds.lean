import Promptline.Editor.Keys

set_option autoImplicit false

/-! # Histories within their bounds

A history keeps no more entries than it may, none of them blank, and its place of browsing is at one
of them or right behind the newest. Recording a line, browsing and stopping all keep to that. What
makes room for a line is never the line itself (`getLast?_entries_append`). -/

namespace Promptline

open Unicode

/-- A history that keeps at most `limit` entries, none of them blank, the place of browsing being
    among them or behind the newest. -/
structure History.Bounded (limit : Nat) (h : History) : Prop where
  maxSize : h.maxSize = limit
  length : h.length ≤ limit
  cursor : h.cursor ≤ h.length
  nonblank : ∀ entry ∈ h.entries, isBlankText entry = false

namespace History

theorem bounded_empty (maxSize : Nat) : (empty maxSize).Bounded (max 1 maxSize) where
  maxSize := rfl
  length := Nat.zero_le _
  cursor := Nat.le_refl _
  nonblank _ hentry := absurd hentry List.not_mem_nil

/-- Dropping the oldest of too many leaves as many as are kept. -/
theorem length_trim {limit : Nat} {entries : List (List Char)}
    (h : entries.length ≤ limit + 1) : (trim limit entries).length ≤ limit := by
  unfold trim
  split
  · rw [List.length_drop]
    omega
  · next hle => exact Nat.le_of_not_lt hle

theorem mem_of_mem_trim {limit : Nat} {entries : List (List Char)} {entry : List Char}
    (h : entry ∈ trim limit entries) : entry ∈ entries := by
  unfold trim at h
  split at h
  · exact List.mem_of_mem_drop h
  · exact h

/-- What is kept once a line is recorded was kept before, or is that line. -/
theorem mem_entries_append {h : History} {line entry : List Char}
    (hentry : entry ∈ (h.append line).entries) :
    entry ∈ h.entries ∨ entry = line ∧ isBlankText line = false := by
  rw [append] at hentry
  dsimp only at hentry
  split at hentry
  · exact .inl hentry
  · next hline =>
      refine (List.mem_append.1 (mem_of_mem_trim hentry)).imp_right fun hentry => ?_
      exact ⟨List.mem_singleton.1 hentry, Bool.eq_false_iff.2 hline⟩

/-- The oldest of too many is not the newest. -/
theorem getLast?_trim {limit : Nat} (hlimit : 0 < limit) (entries : List (List Char)) :
    (trim limit entries).getLast? = entries.getLast? := by
  unfold trim
  split
  · rw [List.getLast?_drop, if_neg (by omega)]
  · rfl

/-- A line that is not blank is the newest entry once it is recorded. -/
theorem getLast?_entries_append {h : History} (hsize : 0 < h.maxSize) {line : List Char}
    (hline : isBlankText line = false) : (h.append line).entries.getLast? = some line := by
  rw [append]
  dsimp only
  rw [hline, if_neg (by simp), getLast?_trim hsize, List.getLast?_concat]

/-! ## Browsing -/

/-- Going to an older entry changes neither the entries nor how many are kept. -/
theorem kept_selectPrevious (h : History) (current : List Char) :
    (h.selectPrevious current).2.entries = h.entries ∧
      (h.selectPrevious current).2.maxSize = h.maxSize := by
  unfold selectPrevious
  dsimp only
  split <;> split <;> exact ⟨rfl, rfl⟩

theorem kept_selectNext (h : History) :
    h.selectNext.2.entries = h.entries ∧ h.selectNext.2.maxSize = h.maxSize := by
  unfold selectNext
  split <;> exact ⟨rfl, rfl⟩

/-- What every step of a walk through a history keeps, the walk keeps. -/
theorem keeps_historySteps {P : History → Prop} {direction : Edit.Direction}
    (hstep : ∀ h current, P h → P (Edit.historyStep direction h current).2) (text : List Char)
    (n : Nat) (selected : Option (List Char)) {h : History} (hh : P h) :
    P (Edit.historySteps direction text n selected h).2 := by
  induction n generalizing selected h with
  | zero => exact hh
  | succ n ih => exact ih _ (hstep h (selected.getD text) hh)

/-- A walk through a history changes neither the entries nor how many are kept. -/
theorem kept_historySteps (direction : Edit.Direction) (text : List Char) (n : Nat)
    (selected : Option (List Char)) (h : History) :
    (Edit.historySteps direction text n selected h).2.entries = h.entries ∧
      (Edit.historySteps direction text n selected h).2.maxSize = h.maxSize := by
  refine keeps_historySteps (P := fun h' => h'.entries = h.entries ∧ h'.maxSize = h.maxSize)
    ?_ text n selected ⟨rfl, rfl⟩
  rintro h' current ⟨hentries, hmaxSize⟩
  cases direction with
  | older =>
      obtain ⟨hsame, hsame'⟩ := h'.kept_selectPrevious current
      exact ⟨hsame.trans hentries, hsame'.trans hmaxSize⟩
  | newer =>
      obtain ⟨hsame, hsame'⟩ := h'.kept_selectNext
      exact ⟨hsame.trans hentries, hsame'.trans hmaxSize⟩

/-! ## The bounds -/

namespace Bounded

variable {limit : Nat} {h : History}

theorem append (hh : h.Bounded limit) (line : List Char) : (h.append line).Bounded limit where
  maxSize := hh.maxSize
  length := by
    have hlength : h.entries.length ≤ limit := hh.length
    rw [History.length, History.append]
    dsimp only
    split
    · exact hlength
    · rw [hh.maxSize]
      refine length_trim ?_
      rw [List.length_append]
      exact Nat.succ_le_succ hlength
  cursor := Nat.le_refl _
  nonblank := by
    intro entry hentry
    rcases mem_entries_append hentry with hentry | ⟨rfl, hline⟩
    · exact hh.nonblank entry hentry
    · exact hline

theorem reset (hh : h.Bounded limit) : h.reset.Bounded limit where
  maxSize := hh.maxSize
  length := hh.length
  cursor := Nat.le_refl _
  nonblank := hh.nonblank

theorem selectPrevious (hh : h.Bounded limit) (current : List Char) :
    (h.selectPrevious current).2.Bounded limit := by
  have hdraft : (if h.cursor = h.length then { h with draft := some current } else h).Bounded
      limit := by
    split
    · exact ⟨hh.maxSize, hh.length, hh.cursor, hh.nonblank⟩
    · exact hh
  unfold History.selectPrevious
  generalize (if h.cursor = h.length then { h with draft := some current } else h) = kept
    at hdraft ⊢
  dsimp only
  split
  · exact hdraft
  · exact ⟨hdraft.maxSize, hdraft.length, Nat.le_trans (Nat.sub_le _ _) hdraft.cursor,
      hdraft.nonblank⟩

theorem selectNext (hh : h.Bounded limit) : h.selectNext.2.Bounded limit := by
  unfold History.selectNext
  split
  · next hlt => exact ⟨hh.maxSize, hh.length, hlt, hh.nonblank⟩
  · exact hh

theorem historyStep (hh : h.Bounded limit) (direction : Edit.Direction) (current : List Char) :
    (Edit.historyStep direction h current).2.Bounded limit := by
  cases direction with
  | older => exact hh.selectPrevious current
  | newer => exact hh.selectNext

/-- Walking through a history, step by step. -/
theorem historySteps (hh : h.Bounded limit) (direction : Edit.Direction) (text : List Char)
    (n : Nat) (selected : Option (List Char)) :
    (Edit.historySteps direction text n selected h).2.Bounded limit :=
  keeps_historySteps (fun _ current hh => hh.historyStep direction current) text n selected hh

end Bounded

end History

end Promptline
