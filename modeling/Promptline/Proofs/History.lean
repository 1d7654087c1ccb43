import Promptline.Proofs.History.Bounds
import Promptline.Proofs.Unicode.Alphabet

set_option autoImplicit false

/-! # Histories over an alphabet

All that a history can hand back was put into it: entries, and the draft. So a history whose texts
are over an alphabet stays one, and what is selected in it or put in the place of a reference is
over the alphabet too. -/

namespace Promptline

open Unicode

/-- All texts of a history are over an alphabet. -/
structure History.AllOver (A : Char → Prop) (h : History) : Prop where
  entries : ∀ entry ∈ h.entries, Over A entry
  draft : ∀ line, h.draft = some line → Over A line

namespace History.AllOver

variable {A : Char → Prop} {h : History} {text : List Char}

theorem mono {B : Char → Prop} (hh : h.AllOver A) (hAB : ∀ c, A c → B c) : h.AllOver B where
  entries entry hentry := (hh.entries entry hentry).mono hAB
  draft line hline := (hh.draft line hline).mono hAB

theorem empty (maxSize : Nat) : (History.empty maxSize).AllOver A where
  entries := by simp [History.empty]
  draft := by simp [History.empty]

theorem append (hh : h.AllOver A) (ht : Over A text) : (h.append text).AllOver A where
  entries := by
    intro entry hentry
    rcases History.mem_entries_append hentry with hentry | ⟨rfl, _⟩
    · exact hh.entries entry hentry
    · exact ht
  draft := hh.draft

theorem reset (hh : h.AllOver A) : h.reset.AllOver A where
  entries := hh.entries
  draft := by simp [History.reset]

theorem selectPrevious (hh : h.AllOver A) (ht : Over A text) :
    (h.selectPrevious text).2.AllOver A ∧
      ∀ line, (h.selectPrevious text).1 = some line → Over A line := by
  have hdraft : (if h.cursor = h.length then { h with draft := some text } else h).AllOver A := by
    split
    · refine ⟨hh.entries, fun line hline => ?_⟩
      rw [← Option.some.inj hline]
      exact ht
    · exact hh
  unfold History.selectPrevious
  generalize (if h.cursor = h.length then { h with draft := some text } else h) = kept at hdraft ⊢
  dsimp only
  split
  · exact ⟨hdraft, by simp⟩
  · exact ⟨⟨hdraft.entries, hdraft.draft⟩,
      fun line hline => hdraft.entries line (List.mem_of_getElem? hline)⟩

theorem selectNext (hh : h.AllOver A) :
    h.selectNext.2.AllOver A ∧ ∀ line, h.selectNext.1 = some line → Over A line := by
  unfold History.selectNext
  split
  · exact ⟨⟨hh.entries, hh.draft⟩,
      fun line hline => hh.entries line (List.mem_of_getElem? hline)⟩
  · exact ⟨hh, hh.draft⟩

theorem historyStep (direction : Edit.Direction) (hh : h.AllOver A) (ht : Over A text) :
    (Edit.historyStep direction h text).2.AllOver A ∧
      ∀ line, (Edit.historyStep direction h text).1 = some line → Over A line := by
  cases direction with
  | older => exact hh.selectPrevious ht
  | newer => exact hh.selectNext

/-- Walking through a history, step by step. -/
theorem historySteps (direction : Edit.Direction) (ht : Over A text) (n : Nat)
    {selected : Option (List Char)} (hs : ∀ line, selected = some line → Over A line)
    (hh : h.AllOver A) :
    (Edit.historySteps direction text n selected h).2.AllOver A ∧
      ∀ line, (Edit.historySteps direction text n selected h).1 = some line → Over A line := by
  induction n generalizing selected h with
  | zero => exact ⟨hh, hs⟩
  | succ n ih =>
      -- each step starts from the line that the step before it selected
      have hshown : Over A (selected.getD text) := by
        cases selected with
        | none => exact ht
        | some line => exact hs line rfl
      obtain ⟨hnext, hfound⟩ := hh.historyStep direction hshown
      unfold Edit.historySteps
      generalize Edit.historyStep direction h (selected.getD text) = step at hnext hfound ⊢
      obtain ⟨found, h'⟩ := step
      refine ih (fun line hline => ?_) hnext
      cases found with
      | none => exact hs line hline
      | some l => exact hfound line hline

/-- Every word stands for an entry or for itself. -/
theorem expandWord (hh : h.AllOver A) (ht : Over A text) : Over A (h.expandWord text) := by
  unfold History.expandWord
  cases hfound : (History.reference? text).bind h.entry? with
  | none => exact ht
  | some entry =>
      obtain ⟨index, _, hentry⟩ := Option.bind_eq_some_iff.1 hfound
      unfold History.entry? at hentry
      split at hentry
      · exact absurd hentry (by simp)
      · exact hh.entries entry (List.mem_of_getElem? hentry)

theorem expand (hh : h.AllOver A) (ht : Over A text) : Over A (h.expand text) := by
  have htoken : ∀ token ∈ History.tokens text, Over A token.text := fun token hmem c hc =>
    ht c (by
      rw [← History.flatMap_text_tokens text]
      exact List.mem_flatMap.2 ⟨token, hmem, hc⟩)
  intro c hc
  -- `c` comes from a token of the text, or from the entry that stands in its place
  obtain ⟨token, hmem, hc⟩ := List.mem_flatMap.1 hc
  cases token with
  | blanks s => exact htoken _ hmem c hc
  | word s => exact hh.expandWord (htoken _ hmem) c hc

end History.AllOver

end Promptline
