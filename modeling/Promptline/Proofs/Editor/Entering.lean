import Promptline.Proofs.Editor.Reached
import Promptline.Proofs.Editor.Typing
import Promptline.Proofs.History.Circular

set_option autoImplicit false

/-! # Entering a line again

The return key hands the line over, unless there are references in it to replace: then it replaces
them, and is to be pressed again. Each time the line is expanded once more, and nothing else changes
(`returned_eq`). So the line is handed over, and within as many presses as the history has entries
and one more, just if its references do not go round in a circle (`Reached.returns_submit_iff`). -/

namespace Promptline

open Terminal Unicode

namespace Editor

open Edit

/-- The editor once the return key was pressed a number of times, on a terminal that takes every
    write. -/
def afterReturns (files : FileTree) (e : Editor) : Nat → Editor
  | 0 => e
  | n + 1 => ((apply files .newline).run (afterReturns files e n) .working).editor

/-- What the return key comes to then. -/
def returned (files : FileTree) (e : Editor) (n : Nat) : Option (Option Outcome) :=
  ((apply files .newline).run (afterReturns files e n) .working).value

section Returns

variable (files : FileTree) {e : Editor} (hline : e.line.WellFormed)
include hline

/-- As long as there is something to replace, the line is expanded each time, and the history stays
    as it is. -/
theorem afterReturns_expanded {n : Nat}
    (h : ∀ m < n, e.history.expand (e.history.expand^[m] e.line.text) ≠
      e.history.expand^[m] e.line.text) :
    (afterReturns files e n).history = e.history ∧
      (afterReturns files e n).line.text = e.history.expand^[n] e.line.text ∧
      (afterReturns files e n).line.WellFormed := by
  induction n with
  | zero => exact ⟨rfl, rfl, hline⟩
  | succ n ih =>
      obtain ⟨hhistory, htext, hformed⟩ := ih fun m hm => h m (Nat.lt_succ_of_lt hm)
      have hnext := h n (Nat.lt_succ_self n)
      rw [← htext, ← hhistory, ← history_dismissed (afterReturns files e n)] at hnext
      rw [afterReturns, run_working_editor, (apply_newline files hformed).2, afterEntered,
        if_neg hnext, Function.iterate_succ_apply', ← htext, ← hhistory, history_dismissed]
      exact ⟨rfl, rfl, Line.wellFormed_ofText _⟩

/-- **One press after others.** The line that they have expanded is entered. -/
theorem returned_eq {n : Nat}
    (h : ∀ m < n, e.history.expand (e.history.expand^[m] e.line.text) ≠
      e.history.expand^[m] e.line.text) :
    returned files e n = some (some (entered e.history (e.history.expand^[n] e.line.text))) := by
  obtain ⟨hhistory, htext, hformed⟩ := afterReturns_expanded files hline h
  rw [returned, run_working_value, (apply_newline files hformed).1, hhistory, htext]

/-- In a circle, the return key never does anything but expand. -/
theorem returned_of_circular
    (hentries : ∀ entry ∈ e.history.entries, isBlankText entry = false)
    (hcircular : e.history.Circular e.line.text) (n : Nat) :
    returned files e n = some (some (.expanded (e.history.expand^[n + 1] e.line.text))) := by
  have hnever := hcircular.expand_ne_self hentries
  rw [returned_eq files hline fun m _ => hnever m, entered, if_neg (hnever n),
    Function.iterate_succ_apply']

/-- Without a circle, it hands the line over as soon as nothing is left to replace. -/
theorem returned_of_not_circular (hcircular : ¬ e.history.Circular e.line.text) :
    ∃ k ≤ e.history.length,
      returned files e k = some (some (.line (e.history.expand^[k] e.line.text)
        (clusterCount (e.history.expand^[k] e.line.text)))) ∧
      ∀ m < k, returned files e m =
        some (some (.expanded (e.history.expand^[m + 1] e.line.text))) := by
  have hends : ∃ n, e.history.expand (e.history.expand^[n] e.line.text) =
      e.history.expand^[n] e.line.text :=
    ⟨_, History.expand_iterate_eq_self hcircular⟩
  have hbefore : ∀ m < Nat.find hends, e.history.expand (e.history.expand^[m] e.line.text) ≠
      e.history.expand^[m] e.line.text := fun m hm => Nat.find_min hends hm
  refine ⟨Nat.find hends, Nat.find_min' hends (History.expand_iterate_eq_self hcircular), ?_, ?_⟩
  · rw [returned_eq files hline hbefore, entered, if_pos (Nat.find_spec hends)]
  · intro m hm
    rw [returned_eq files hline fun m' hm' => hbefore m' (Nat.lt_trans hm' hm), entered,
      if_neg (hbefore m hm), Function.iterate_succ_apply']

end Returns

/-- **The return key hands the line over, or goes round in a circle.** After any calls, whatever
    the line and the history hold: just if the references in the line do not lead to an entry that
    leads back to itself, one of the next presses of the return key hands the line over, no later
    than as many presses as there are entries and one more, and each press before expands the line.
    Else every press expands it, and none ever hands it over. -/
theorem Reached.returns_submit_iff {limit : Nat} {prepared : Bool} {e : Editor}
    (h : Reached limit prepared e) (files : FileTree) :
    (¬ e.history.Circular e.line.text ↔
      ∃ k ≤ e.history.length,
        returned files e k = some (some (.line (e.history.expand^[k] e.line.text)
          (clusterCount (e.history.expand^[k] e.line.text)))) ∧
        ∀ m < k, returned files e m =
          some (some (.expanded (e.history.expand^[m + 1] e.line.text)))) ∧
      (e.history.Circular e.line.text → ∀ n, returned files e n =
        some (some (.expanded (e.history.expand^[n + 1] e.line.text)))) := by
  obtain ⟨hformed, _⟩ := h.wellFormed
  have hexpands := returned_of_circular files hformed.line hformed.history.nonblank
  refine ⟨⟨returned_of_not_circular files hformed.line, ?_⟩, hexpands⟩
  rintro ⟨k, _, hsubmitted, _⟩ hcircular
  rw [hexpands hcircular k] at hsubmitted
  cases hsubmitted

/-- A reference to the second entry is entered while there is none, a command, and then a reference
    to the first: the third press, at the latest, hands over a line. -/
theorem returns_submit_chain :
    ∃ e, Reached 10 false e ∧ e.history.entries = [['!', '2'], ['l', 's']] ∧
      e.line.text = ['!', '1'] ∧ ¬ e.history.Circular e.line.text ∧
      e.history.expand^[2] e.line.text = ['l', 's'] ∧
      ∃ k ≤ 2, (∃ text cursor, returned .empty e k = some (some (.line text cursor))) ∧
        ∀ m < k, ∃ text, returned .empty e m = some (some (.expanded text)) := by
  have hstart : Reached 10 _ _ := .start ['>'] ⟨[], [], .tableOnly⟩ (80, 24)
  have hreached := ((((hstart.event (.text ['!', '2'])).event .newline).event
    (.text ['l', 's'])).event .newline).event (.text ['!', '1'])
  generalize he : (Edit.run _ _ _).editor = e at hreached
  have hhistory : e.history = ⟨[['!', '2'], ['l', 's']], 10, 2, none⟩ := by
    rw [← he]
    decide +kernel
  have htext : e.line.text = ['!', '1'] := by
    rw [← he]
    decide +kernel
  obtain ⟨hiff, _⟩ := hreached.returns_submit_iff .empty
  have hends : ¬ e.history.Circular e.line.text := fun hcircular => by
    refine hcircular.expand_ne_self ?_ 2 ?_ <;> rw [hhistory]
    · decide +kernel
    · rw [htext]
      decide +kernel
  obtain ⟨k, hk, hline, hexpanded⟩ := hiff.1 hends
  refine ⟨e, hreached, by rw [hhistory], htext, hends, ?_, k, ?_, ⟨_, _, hline⟩, ?_⟩
  · rw [hhistory, htext]
    decide +kernel
  · rwa [hhistory] at hk
  · exact fun m hm => ⟨_, hexpanded m hm⟩

/-- An entry that refers to itself, recorded before there were any: the return key never hands over
    the line that refers to it. -/
theorem returns_never_submit_self_reference :
    ∃ e, Reached 10 false e ∧ e.history.entries = [['!', '1', ' ', 'x']] ∧
      e.line.text = ['!', '1'] ∧
      ∀ n, ∃ text, returned .empty e n = some (some (.expanded text)) := by
  have hstart : Reached 10 _ _ := .start ['>'] ⟨[], [], .tableOnly⟩ (80, 24)
  have hreached := ((hstart.event (.text ['!', '1', ' ', 'x'])).event .newline).event
    (.text ['!', '1'])
  generalize he : (Edit.run _ _ _).editor = e at hreached
  have hhistory : e.history = ⟨[['!', '1', ' ', 'x']], 10, 1, none⟩ := by
    rw [← he]
    decide +kernel
  have htext : e.line.text = ['!', '1'] := by
    rw [← he]
    decide +kernel
  have hentry : e.history.entry? 1 = some ['!', '1', ' ', 'x'] := by
    rw [hhistory]
    rfl
  have hfirst : e.history.RefersTo e.line.text 1 := by
    refine ⟨['!', '1'], ?_, by decide +kernel, _, hentry, by decide⟩
    rw [htext]
    decide +kernel
  have hself : e.history.Leads 1 1 :=
    ⟨_, hentry, ['!', '1'], by decide +kernel, by decide +kernel, _, hentry, by decide⟩
  have hcircular : e.history.Circular e.line.text := ⟨1, 1, hfirst, .refl, .single hself⟩
  obtain ⟨hformed, _⟩ := hreached.wellFormed
  exact ⟨e, hreached, by rw [hhistory], htext, fun n =>
    ⟨_, returned_of_circular .empty hformed.line hformed.history.nonblank hcircular n⟩⟩

end Editor

end Promptline
