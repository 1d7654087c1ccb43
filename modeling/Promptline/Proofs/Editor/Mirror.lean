import Promptline.Proofs.Completion.Grid
import Promptline.Proofs.Editor.Display
import Promptline.Proofs.History
import Promptline.Proofs.Line

set_option autoImplicit false

/-! # The screen mirrors the editor

An editor whose texts are all over a plain alphabet, and a screen that shows its prompt and its
line with the cursor in the right place (`Shows`). Each key leads from one such pair to another,
where the screen is fed what the key writes; keys that end the line lead to a fresh row
(`Fresh`). -/

namespace Promptline

open Terminal Unicode Edit

/-- All texts of an editor are over an alphabet, and the cursor is in the line. -/
structure Holds (A : Char → Prop) (e : Editor) : Prop where
  prompt : Over A e.prompt
  text : Over A e.line.text
  wellFormed : e.line.WellFormed
  history : e.history.AllOver A

/-- A terminal can be told to move over prompt and line in one go. -/
def Fits (e : Editor) : Prop :=
  displayWidth (e.prompt ++ e.line.text) ≤ 65535

instance (e : Editor) : Decidable (Fits e) :=
  inferInstanceAs (Decidable (_ ≤ _))

/-- The screen shows prompt and line in the cursor's row, and its cursor stands where the cursor of
    the line is; below are `rows`. -/
structure Shows (A : Char → Prop) (s : Screen) (e : Editor) (rows : List (List Char)) : Prop
    extends Holds A e where
  screen : Displays s (e.prompt ++ e.line.before) e.line.after rows

/-- The cursor stands at the beginning of a row with nothing on it and nothing below it. -/
structure Fresh (A : Char → Prop) (s : Screen) (e : Editor) : Prop extends Holds A e where
  screen : Displays s [] [] []

theorem printed_of_over {A : Char → Prop} (hA : PlainAlphabet A) {t : List Char} (h : Over A t) :
    Printed t :=
  fun c hc => hA.printed c (h c hc)

section Plain

variable {A : Char → Prop} (hA : PlainAlphabet A) {s : Screen} {e : Editor}
  {rows : List (List Char)} {left right : List Char}
include hA

theorem Holds.of_between (hp : Over A e.prompt) (hh : e.history.AllOver A) (hl : Over A left)
    (hr : Over A right) (hline : e.line = .between left right) : Holds A e where
  prompt := hp
  text := by
    rw [hline]
    exact over_append.2 ⟨hl, hr⟩
  wellFormed := by
    rw [hline]
    exact Line.wellFormed_between hA hl hr
  history := hh

theorem Shows.of_between (hp : Over A e.prompt) (hh : e.history.AllOver A) (hl : Over A left)
    (hr : Over A right) (hline : e.line = .between left right)
    (hs : Displays s (e.prompt ++ left) right rows) : Shows A s e rows where
  toHolds := Holds.of_between hA hp hh hl hr hline
  screen := by
    rw [hline, Line.before_between hA hl hr, Line.after_between hA hl hr]
    exact hs

theorem Fresh.of_between (hp : Over A e.prompt) (hh : e.history.AllOver A) (hl : Over A left)
    (hr : Over A right) (hline : e.line = .between left right) (hs : Displays s [] [] []) :
    Fresh A s e :=
  ⟨Holds.of_between hA hp hh hl hr hline, hs⟩

/-- The line of such an editor is two texts with the cursor between them. -/
theorem Holds.exists_between (h : Holds A e) :
    ∃ left right, Over A left ∧ Over A right ∧ e.line = .between left right := by
  have hover := h.text
  rw [← e.line.before_append_after] at hover
  exact ⟨e.line.before, e.line.after, (over_append.1 hover).1, (over_append.1 hover).2,
    Line.eq_between hA h.text h.wellFormed⟩

/-- Prompt and line fill no more cells than a terminal can be told to move over. -/
theorem Fits.extent_le (h : Fits e) (hp : Over A e.prompt) (hl : Over A left) (hr : Over A right)
    (hline : e.line = .between left right) :
    extent e.prompt + (extent left + extent right) ≤ 65535 := by
  have hall : Over A (e.prompt ++ (left ++ right)) := over_append.2 ⟨hp, over_append.2 ⟨hl, hr⟩⟩
  rw [Fits, hline, Line.text_between, ← extent_eq_displayWidth hA hall, extent_append,
    extent_append] at h
  exact h

/-- What is shown, with the line taken apart. -/
theorem Shows.exists_between (h : Shows A s e rows) (hfit : Fits e) :
    ∃ left right, Over A left ∧ Over A right ∧ e.line = .between left right ∧
      Displays s (e.prompt ++ left) right rows ∧
      extent e.prompt + (extent left + extent right) ≤ 65535 := by
  obtain ⟨left, right, hl, hr, hline⟩ := h.toHolds.exists_between hA
  have hscreen := h.screen
  rw [hline, Line.before_between hA hl hr, Line.after_between hA hl hr] at hscreen
  exact ⟨left, right, hl, hr, hline, hscreen, hfit.extent_le hA h.prompt hl hr hline⟩

end Plain

/-! ## Redrawing -/

namespace Terminal.Displays

variable {s : Screen} {left mid right t : List Char} {rows : List (List Char)}

/-- Text is printed in front of the cursor and behind it, and covers what stands there. -/
theorem printAround (h : Displays s left mid rows) (ht : Printed t) (hr : Printed right)
    (hle : extent mid ≤ extent t + extent right) (hfit : extent right ≤ 65535) :
    Displays (s.feed (t ++ right ++ Edit.backward (extent right))) (left ++ t) right rows := by
  have hprinted := h.print (t := t ++ right)
    (fun c hc => (List.mem_append.1 hc).elim (ht c) (hr c)) (by rw [extent_append]; exact hle)
  rw [← List.append_assoc] at hprinted
  have hback := hprinted.backward rfl hfit
  rw [List.append_nil] at hback
  rw [Screen.feed_append]
  exact hback

/-- A stretch in front of the cursor is replaced, and what stands behind it is moved up. -/
theorem replaceBehind (h : Displays s (left ++ mid) right rows) (ht : Printed t)
    (hr : Printed right) (hfit : extent mid + extent right ≤ 65535) :
    Displays (s.feed (Edit.backward (extent mid) ++ t ++
      (right ++ Event.eraseLineToEnd.encode ++ Edit.backward (extent right))))
      (left ++ t) right rows := by
  -- back over `mid`, printing over it, and back over `right` again
  have hback := h.backward rfl (by omega)
  have hprinted := hback.print_erase (t := t ++ right) fun c hc =>
    (List.mem_append.1 hc).elim (ht c) (hr c)
  rw [← List.append_assoc] at hprinted
  have hend := hprinted.backward rfl (by omega)
  rw [List.append_nil] at hend
  simpa only [Screen.feed_append, List.append_assoc] using hend

/-- The whole line is replaced. -/
theorem replaceAll (h : Displays s (left ++ mid) right rows) (ht : Printed t)
    (hfit : extent mid + extent right ≤ 65535) :
    Displays (s.feed (Edit.forward (extent right) ++ Edit.backward (extent (mid ++ right)) ++
      Event.eraseLineToEnd.encode ++ t)) (left ++ t) [] rows := by
  have hright : Displays s (left ++ mid) (right ++ []) rows := by
    rw [List.append_nil]
    exact h
  -- to the end of the line, from there to its beginning, and printing
  have hforward := hright.forward rfl (by omega)
  rw [List.append_assoc] at hforward
  have hback := hforward.backward rfl (by rw [extent_append]; omega)
  have herased := hback.eraseLineToEnd
  have hprinted := herased.print ht (Nat.zero_le _)
  simpa only [Screen.feed_append, List.append_assoc] using hprinted

end Terminal.Displays

/-! ## Keys -/

section Keys

variable {A : Char → Prop} (hA : PlainAlphabet A) {s : Screen} {e : Editor}
include hA

theorem Fresh.renderPrompt (h : Fresh A s e) (hfit : Fits e) :
    Shows A (s.feed (Edit.renderPrompt.written e)) (Edit.renderPrompt e).editor [] := by
  obtain ⟨left, right, hl, hr, hline⟩ := h.exists_between hA
  have hwidth := hfit.extent_le hA h.prompt hl hr hline
  rw [written_renderPrompt, editor_renderPrompt, hline, Line.text_between,
    Line.widthAfter_between hA hl hr, ← extent_eq_displayWidth hA hr, ← List.append_assoc]
  -- on a fresh row prompt and line are new text, the cursor being put between the two halves
  exact Shows.of_between hA h.prompt h.history hl hr rfl
    (h.screen.printAround (printed_of_over hA (over_append.2 ⟨h.prompt, hl⟩))
      (printed_of_over hA hr) (Nat.zero_le _) (by omega))

theorem Shows.typeText (h : Shows A s e []) (hfit : Fits e) {t : List Char} (ht : Over A t) :
    Shows A (s.feed ((Edit.typeText t).written e)) (Edit.typeText t e).editor [] := by
  obtain ⟨left, right, hl, hr, hline, hs, hwidth⟩ := h.exists_between hA hfit
  have hlt : Over A (left ++ t) := over_append.2 ⟨hl, ht⟩
  rw [written_typeText, editor_typeText, hline, Line.insert_between hA hl hr ht,
    Line.after_between hA hlt hr, Line.widthAfter_between hA hlt hr,
    ← extent_eq_displayWidth hA hr]
  -- the text and what stands behind it cover the old end of the line
  have hprinted := hs.printAround (printed_of_over hA ht) (printed_of_over hA hr)
    (Nat.le_add_left _ _) (by omega)
  rw [List.append_assoc e.prompt] at hprinted
  exact Shows.of_between hA h.prompt h.history hlt hr rfl hprinted

/-- Erasing a stretch in front of the cursor and redrawing what stands behind it. -/
theorem Shows.eraseMid (h : Shows A s e []) {left mid right : List Char} (hl : Over A left)
    (hm : Over A mid) (hr : Over A right)
    (hs : Displays s (e.prompt ++ (left ++ mid)) right [])
    (hwidth : extent mid + extent right ≤ 65535) :
    Shows A (s.feed (Edit.backward (displayWidth mid) ++ remainder (.between left right)))
      { e with line := .between left right } [] := by
  rw [remainder, Line.after_between hA hl hr, Line.widthAfter_between hA hl hr,
    ← extent_eq_displayWidth hA hr, ← extent_eq_displayWidth hA hm]
  rw [← List.append_assoc] at hs
  have hreplaced := hs.replaceBehind (t := []) (fun c hc => absurd hc List.not_mem_nil)
    (printed_of_over hA hr) hwidth
  simp only [List.append_nil] at hreplaced
  exact Shows.of_between hA h.prompt h.history hl hr rfl hreplaced

theorem Shows.erasePrevious (h : Shows A s e []) (hfit : Fits e) :
    Shows A (s.feed ((Edit.eraseBehind .previous).written e))
      (Edit.eraseBehind .previous e).editor [] := by
  obtain ⟨left, right, hl, hr, hline, hs, hwidth⟩ := h.exists_between hA hfit
  rw [written_eraseBehind, editor_eraseBehind, hline]
  rcases List.eq_nil_or_concat left with rfl | ⟨first, c, rfl⟩
  · rw [Line.erase?_previous_nil]
    exact h
  · rw [List.concat_eq_append] at hl hs hwidth ⊢
    obtain ⟨hfirst, hc⟩ := over_append.1 hl
    rw [Line.erase?_previous_between hA hfirst hr (hc c (List.mem_singleton_self c))]
    rw [extent_append] at hwidth
    exact h.eraseMid hA hfirst hc hr hs (by omega)

theorem Shows.eraseToBegin (h : Shows A s e []) (hfit : Fits e) :
    Shows A (s.feed ((Edit.eraseBehind .toBegin).written e))
      (Edit.eraseBehind .toBegin e).editor [] := by
  obtain ⟨left, right, hl, hr, hline, hs, hwidth⟩ := h.exists_between hA hfit
  rw [written_eraseBehind, editor_eraseBehind, hline, Line.erase?_toBegin_between hA hl hr]
  by_cases hempty : left = []
  · rw [if_pos hempty]
    exact h
  · rw [if_neg hempty]
    exact h.eraseMid hA over_nil hl hr hs (by omega)

theorem Shows.eraseToEnd (h : Shows A s e []) (hfit : Fits e) :
    Shows A (s.feed (Edit.eraseToEnd.written e)) (Edit.eraseToEnd e).editor [] := by
  obtain ⟨left, right, hl, hr, hline, hs, hwidth⟩ := h.exists_between hA hfit
  rw [written_eraseToEnd, editor_eraseToEnd, hline, Line.erase?_toEnd_between hA hl hr]
  by_cases hempty : right = []
  · rw [if_pos hempty]
    exact h
  · rw [if_neg hempty]
    exact Shows.of_between hA h.prompt h.history hl over_nil rfl hs.eraseLineToEnd

theorem Shows.eraseEverything (h : Shows A s e []) (hfit : Fits e) :
    Shows A (s.feed (Edit.eraseEverything.written e)) (Edit.eraseEverything e).editor [] := by
  obtain ⟨left, right, hl, hr, hline, hs, hwidth⟩ := h.exists_between hA hfit
  rw [written_eraseEverything, editor_eraseEverything, hline, Line.erase?_everything_between]
  by_cases hempty : left ++ right = []
  · rw [if_pos hempty]
    exact h
  · rw [if_neg hempty]
    have herased := (hs.backward (w := displayWidth left) (extent_eq_displayWidth hA hl).symm
      (by rw [← extent_eq_displayWidth hA hl]; omega)).eraseLineToEnd
    rw [← Screen.feed_append] at herased
    refine Shows.of_between hA h.prompt h.history over_nil over_nil rfl ?_
    dsimp only
    rw [Line.before_between hA hl hr, List.append_nil]
    exact herased

/-- The cursor moves back, as far as there is something in front of it. -/
theorem Shows.moveBack (h : Shows A s e []) (hfit : Fits e) (n : Nat) :
    Shows A (s.feed (Edit.backward (e.line.widthBefore n)))
      { e with line := e.line.move (-(n : Int)) } [] := by
  obtain ⟨left, right, hl, hr, hline, hs, hwidth⟩ := h.exists_between hA hfit
  obtain ⟨first, last, rfl, hlast⟩ := Line.exists_last left n
  obtain ⟨hfirst, hmid⟩ := over_append.1 hl
  rw [hline, Line.move_backward hA hfirst hr hmid hlast,
    Line.widthBefore_between hA hfirst hr hmid hlast, ← extent_eq_displayWidth hA hmid]
  rw [extent_append] at hwidth
  rw [← List.append_assoc] at hs
  exact Shows.of_between hA h.prompt h.history hfirst (over_append.2 ⟨hmid, hr⟩) rfl
    (hs.backward rfl (by omega))

theorem Shows.goBackward (h : Shows A s e []) (hfit : Fits e) (n : Nat) :
    Shows A (s.feed ((Edit.goBackward n).written e)) (Edit.goBackward n e).editor [] := by
  rw [written_goBackward, editor_goBackward]
  by_cases hzero : min n e.line.cursor = 0
  · rw [if_pos hzero, if_pos hzero]
    exact h
  · rw [if_neg hzero, if_neg hzero]
    exact h.moveBack hA hfit _

theorem Shows.goForward (h : Shows A s e []) (hfit : Fits e) (n : Nat) :
    Shows A (s.feed ((Edit.goForward n).written e)) (Edit.goForward n e).editor [] := by
  obtain ⟨left, right, hl, hr, hline, hs, hwidth⟩ := h.exists_between hA hfit
  obtain ⟨first, last, rfl, hfirst⟩ := Line.exists_first right n
  obtain ⟨hmid, hlast⟩ := over_append.1 hr
  have hmove := Line.move_forward hA hl hlast hmid (n := n) (by omega)
  -- the width is that of the clusters passed, which may be fewer than `n`
  have hmoved : ((Line.between left (first ++ last)).moved n).natAbs = first.length := by
    have hcursor : (Line.between left (first ++ last)).target n = (left ++ first).length :=
      congrArg Line.cursor hmove
    rw [Line.moved, hcursor, Line.cursor_between, List.length_append]
    omega
  rw [written_goForward, editor_goForward, hline, hmoved, hmove,
    Line.widthBefore_between hA hl hlast hmid (by omega), ← extent_eq_displayWidth hA hmid]
  rw [extent_append] at hwidth
  have hforward := hs.forward rfl (by omega)
  rw [List.append_assoc] at hforward
  exact Shows.of_between hA h.prompt h.history (over_append.2 ⟨hl, hmid⟩) hlast rfl hforward

theorem Shows.moveToEnd (h : Shows A s e []) (hfit : Fits e) :
    Shows A (s.feed (forward e.line.widthAfter)) { e with line := e.line.moveToEnd } [] := by
  obtain ⟨left, right, hl, hr, hline, hs, hwidth⟩ := h.exists_between hA hfit
  rw [hline, Line.widthAfter_between hA hl hr, Line.moveToEnd_between hA hl hr,
    ← extent_eq_displayWidth hA hr]
  rw [← List.append_nil right] at hs
  have hforward := hs.forward rfl (by omega)
  rw [List.append_assoc] at hforward
  exact Shows.of_between hA h.prompt h.history (over_append.2 ⟨hl, hr⟩) over_nil rfl hforward

/-- Another text in the place of the line. -/
theorem Shows.redrawn (h : Shows A s e []) (hfit : Fits e) {text : List Char}
    (ht : Over A text) {history : History} (hh : history.AllOver A) :
    Shows A (s.feed (Edit.redrawn e.line text)) { e with history, line := .ofText text } [] := by
  obtain ⟨left, right, hl, hr, hline, hs, hwidth⟩ := h.exists_between hA hfit
  have hreplaced := hs.replaceAll (printed_of_over hA ht) (by omega)
  rw [extent_eq_displayWidth hA hr, extent_eq_displayWidth hA (over_append.2 ⟨hl, hr⟩)]
    at hreplaced
  refine Shows.of_between hA h.prompt hh ht over_nil (Line.ofText_eq_between hA ht) ?_
  rw [Edit.redrawn, hline, Line.widthAfter_between hA hl hr, Line.text_between]
  exact hreplaced

theorem Shows.browse (h : Shows A s e []) (hfit : Fits e) (direction : Direction) (n : Nat) :
    Shows A (s.feed ((Edit.browse direction n).written e))
      (Edit.browse direction n e).editor [] := by
  have hnone : ∀ line, (none : Option (List Char)) = some line → Over A line := by simp
  obtain ⟨hhistory, hselected⟩ := h.history.historySteps direction h.text n hnone
  rw [written_browse, editor_browse]
  change (walked e direction n).2.AllOver A at hhistory
  change ∀ line, (walked e direction n).1 = some line → Over A line at hselected
  cases hfound : (walked e direction n).1 with
  | none => exact ⟨⟨h.prompt, h.text, h.wellFormed, hhistory⟩, h.screen⟩
  | some entry => exact h.redrawn hA hfit (hselected entry hfound) hhistory

/-- A row below that is not used yet is a fresh one. -/
theorem Shows.lineBreak (h : Shows A s e []) {history : History} (hh : history.AllOver A)
    {line : Line} (hline : line = .empty) :
    Fresh A (s.feed Edit.lineBreak) { e with history, line } :=
  Fresh.of_between hA h.prompt hh over_nil over_nil hline h.screen.lineBreak

theorem Shows.enter (h : Shows A s e []) (hfit : Fits e) :
    if expansion e = e.line.text then
      Fresh A (s.feed (Edit.enter.written e)) (Edit.enter e).editor
    else Shows A (s.feed (Edit.enter.written e)) (Edit.enter e).editor [] := by
  have hend := h.moveToEnd hA hfit
  rw [written_enter, editor_enter, Screen.feed_append]
  by_cases hsame : expansion e = e.line.text
  · rw [if_pos hsame, if_pos hsame, if_pos hsame]
    exact hend.lineBreak hA (h.history.append h.text).reset rfl
  · rw [if_neg hsame, if_neg hsame, if_neg hsame]
    exact hend.redrawn hA hfit (h.history.expand h.text) h.history

theorem Shows.interrupt (h : Shows A s e []) :
    Fresh A (s.feed (Edit.interrupt.written e)) (Edit.interrupt e).editor := by
  rw [written_interrupt, editor_interrupt]
  exact h.lineBreak hA h.history.reset rfl

/-! ## Completion -/

theorem Shows.complete (h : Shows A s e []) (hfit : Fits e) {replacement : List Char}
    (ht : Over A replacement) :
    Shows A (s.feed ((Edit.complete replacement).written e))
      (Edit.complete replacement e).editor [] := by
  obtain ⟨left, right, hl, hr, hline, hs, hwidth⟩ := h.exists_between hA hfit
  have hstart : e.line.wordStart ≤ left.length := by
    have hle := e.line.wordStart_le
    rwa [hline, Line.before_between hA hl hr, hA.clusters_eq left hl, List.length_map, ← hline]
      at hle
  generalize hword : e.line.wordStart = start at hstart
  -- the word is the part of `left` behind `start`
  obtain ⟨kept, word, rfl, rfl⟩ : ∃ kept word, left = kept ++ word ∧ kept.length = start :=
    ⟨left.take start, left.drop start, (List.take_append_drop _ _).symm,
      by rw [List.length_take]; omega⟩
  obtain ⟨hkept, hmid⟩ := over_append.1 hl
  rw [written_complete, editor_complete, hword, hline, Line.cursor_between, List.length_append,
    Nat.add_sub_cancel_left, Line.replaceBefore_between hA hkept hr hmid ht,
    Line.widthBefore_between hA hkept hr hmid (by omega), remainder,
    Line.after_between hA (over_append.2 ⟨hkept, ht⟩) hr,
    Line.widthAfter_between hA (over_append.2 ⟨hkept, ht⟩) hr, ← extent_eq_displayWidth hA hr,
    ← extent_eq_displayWidth hA hmid]
  rw [extent_append] at hwidth
  rw [← List.append_assoc] at hs
  have hreplaced := hs.replaceBehind (printed_of_over hA ht) (printed_of_over hA hr) (by omega)
  rw [List.append_assoc e.prompt] at hreplaced
  exact Shows.of_between hA h.prompt h.history (over_append.2 ⟨hkept, ht⟩) hr rfl hreplaced

theorem Shows.showCandidates (h : Shows A s e []) (hfit : Fits e) {grid : Grid}
    (hrows : ∀ row ∈ grid.rows, Printed row) (hpos : 0 < grid.rowCount)
    (hle : grid.rowCount ≤ 65535) :
    Shows A (s.feed ((Edit.showCandidates grid).written e))
      (Edit.showCandidates grid e).editor grid.rows := by
  have hend := (h.moveToEnd hA hfit).screen.showRows (n := grid.rowCount) hrows rfl hpos hle
  obtain ⟨left, right, hl, hr, hline, _, hwidth⟩ := h.exists_between hA hfit
  have hlr : Over A (left ++ right) := over_append.2 ⟨hl, hr⟩
  have hpt : Over A (e.prompt ++ (left ++ right)) := over_append.2 ⟨h.prompt, hlr⟩
  -- the cursor moves from the beginning of the row to the end of the line
  have hprompt : promptWidth e.prompt + displayWidth (left ++ right) =
      extent (e.prompt ++ (left ++ right)) := by
    rw [promptWidth, shown_eq_self (printed_of_over hA h.prompt), extent_eq_displayWidth hA hpt,
      hA.displayWidth_append h.prompt hlr]
  have hmoved := Line.moveToEnd_between hA hl hr
  rw [hline, hmoved, Line.before_between hA hlr over_nil, Line.after_between hA hlr over_nil]
    at hend
  have hforward := hend.forward hprompt
    (by rw [hprompt, extent_append, extent_append]; exact hwidth)
  rw [written_showCandidates, editor_showCandidates, hline, hmoved, Line.text_between]
  refine Shows.of_between hA h.prompt h.history hlr over_nil rfl ?_
  simpa only [Screen.feed_append, List.append_assoc, List.nil_append] using hforward

/-- How the rows below the line and the mode of the editor belong together: the cursor stands at
    the end of the line while there are any. -/
structure Mirrors (A : Char → Prop) (s : Screen) (e : Editor) (rows : List (List Char)) : Prop
    extends Shows A s e rows where
  input : e.mode = .input → rows = []
  popup : ∀ p, e.mode = .popup p → p.rows = rows.length ∧ e.line.after = []

/-- Candidates go away before an event, and the cursor of the line goes back to where it was. -/
theorem Mirrors.dismiss {rows : List (List Char)} (h : Mirrors A s e rows) (hfit : Fits e)
    (event : Event) : Shows A (s.feed (dismissal e event)) (dismissed e) [] := by
  unfold dismissal dismissed
  cases hmode : e.mode with
  | input =>
      have hrows := h.input hmode
      subst hrows
      exact h.toShows
  | popup p =>
      obtain ⟨hcount, hafter⟩ := h.popup p hmode
      -- the cursor is at the end of the line, so what is erased behind it is only the rows below
      have hwiped : Shows A (s.feed (wiping event p)) { e with mode := .input } [] := by
        refine ⟨⟨h.prompt, h.text, h.wellFormed, h.history⟩, ?_⟩
        have hscreen := h.screen
        rw [hafter] at hscreen
        change Displays _ (e.prompt ++ e.line.before) e.line.after []
        rw [hafter]
        cases event with
        | screenSize width height => exact hscreen.eraseToEnd
        | _ =>
            rw [wiping, hcount]
            · exact hscreen.wipeRows
            · simp
      rw [Screen.feed_append]
      exact hwiped.moveBack hA hfit p.distance

end Keys

end Promptline
