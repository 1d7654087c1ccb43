import Promptline.Proofs.Editor.Browsing

set_option autoImplicit false

/-! # Walking through the history

A walk through the history can be taken in any number of goes: some steps and then some more lead to
the same editor as all of them at once (`browse_browse`), because a step depends on nothing but the
history and the line that is shown. So a walk up and back down comes to a closed form: to the entry
that many places from the newest, or the oldest, and on the way down to the entries in order and at
last to the line that was being typed (`walk_recalls`). What becomes of a recalled line in between
plays no part, as long as the history is left alone. -/

namespace Promptline

open Terminal

/-! ## Steps -/

namespace Edit

theorem historySteps_one (direction : Direction) (text : List Char)
    (selected : Option (List Char)) (h : History) :
    historySteps direction text 1 selected h =
      ((historyStep direction h (selected.getD text)).1 <|> selected,
        (historyStep direction h (selected.getD text)).2) :=
  rfl

/-- Steps can be taken one part after another. -/
theorem historySteps_add (direction : Direction) (text : List Char) (a b : Nat)
    (selected : Option (List Char)) (h : History) :
    historySteps direction text (a + b) selected h =
      historySteps direction text b (historySteps direction text a selected h).1
        (historySteps direction text a selected h).2 := by
  induction a generalizing selected h with
  | zero => rw [Nat.zero_add, historySteps]
  | succ a ih => rw [Nat.add_right_comm, historySteps_succ, historySteps_succ, ih]

/-- Steps go on from a line that was selected as from one that was typed. -/
theorem historySteps_selected (direction : Direction) (text : List Char) (n : Nat)
    (selected : Option (List Char)) (h : History) :
    historySteps direction text n selected h =
      ((historySteps direction (selected.getD text) n none h).1 <|> selected,
        (historySteps direction (selected.getD text) n none h).2) := by
  induction n generalizing text selected h with
  | zero => exact Prod.ext (Option.none_or).symm rfl
  | succ n ih =>
      rw [historySteps_succ, historySteps_succ, Option.getD_none]
      generalize historyStep direction h (selected.getD text) = step
      obtain ⟨found, h'⟩ := step
      dsimp only
      rw [ih text (found <|> selected) h', ih (selected.getD text) (found <|> none) h']
      -- a line that is found takes the place of the one that was selected
      cases found with
      | none => simp
      | some line => simp

end Edit

namespace History

open Edit

variable {h : History} (text : List Char)

theorem selectNext_eq (hcursor : h.cursor ≤ h.length) :
    h.selectNext =
      (if h.cursor < h.length then h.entries[h.cursor]? else h.draft,
        { h with cursor := min (h.cursor + 1) h.length }) := by
  unfold selectNext
  by_cases hnewer : h.cursor < h.length
  · rw [if_pos hnewer, if_pos hnewer, Nat.min_eq_left hnewer]
  · have hend : min (h.cursor + 1) h.length = h.cursor := by omega
    rw [if_neg hnewer, if_neg hnewer, hend]

theorem cursor_historySteps_older (n : Nat) (selected : Option (List Char)) :
    (historySteps .older text n selected h).2.cursor = h.cursor - n := by
  induction n generalizing selected h with
  | zero => rfl
  | succ n ih =>
      rw [historySteps_succ, ih, historyStep, selectPrevious_eq, Nat.sub_sub, Nat.add_comm]

theorem cursor_historySteps_newer (hcursor : h.cursor ≤ h.length) (n : Nat)
    (selected : Option (List Char)) :
    (historySteps .newer text n selected h).2.cursor = min (h.cursor + n) h.length := by
  induction n generalizing selected h with
  | zero => exact (Nat.min_eq_left hcursor).symm
  | succ n ih =>
      rw [historySteps_succ, historyStep, selectNext_eq hcursor]
      refine (ih (Nat.min_le_right _ _) _).trans ?_
      show min (min (h.cursor + 1) h.length + n) h.length = min (h.cursor + (n + 1)) h.length
      omega

/-- Steps to what is older, from an entry or from behind the newest, lead to the entry that many
    places before, or to the oldest. -/
theorem selected_historySteps_older (hpos : 0 < h.cursor) (hcursor : h.cursor ≤ h.length)
    (n : Nat) :
    (historySteps .older text (n + 1) none h).1 = h.entries[h.cursor - (n + 1)]? := by
  induction n with
  | zero =>
      rw [historySteps_one, historyStep, selectPrevious_eq, if_neg (Nat.ne_of_gt hpos)]
      simp
  | succ n ih =>
      have hplace := cursor_historySteps_older (h := h) text (n + 1) none
      have hentries := (kept_historySteps .older text (n + 1) none h).1
      rw [historySteps_add, historySteps_one, historyStep, selectPrevious_eq, hplace, hentries, ih]
      by_cases holdest : h.cursor - (n + 1) = 0
      · -- there is nothing older, and the oldest stays selected
        have hstays : h.cursor - (n + 1 + 1) = h.cursor - (n + 1) := by omega
        rw [if_pos holdest, hstays]
        rfl
      · have hwithin : h.cursor - (n + 1) - 1 < h.entries.length := by
          have : h.length = h.entries.length := rfl
          omega
        rw [if_neg holdest, Nat.sub_sub, List.getElem?_eq_getElem (by omega)]
        rfl

/-- Steps to what is newer show the entries from the place of browsing on, in order, and behind the
    newest the draft. -/
theorem selected_historySteps_newer (hcursor : h.cursor ≤ h.length) {line : List Char}
    (hdraft : h.draft = some line) (n : Nat) :
    (historySteps .newer text (n + 1) none h).1 =
      if h.cursor + n < h.length then h.entries[h.cursor + n]? else some line := by
  induction n with
  | zero =>
      rw [historySteps_one, historyStep, selectNext_eq hcursor, hdraft]
      simp
  | succ n ih =>
      have hplace := cursor_historySteps_newer text hcursor (n + 1) none
      have hentries := (kept_historySteps .newer text (n + 1) none h).1
      have hkept := draft_historySteps_newer (h := h) text (n + 1) none
      have hlength : (historySteps .newer text (n + 1) none h).2.length = h.length :=
        congrArg List.length hentries
      have hwithin : (historySteps .newer text (n + 1) none h).2.cursor ≤
          (historySteps .newer text (n + 1) none h).2.length := by
        rw [hplace, hlength]
        exact Nat.min_le_right _ _
      rw [historySteps_add, historySteps_one, historyStep, selectNext_eq hwithin, hplace, hlength,
        hentries, hkept, hdraft, ih]
      by_cases hlater : h.cursor + (n + 1) < h.length
      · have hsame : min (h.cursor + (n + 1)) h.length = h.cursor + (n + 1) := by omega
        rw [if_pos hlater, hsame, if_pos hlater, List.getElem?_eq_getElem hlater]
        rfl
      · have hend : min (h.cursor + (n + 1)) h.length = h.length := by omega
        rw [if_neg hlater, hend, if_neg (Nat.lt_irrefl _)]
        rfl

end History

/-! ## Goes -/

namespace Edit

/-- The keys that take a number of steps through the history. -/
inductive Walks : Direction → Nat → Event → Prop where
  | cursorUp (n : UInt16) : Walks .older n.toNat (.cursorUp n)
  | cursorPreviousLine (n : UInt16) : Walks .older n.toNat (.cursorPreviousLine n)
  | cursorDown (n : UInt16) : Walks .newer n.toNat (.cursorDown n)
  | cursorNextLine (n : UInt16) : Walks .newer n.toNat (.cursorNextLine n)

/-- **Two goes are one.** -/
theorem browse_browse (e : Editor) (direction : Direction) (a b : Nat) :
    (browse direction b (browse direction a e).editor).editor =
      (browse direction (a + b) e).editor := by
  have hall : walked e direction (a + b) =
      historySteps direction e.line.text b (walked e direction a).1 (walked e direction a).2 :=
    historySteps_add direction e.line.text a b none e.history
  rw [historySteps_selected] at hall
  rw [editor_browse, editor_browse, editor_browse, hall]
  generalize walked e direction a = first
  obtain ⟨selected, history⟩ := first
  cases selected with
  | none =>
      have hsecond : walked { e with history } direction b =
          historySteps direction e.line.text b none history := rfl
      dsimp only
      rw [hsecond, Option.getD_none]
      generalize historySteps direction e.line.text b none history = second
      obtain ⟨selected, history'⟩ := second
      cases selected <;> rfl
  | some entry =>
      have hsecond : walked { e with history, line := .ofText entry } direction b =
          historySteps direction entry b none history := rfl
      dsimp only
      rw [hsecond, Option.getD_some]
      generalize historySteps direction entry b none history = second
      obtain ⟨selected, history'⟩ := second
      cases selected <;> rfl

variable {e : Editor} {direction : Direction} {n : Nat} {event : Event}

theorem mode_browse (e : Editor) (direction : Direction) (n : Nat) :
    (browse direction n e).editor.mode = e.mode := by
  rw [editor_browse]
  cases (walked e direction n).1 <;> rfl

theorem run_apply_walks (files : FileTree) (hwalks : Walks direction n event) (e : Editor) :
    ((apply files event).run e .working).editor = (browse direction n (dismissed e)).editor := by
  rw [run_working_editor, editor_apply]
  cases hwalks with
  | cursorUp n => exact (if_neg nofun).trans (editor_applyKey e _)
  | cursorPreviousLine n => exact (if_neg nofun).trans (editor_applyKey e _)
  | cursorDown n => exact (if_neg nofun).trans (editor_applyKey e _)
  | cursorNextLine n => exact (if_neg nofun).trans (editor_applyKey e _)

end Edit

/-- The line with a number, counted from 1: an entry, or the line that is being typed, which comes
    behind the newest of them. -/
def History.lineAt? (h : History) (typed : List Char) (i : Nat) : Option (List Char) :=
  if i ≤ h.length then h.entry? i else some typed

theorem History.lineAt?_congr {h h' : History} (hentries : h.entries = h'.entries)
    (typed : List Char) (i : Nat) : h.lineAt? typed i = h'.lineAt? typed i := by
  unfold lineAt? entry? length
  rw [hentries]

namespace Editor

open Edit

variable {files : FileTree} {e above below : Editor} {entries : List (List Char)}
  {place j k n : Nat} {typed : List Char}

/-- An editor that browses: its history holds the entries, some of which are older than the place of
    browsing, and the line that was being typed. -/
structure Browses (e : Editor) (entries : List (List Char)) (place : Nat) (typed : List Char) :
    Prop where
  entries : e.history.entries = entries
  cursor : e.history.cursor = place
  draft : e.history.draft = some typed

/-- What some steps to what is newer lead to. -/
theorem Browses.browse_newer (h : e.Browses entries place typed) (hplace : place ≤ entries.length)
    (hn : 1 ≤ n) :
    (browse .newer n e).editor.Browses entries (min (place + n) entries.length) typed ∧
      ∃ line, e.history.lineAt? typed (place + n) = some line ∧
        (browse .newer n e).editor.line = .ofText line := by
  obtain ⟨n, rfl⟩ := Nat.exists_eq_add_of_le' hn
  have hlength : e.history.length = entries.length := congrArg List.length h.entries
  have hcursor : e.history.cursor ≤ e.history.length := by rwa [h.cursor, hlength]
  constructor
  · refine ⟨?_, ?_, ?_⟩
    · rw [history_browse]
      exact (History.kept_historySteps ..).1.trans h.entries
    · rw [history_browse, walked, History.cursor_historySteps_newer _ hcursor, h.cursor, hlength]
    · rw [history_browse]
      exact (History.draft_historySteps_newer ..).trans h.draft
  · obtain ⟨line, hline⟩ : ∃ line, e.history.lineAt? typed (place + (n + 1)) = some line := by
      unfold History.lineAt?
      split
      · next hwithin =>
          unfold History.entry?
          rw [if_neg (by omega)]
          exact ⟨_, List.getElem?_eq_getElem hwithin⟩
      · exact ⟨typed, rfl⟩
    refine ⟨line, hline, ?_⟩
    have hselected : (walked e .newer (n + 1)).1 = some line := by
      rw [walked, History.selected_historySteps_newer _ hcursor h.draft, h.cursor, ← hline]
      exact if_congr Nat.lt_iff_add_one_le (if_neg (Nat.succ_ne_zero _)).symm rfl
    rw [editor_browse, hselected]

/-- What some steps to what is older lead to, where nothing is selected. -/
theorem browses_browse_older (hnothing : e.history.nothingSelected = true)
    (hpos : 0 < e.history.length) (hk : 1 ≤ k) :
    (browse .older k e).editor.Browses e.history.entries (e.history.length - k) e.line.text ∧
      ∃ entry, e.history.entry? (max (e.history.length - k + 1) 1) = some entry ∧
        (browse .older k e).editor.line = .ofText entry := by
  obtain ⟨k, rfl⟩ := Nat.exists_eq_add_of_le' hk
  have hcursor : e.history.cursor = e.history.length := History.nothingSelected_iff.1 hnothing
  constructor
  · refine ⟨?_, ?_, ?_⟩
    · rw [history_browse]
      exact (History.kept_historySteps ..).1
    · rw [history_browse, walked, History.cursor_historySteps_older, hcursor]
    · rw [history_browse, walked, History.draft_historySteps_older (Nat.le_of_eq hcursor),
        if_pos ⟨Nat.succ_pos k, hnothing⟩]
      rfl
  · have hwithin : e.history.length - (k + 1) < e.history.entries.length := by
      have : e.history.length = e.history.entries.length := rfl
      omega
    refine ⟨e.history.entries[e.history.length - (k + 1)], ?_, ?_⟩
    · unfold History.entry?
      rw [Nat.max_eq_left (Nat.le_add_left _ _), if_neg (Nat.succ_ne_zero _)]
      exact List.getElem?_eq_getElem hwithin
    · have hselected : (walked e .older (k + 1)).1 =
          some e.history.entries[e.history.length - (k + 1)] := by
        rw [walked, History.selected_historySteps_older _ (hcursor ▸ hpos) (Nat.le_of_eq hcursor),
          hcursor]
        exact List.getElem?_eq_getElem hwithin
      rw [editor_browse, hselected]

/-- The editor after some steps to what is older, taken in any number of goes, one right behind the
    other. -/
inductive Climbed (files : FileTree) : Nat → Editor → Editor → Prop where
  | start (e : Editor) : Climbed files 0 e e
  | event {k n : Nat} {e above : Editor} {event : Event} (before : Climbed files k e above)
      (walks : Walks .older n event) :
      Climbed files (k + n) e ((apply files event).run above .working).editor

/-- The editor after some steps to what is newer, taken in any number of goes. Before each of them
    the editor may change in any way that leaves the history alone, as editing the line does. -/
inductive Descended (files : FileTree) : Nat → Editor → Editor → Prop where
  | start (e : Editor) : Descended files 0 e e
  | event {j n : Nat} {e below edited : Editor} {event : Event}
      (before : Descended files j e below) (kept : edited.history = below.history)
      (walks : Walks .newer n event) (step : 1 ≤ n) :
      Descended files (j + n) e ((apply files event).run edited .working).editor

theorem Climbed.dismissed_eq (h : Climbed files k e above) :
    dismissed above = (browse .older k (dismissed e)).editor := by
  induction h with
  | start e => rfl
  | event _ walks ih =>
      rw [run_apply_walks files walks, ih, browse_browse]
      refine dismissed_eq_self ?_
      rw [mode_browse, dismissed_mode]

/-- Any number of goes up are one. -/
theorem Climbed.eq_browse (h : Climbed files k e above) (hk : 1 ≤ k) :
    above = (browse .older k (dismissed e)).editor := by
  cases h with
  | start => exact absurd hk (by decide)
  | event before walks => rw [run_apply_walks files walks, before.dismissed_eq, browse_browse]

/-- **The way down**, however the line is changed in between. -/
theorem Descended.browses (h : Descended files j above below)
    (habove : above.Browses entries place typed) (hplace : place ≤ entries.length) :
    below.Browses entries (min (place + j) entries.length) typed ∧
      (1 ≤ j → ∃ line, above.history.lineAt? typed (place + j) = some line ∧
        below.line = .ofText line) := by
  induction h with
  | start e =>
      rw [Nat.add_zero, Nat.min_eq_left hplace]
      exact ⟨habove, fun hj => absurd hj (by decide)⟩
  | @event j n above below edited event _ kept walks step ih =>
      obtain ⟨⟨hentries, hcursor, hdraft⟩, _⟩ := ih habove
      have hhistory : (dismissed edited).history = below.history :=
        (history_dismissed edited).trans kept
      have hedited : (dismissed edited).Browses entries (min (place + j) entries.length) typed := by
        refine ⟨?_, ?_, ?_⟩ <;> rw [hhistory] <;> assumption
      obtain ⟨hbrowses, line, hline, hshown⟩ :=
        hedited.browse_newer (Nat.min_le_right _ _) step
      rw [run_apply_walks files walks]
      -- behind the newest entry every further step is one more to the same place
      have hnext : min (min (place + j) entries.length + n) entries.length =
          min (place + (j + n)) entries.length := by omega
      rw [hnext] at hbrowses
      refine ⟨hbrowses, fun _ => ⟨line, ?_, hshown⟩⟩
      rw [History.lineAt?_congr (hedited.entries.trans habove.entries.symm)] at hline
      have hlength : above.history.length = entries.length := congrArg List.length habove.entries
      rw [← hline, History.lineAt?, History.lineAt?, hlength]
      by_cases hwithin : place + (j + n) ≤ entries.length
      · have hsame : min (place + j) entries.length + n = place + (j + n) := by omega
        rw [hsame]
      · rw [if_neg hwithin, if_neg (by omega)]

/-- **Walking through the history.** On a terminal that takes every write, where nothing is selected
    in a history with entries: steps to what is older, in any number of goes, recall the entry that
    many places from behind the newest, or the oldest; and steps to what is newer, in any number of
    goes behind these, and with the line edited before each, recall the entries from there on, in
    order, and at last, again and again, the line that was being typed. The cursor comes to stand at
    the end each time. And from every editor, one go behind another leads to the same editor as one
    go of as many steps. -/
theorem walk_recalls (files : FileTree) :
    (∀ e : Editor, 0 < e.history.length → e.history.nothingSelected = true →
      ∀ k above, 1 ≤ k → Climbed files k e above →
        (∃ entry, e.history.entry? (max (e.history.length - k + 1) 1) = some entry ∧
          above.line = .ofText entry) ∧
        ∀ j below, 1 ≤ j → Descended files j above below →
          ∃ line, e.history.lineAt? e.line.text (e.history.length - k + j) = some line ∧
            below.line = .ofText line) ∧
    (∀ (e : Editor) (direction : Direction) (a b : Nat) (first second both : Event),
      Walks direction a first → Walks direction b second → Walks direction (a + b) both →
        ((apply files second).run ((apply files first).run e .working).editor .working).editor =
          ((apply files both).run e .working).editor) := by
  constructor
  · intro e hpos hnothing k above hk hclimbed
    have hbrowse := browses_browse_older (e := dismissed e) (k := k)
      (by rwa [history_dismissed]) (by rwa [history_dismissed]) hk
    rw [← hclimbed.eq_browse hk, history_dismissed, text_dismissed] at hbrowse
    obtain ⟨hbrowses, hrecalled⟩ := hbrowse
    refine ⟨hrecalled, fun j below hj hdescended => ?_⟩
    obtain ⟨line, hline, hshown⟩ := (hdescended.browses hbrowses (Nat.sub_le _ _)).2 hj
    rw [History.lineAt?_congr hbrowses.entries] at hline
    exact ⟨line, hline, hshown⟩
  · intro e direction a b first second both hfirst hsecond hboth
    have hmode : (browse direction a (dismissed e)).editor.mode = .input := by
      rw [mode_browse, dismissed_mode]
    rw [run_apply_walks files hfirst, run_apply_walks files hsecond, run_apply_walks files hboth,
      dismissed_eq_self hmode, browse_browse]

/-- Two lines were entered and a third is being typed. Two goes of three steps in all recall the
    oldest line; text is put in, and two steps recall the newest; text is put in, and one step more
    gives back what was being typed. -/
theorem walk_recalls_two_lines :
    let e : Editor :=
      { Editor.start ['>'] ⟨[], [], .tableOnly⟩ (((History.empty 10).append ['a']).append ['b'])
          (80, 24) with
        line := .ofText ['c'] }
    let press (e : Editor) (event : Event) := ((apply .empty event).run e .working).editor
    let above := press (press e (.cursorUp 1)) (.cursorPreviousLine 2)
    let newest := press (press above (.text ['x'])) (.cursorDown 2)
    let below := press (press newest (.text ['x'])) (.cursorNextLine 1)
    0 < e.history.length ∧ e.history.nothingSelected = true ∧ Climbed .empty 3 e above ∧
      above.line = .ofText ['a'] ∧ Descended .empty 2 above newest ∧ newest.line = .ofText ['b'] ∧
      Descended .empty 3 above below ∧ below.line = .ofText ['c'] ∧
      above = press e (.cursorUp 3) := by
  intro e press above newest below
  have hpos : 0 < e.history.length := by decide
  have hnothing : e.history.nothingSelected = true := by decide
  have hup : Climbed .empty 3 e above :=
    ((Climbed.start e).event (.cursorUp 1)).event (.cursorPreviousLine 2)
  have habovekept : (press above (.text ['x'])).history = above.history := by decide +kernel
  have hnewestkept : (press newest (.text ['x'])).history = newest.history := by decide +kernel
  have hfirst : Descended .empty 2 above newest :=
    (Descended.start above).event habovekept (.cursorDown 2) (by decide)
  have hsecond : Descended .empty 3 above below :=
    hfirst.event hnewestkept (.cursorNextLine 1) (by decide)
  obtain ⟨hrecalls, hgoes⟩ := walk_recalls .empty
  obtain ⟨⟨entry, hentry, habove⟩, hback⟩ := hrecalls e hpos hnothing 3 above (by decide) hup
  obtain ⟨line, hline, hnewest⟩ := hback 2 newest (by decide) hfirst
  obtain ⟨typed, htyped, hbelow⟩ := hback 3 below (by decide) hsecond
  cases hentry
  cases hline
  cases htyped
  exact ⟨hpos, hnothing, hup, habove, hfirst, hnewest, hsecond, hbelow,
    hgoes e .older 1 2 _ _ _ (.cursorUp 1) (.cursorPreviousLine 2) (.cursorUp 3)⟩

end Editor

end Promptline
