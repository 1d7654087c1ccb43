import Promptline.Proofs.Editor.Input
import Promptline.Proofs.History.Bounds
import Promptline.Proofs.Line.Cursor
import Promptline.Proofs.Terminal.Typing

set_option autoImplicit false

/-! # What is typed is what is entered

Text that is typed at the end of a line is appended to it, whatever clusters it joins there, and in
however many parts it arrives (`applyAll_withRun`). So a line that is typed in chunks, which may end
inside a character, is entered as the text that it is (`processAll_typed`), and the caller gets
that text and nothing else (`typed_is_entered`). -/

namespace Promptline

open Terminal Unicode

namespace Line

theorem before_ofText (text : List Char) : (ofText text).before = text := by
  show ((clusters text).take (clusters text).length).flatten = text
  rw [List.take_length, clusters_flatten]

theorem after_ofText (text : List Char) : (ofText text).after = [] := by
  show ((clusters text).drop (clusters text).length).flatten = []
  rw [List.drop_length]
  rfl

/-- Text is appended where the cursor is at the end, and the cursor stays there. -/
theorem insert_ofText (text s : List Char) : (ofText text).insert s = ofText (text ++ s) := by
  rw [insert, before_ofText, after_ofText, List.append_nil, Nat.min_self]
  rfl

end Line

namespace Edit

variable (files : FileTree)

/-! ## Events -/

theorem value_applyNext (event : Event) (rest : List Event) (e : Editor) :
    (applyNext files event rest e).value = (apply files event { e with queue := rest }).value := by
  rw [applyNext, value_bind, editor_update]

theorem editor_applyNext (event : Event) (rest : List Event) (e : Editor) :
    (applyNext files event rest e).editor =
      (apply files event { e with queue := rest }).editor := by
  rw [applyNext, editor_bind, editor_update]

/-- What entering a text comes to. -/
def entered (h : History) (text : List Char) : Outcome :=
  if h.expand text = text then .line text (clusterCount text) else .expanded (h.expand text)

/-- The editor in which a text was entered. -/
def afterEntered (e : Editor) (text : List Char) : Editor :=
  if e.history.expand text = text then
    { e with line := .empty, history := (e.history.append text).reset, needsPrompt := true }
  else { e with line := .ofText (e.history.expand text) }

/-- Text is put in at the cursor. -/
theorem apply_text (e : Editor) (s : List Char) :
    (apply files (.text s) e).value = none ∧
      (apply files (.text s) e).editor =
        { dismissed e with line := (dismissed e).line.insert s } := by
  have hvalue : (handle (.text s) (dismissed e)).value = none := rfl
  have heditor : (handle (.text s) (dismissed e)).editor =
      { dismissed e with line := (dismissed e).line.insert s } := by
    unfold handle
    dsimp only
    rw [editor_bind, editor_pure, editor_typeText]
  rw [value_apply, editor_apply, editor_applyKey, hvalue, heditor]
  exact ⟨rfl, rfl⟩

theorem wellFormed_dismissed {e : Editor} (h : e.line.WellFormed) :
    (dismissed e).line.WellFormed := by
  unfold dismissed
  split
  · exact h
  · exact e.line.wellFormed_move _

/-- The line is entered, wherever the cursor stands in it. -/
theorem apply_newline {e : Editor} (h : e.line.WellFormed) :
    (apply files .newline e).value = some (entered e.history e.line.text) ∧
      (apply files .newline e).editor = afterEntered (dismissed e) e.line.text := by
  rw [← history_dismissed e]
  have hexpansion : expansion (dismissed e) = (dismissed e).history.expand e.line.text := by
    rw [expansion, text_dismissed]
  have hcursor : (dismissed e).line.moveToEnd.cursor = clusterCount e.line.text := by
    rw [(wellFormed_dismissed h).cursor_moveToEnd, Line.length, text_dismissed]
  have hvalue : (handle .newline (dismissed e)).value =
      some (entered (dismissed e).history e.line.text) := by
    unfold handle
    dsimp only
    rw [value_bind, value_pure, value_enter, hexpansion, text_dismissed, hcursor]
    rfl
  have heditor : (handle .newline (dismissed e)).editor =
      if (dismissed e).history.expand e.line.text = e.line.text then
        { dismissed e with
          line := .empty
          history := ((dismissed e).history.append e.line.text).reset }
      else { dismissed e with line := .ofText ((dismissed e).history.expand e.line.text) } := by
    unfold handle
    dsimp only
    rw [editor_bind, editor_pure, editor_enter, hexpansion, text_dismissed]
  rw [value_apply, editor_apply, editor_applyKey, hvalue, heditor]
  refine ⟨rfl, ?_⟩
  unfold entered afterEntered
  by_cases hsame : (dismissed e).history.expand e.line.text = e.line.text
  · simp only [if_pos hsame]
    rfl
  · simp only [if_neg hsame]
    rfl

section Events

variable {e : Editor} {text : List Char} (hmode : e.mode = .input) (hline : e.line = .ofText text)
include hmode hline

/-- However much text stands in front of the other events, it is appended to the line, and they are
    acted on then. -/
theorem applyAll_withRun (s : List Char) (more : List Event) :
    (applyAll files (Decoder.withRun s more) { e with queue := Decoder.withRun s more }).value =
        (applyAll files more { e with queue := more, line := .ofText (text ++ s) }).value ∧
      (applyAll files (Decoder.withRun s more) { e with queue := Decoder.withRun s more }).editor =
        (applyAll files more { e with queue := more, line := .ofText (text ++ s) }).editor := by
  cases s with
  | nil =>
      rw [List.append_nil, ← hline]
      exact ⟨rfl, rfl⟩
  | cons c rest =>
      obtain ⟨hvalue, heditor⟩ := apply_text files { e with queue := more } (c :: rest)
      have hdismissed : dismissed { e with queue := more } = { e with queue := more } :=
        dismissed_eq_self hmode
      have hrun : Decoder.withRun (c :: rest) more = .text (c :: rest) :: more := rfl
      rw [hrun, value_applyAll_cons, editor_applyAll_cons, value_applyNext, editor_applyNext,
        hvalue, heditor, hdismissed]
      dsimp only
      rw [hline, Line.insert_ofText]
      exact ⟨rfl, rfl⟩

theorem applyAll_newline :
    (applyAll files [.newline] e).value = [entered e.history text] ∧
      (applyAll files [.newline] e).editor = afterEntered { e with queue := [] } text := by
  have hformed : e.line.WellFormed := by
    rw [hline]
    exact Line.wellFormed_ofText text
  have htext : e.line.text = text := by
    rw [hline]
    rfl
  have hdismissed : dismissed { e with queue := [] } = { e with queue := [] } :=
    dismissed_eq_self hmode
  obtain ⟨hvalue, heditor⟩ := apply_newline files (e := { e with queue := [] }) hformed
  rw [value_applyAll_cons, editor_applyAll_cons, value_applyNext, editor_applyNext, hvalue,
    heditor, hdismissed, htext]
  exact ⟨rfl, rfl⟩

end Events

/-! ## Chunks -/

/-- Decodes chunks one after another, acts on all events of each, and collects the outcomes. -/
def processAll : List (List UInt8) → Edit (List Outcome)
  | [] => pure []
  | chunk :: rest => do
    let outcomes ← processInput files chunk
    let later ← processAll rest
    pure (outcomes ++ later)

instance soundProcessAll (chunks : List (List UInt8)) : Sound (processAll files chunks) := by
  induction chunks with
  | nil => exact inferInstanceAs (Sound (pure []))
  | cons chunk rest ih =>
      unfold processAll
      infer_instance

theorem value_processAll_cons (chunk : List UInt8) (rest : List (List UInt8)) (e : Editor) :
    (processAll files (chunk :: rest) e).value =
      (processInput files chunk e).value ++
        (processAll files rest (processInput files chunk e).editor).value :=
  rfl

theorem editor_processAll_cons (chunk : List UInt8) (rest : List (List UInt8)) (e : Editor) :
    (processAll files (chunk :: rest) e).editor =
      (processAll files rest (processInput files chunk e).editor).editor :=
  rfl

section Chunks

/-- An editor with nothing queued, and what its decoder has read so far. -/
def reading (e : Editor) (d : Decoder) : Editor :=
  { e with decoder := d, queue := [] }

variable (e : Editor) (d : Decoder)

/-- Entering a text looks at nothing but the history, and leaves a line of its own. -/
theorem afterEntered_reading (line : Line) (text : List Char) :
    afterEntered { e with decoder := d, queue := [], line } text =
      reading (afterEntered e text) d := by
  unfold afterEntered
  dsimp only
  split
  · rfl
  · rfl

/-- With nothing queued, acting on a chunk is acting on what it is decoded to. -/
theorem processInput_reading (chunk : List UInt8) :
    let decoded := d.decode chunk
    let queued := { e with decoder := decoded.2, queue := decoded.1.events }
    (processInput files chunk (reading e d)).value =
        (applyAll files decoded.1.events queued).value ∧
      (processInput files chunk (reading e d)).editor =
        (applyAll files decoded.1.events queued).editor := by
  rw [value_processInput, editor_processInput, editor_enqueue]
  exact ⟨rfl, rfl⟩

variable {e d}

/-- Once the line is typed, there is nothing left to act on. -/
theorem processAll_nothing (hd : d.Textual) {chunks : List (List UInt8)}
    (hchunks : 0x1B ∉ chunks.flatten) (hrun : (d.run chunks.flatten).1 = []) :
    (processAll files chunks (reading e d)).value = [] ∧
      (processAll files chunks (reading e d)).editor =
        reading e (d.run chunks.flatten).2 := by
  induction chunks generalizing d with
  | nil => exact ⟨rfl, rfl⟩
  | cons chunk rest ih =>
      rw [List.flatten_cons] at hchunks hrun ⊢
      obtain ⟨hchunk, hrest⟩ := not_or.1 (mt List.mem_append.2 hchunks)
      obtain ⟨hevents, hlast⟩ := hd.decode hchunk
      rw [Decoder.run_append] at hrun ⊢
      obtain ⟨hfirst, hlater⟩ := List.append_eq_nil_iff.1 hrun
      have hnone : (d.decode chunk).1.events = [] := by
        rw [hevents, hfirst]
        rfl
      obtain ⟨hvalue, heditor⟩ := processInput_reading files e d chunk
      rw [hnone, hlast] at hvalue heditor
      rw [value_processAll_cons, editor_processAll_cons, hvalue, heditor]
      exact ih (hd.run hchunk) hrest hlater

variable {text : List Char} (hmode : e.mode = .input) (hline : e.line = .ofText text)
include hmode hline

/-- A chunk with some of the characters appends them to the line. -/
theorem processInput_text {chunk : List UInt8} {s : List Char}
    (hevents : (d.decode chunk).1.events = Decoder.withRun s []) :
    (processInput files chunk (reading e d)).value = [] ∧
      (processInput files chunk (reading e d)).editor =
        reading { e with line := .ofText (text ++ s) } (d.decode chunk).2 := by
  obtain ⟨hvalue, heditor⟩ := processInput_reading files e d chunk
  obtain ⟨htyped, hleft⟩ := applyAll_withRun files
    (e := { e with decoder := (d.decode chunk).2 }) hmode hline s []
  rw [hvalue, heditor, hevents, htyped, hleft]
  exact ⟨rfl, rfl⟩

/-- A chunk with the last characters and the return appends them, and the line is entered. -/
theorem processInput_line {chunk : List UInt8} {s : List Char}
    (hevents : (d.decode chunk).1.events = Decoder.withRun s [.newline]) :
    (processInput files chunk (reading e d)).value = [entered e.history (text ++ s)] ∧
      (processInput files chunk (reading e d)).editor =
        reading (afterEntered e (text ++ s)) (d.decode chunk).2 := by
  obtain ⟨hvalue, heditor⟩ := processInput_reading files e d chunk
  obtain ⟨htyped, hleft⟩ := applyAll_withRun files
    (e := { e with decoder := (d.decode chunk).2 }) hmode hline s [.newline]
  have hafter : Line.ofText (text ++ s) = .ofText (text ++ s) := rfl
  obtain ⟨hentered, hleaves⟩ := applyAll_newline files
    (e := { e with
      decoder := (d.decode chunk).2, queue := [.newline], line := .ofText (text ++ s) })
    hmode hafter
  rw [hvalue, heditor, hevents, htyped, hleft, hentered, hleaves]
  exact ⟨rfl, afterEntered_reading e _ _ _⟩

/-- **A line that is typed in chunks.** The text is appended to the line chunk by chunk, and the
    line is entered once, as the text that it then has. -/
theorem processAll_typed (hd : d.Textual) {chunks : List (List UInt8)}
    (hchunks : 0x1B ∉ chunks.flatten) {s : List Char}
    (hrun : (d.run chunks.flatten).1 = Decoder.typed s) :
    (processAll files chunks (reading e d)).value = [entered e.history (text ++ s)] ∧
      (processAll files chunks (reading e d)).editor =
        reading (afterEntered e (text ++ s)) (d.run chunks.flatten).2 := by
  induction chunks generalizing e d text s with
  | nil => exact absurd hrun (by simp [Decoder.typed])
  | cons chunk rest ih =>
      rw [List.flatten_cons] at hchunks hrun ⊢
      obtain ⟨hchunk, hrest⟩ := not_or.1 (mt List.mem_append.2 hchunks)
      have hlast : (d.decode chunk).2 = (d.run chunk).2 := (hd.decode hchunk).2
      have htextual : (d.decode chunk).2.Textual := by
        rw [hlast]
        exact hd.run hchunk
      rw [value_processAll_cons, editor_processAll_cons, Decoder.run_append, ← hlast]
      rcases Decoder.decode_typed hd hchunk hrun with
        ⟨s₁, s₂, rfl, hevents, hleft⟩ | ⟨hevents, hleft⟩
      · -- the chunk ends before the line does
        obtain ⟨hvalue, heditor⟩ := processInput_text files hmode hline hevents
        rw [hvalue, heditor, ← List.append_assoc]
        exact ih (e := { e with line := .ofText (text ++ s₁) }) hmode rfl htextual hrest hleft
      · -- it ends with the line, and nothing is left for the others
        obtain ⟨hvalue, heditor⟩ := processInput_line files hmode hline hevents
        obtain ⟨hnothing, hlater⟩ := processAll_nothing files (e := afterEntered e (text ++ s))
          htextual hrest hleft
        rw [hvalue, heditor, hnothing, hlater]
        exact ⟨rfl, rfl⟩

end Chunks

/-- **What is typed is what is entered.** Behind any text of the line, with the cursor at its end,
    any characters but control characters and then a carriage return are typed, in chunks that may
    end anywhere. On a terminal that takes every write, one outcome comes of all chunks together.
    If there is nothing to replace in the whole text, that is the line, the text with the cursor
    behind all of its clusters: then the line is empty, the text is the newest entry of the history,
    which keeps one at least and which a blank text does not change, and nothing is selected there
    or kept as a draft. Else it is the text with references replaced, which then stands in the
    line. -/
theorem typed_is_entered {e : Editor} (hmode : e.mode = .input) (hqueue : e.queue = [])
    (hpending : e.decoder.pending = []) {t : List Char} (hline : e.line = .ofText t)
    (hsize : 0 < e.history.maxSize) {s : List Char} (hs : ∀ c ∈ s, isAsciiControl c = false)
    {chunks : List (List UInt8)} (hchunks : chunks.flatten = Utf8.encode s ++ [0x0D]) :
    let done := (processAll files chunks).run e .working
    (e.history.expand (t ++ s) = t ++ s →
        done.value = some [.line (t ++ s) (clusterCount (t ++ s))] ∧
          done.editor.line = .empty ∧
          done.editor.history.entries.getLast? =
            (if isBlankText (t ++ s) then e.history.entries.getLast? else some (t ++ s)) ∧
          done.editor.history.nothingSelected = true ∧ done.editor.history.draft = none) ∧
      (e.history.expand (t ++ s) ≠ t ++ s →
        done.value = some [.expanded (e.history.expand (t ++ s))] ∧
          done.editor.line.text = e.history.expand (t ++ s)) := by
  intro done
  have hescape : 0x1B ∉ chunks.flatten := by
    rw [hchunks]
    exact Decoder.escape_notMem_line hs
  have hrun : (e.decoder.run chunks.flatten).1 = Decoder.typed s := by
    rw [hchunks]
    exact Decoder.run_typed hpending hs
  have hreading : reading e e.decoder = e := by
    rw [reading, ← hqueue]
  obtain ⟨hvalue, heditor⟩ := processAll_typed files hmode hline
    (Decoder.textual_of_pending hpending) hescape hrun
  rw [hreading] at hvalue heditor
  have hdone : done.value = some [entered e.history (t ++ s)] := by
    rw [← hvalue]
    exact run_working_value _ e
  have hleft : done.editor =
      reading (afterEntered e (t ++ s)) (e.decoder.run chunks.flatten).2 := by
    rw [← heditor]
    exact run_working_editor _ e
  rw [hdone, hleft, entered, afterEntered]
  refine ⟨fun hsame => ?_, fun hother => ?_⟩
  · simp only [if_pos hsame]
    refine ⟨trivial, rfl, ?_, ?_, rfl⟩
    · show (e.history.append (t ++ s)).entries.getLast? = _
      split
      · next hblank => rw [History.append, if_pos hblank]
      · next hblank =>
          exact History.getLast?_entries_append hsize (Bool.eq_false_iff.2 hblank)
    · exact beq_self_eq_true _
  · simp only [if_neg hother]
    exact ⟨trivial, rfl⟩

/-- A letter, the accent on it and a wide character are typed behind another letter, in chunks that
    end inside the accent and inside the wide character. -/
theorem typed_is_entered_cut_characters :
    let e : Editor :=
      { Editor.start ['>'] ⟨[], [], .tableOnly⟩ (.empty 10) (80, 24) with line := .ofText ['a'] }
    let done := (processAll .empty
      [[0x65, 0xCC], [0x81, 0xE4, 0xB8], [], [0x96, 0x0D]]).run e .working
    done.value = some [.line ['a', 'e', '\u0301', '\u4E16'] 3] ∧
      done.editor.line = .empty ∧
      done.editor.history.entries.getLast? = some ['a', 'e', '\u0301', '\u4E16'] ∧
      done.editor.history.nothingSelected = true ∧ done.editor.history.draft = none := by
  intro e done
  have happend : ['a'] ++ ['e', '\u0301', '\u4E16'] = ['a', 'e', '\u0301', '\u4E16'] := rfl
  have hcount : clusterCount ['a', 'e', '\u0301', '\u4E16'] = 3 := by decide +kernel
  have hblank : isBlankText ['a', 'e', '\u0301', '\u4E16'] = false := by decide +kernel
  have hsame : e.history.expand ['a', 'e', '\u0301', '\u4E16'] =
      ['a', 'e', '\u0301', '\u4E16'] := by decide +kernel
  have hchunks : [[0x65, 0xCC], [0x81, 0xE4, 0xB8], [], [0x96, 0x0D]].flatten =
      Utf8.encode ['e', '\u0301', '\u4E16'] ++ [0x0D] := by decide
  have hcontrol : ∀ c ∈ ['e', '\u0301', '\u4E16'], isAsciiControl c = false := by
    simp only [List.forall_mem_cons]
    exact ⟨rfl, rfl, rfl, fun _ hc => absurd hc List.not_mem_nil⟩
  have hsize : 0 < e.history.maxSize := by decide
  have hentered := (typed_is_entered .empty (e := e) rfl rfl rfl rfl hsize hcontrol hchunks).1
  rw [happend, hcount, hblank] at hentered
  obtain ⟨hvalue, hline, hnewest, hnothing, hdraft⟩ := hentered hsame
  simp only [done]
  exact ⟨hvalue, hline, hnewest, hnothing, hdraft⟩

end Edit

end Promptline
