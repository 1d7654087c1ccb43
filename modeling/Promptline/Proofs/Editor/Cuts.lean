import Promptline.Proofs.Editor.Alphabet
import Promptline.Proofs.Editor.Typing
import Promptline.Proofs.Line.Cursor
import Promptline.Proofs.Terminal.Texts

set_option autoImplicit false

/-! # Where input is cut

A terminal cuts its input wherever it likes, and where it cuts a text, two texts arrive. Acting on
them is acting on one, as long as nothing behind the cursor joins what was typed so far
(`apply_text_append`), which is so where all texts are ASCII. Everything else that an event does
depends on nothing that is still to come (`acts_withInput`). So it makes no difference how ASCII
input is cut (`processAll_cuts`). -/

namespace Promptline.Edit

open Terminal Unicode

variable (files : FileTree)

/-! ## Acting on events, whatever else is queued -/

/-- What acting on events one after another comes to: the outcomes, and the editor. -/
def acts : List Event → Editor → List Outcome × Editor
  | [], e => ([], e)
  | event :: rest, e =>
    let later := acts rest (apply files event e).editor
    ((apply files event e).value.toList ++ later.1, later.2)

theorem acts_append (xs ys : List Event) (e : Editor) :
    acts files (xs ++ ys) e =
      ((acts files xs e).1 ++ (acts files ys (acts files xs e).2).1,
        (acts files ys (acts files xs e).2).2) := by
  induction xs generalizing e with
  | nil => rfl
  | cons event rest ih =>
      rw [List.cons_append, acts, ih, acts]
      dsimp only
      rw [List.append_assoc]

theorem acts_withInput (events : List Event) (e : Editor) (decoder : Decoder)
    (queue : List Event) :
    acts files events (withInput e decoder queue) =
      ((acts files events e).1, withInput (acts files events e).2 decoder queue) := by
  induction events generalizing e with
  | nil => rfl
  | cons event rest ih =>
      obtain ⟨hvalue, heditor⟩ := apply_withInput e files decoder queue event
      rw [acts, hvalue, heditor, ih, acts]

/-- Acting on all that is queued. -/
theorem applyAll_eq_acts {events : List Event} {e : Editor} (hqueue : e.queue = events) :
    (applyAll files events e).value = (acts files events e).1 ∧
      (applyAll files events e).editor = withInput (acts files events e).2 e.decoder [] := by
  induction events generalizing e with
  | nil =>
      have hsame : withInput e e.decoder [] = e := by
        rw [withInput, ← hqueue]
      exact ⟨rfl, hsame.symm⟩
  | cons event rest ih =>
      have hnext := apply_withInput e files e.decoder rest event
      have hvalue : (applyNext files event rest e).value = (apply files event e).value :=
        (value_applyNext files event rest e).trans hnext.1
      have heditor : (applyNext files event rest e).editor =
          withInput (apply files event e).editor e.decoder rest :=
        (editor_applyNext files event rest e).trans hnext.2
      obtain ⟨hlater, hlast⟩ := ih (e := withInput (apply files event e).editor e.decoder rest) rfl
      rw [value_applyAll_cons, editor_applyAll_cons, hvalue, heditor, hlater, hlast,
        acts_withInput, acts]
      exact ⟨rfl, rfl⟩

/-- Acting on a chunk is acting on what was queued, and on what it is decoded to. -/
theorem processInput_eq_acts (chunk : List UInt8) (e : Editor) :
    let events := e.queue ++ (e.decoder.decode chunk).1.events
    (processInput files chunk e).value = (acts files events e).1 ∧
      (processInput files chunk e).editor =
        withInput (acts files events e).2 (e.decoder.decode chunk).2 [] := by
  intro events
  have hqueued : (enqueue chunk e).editor = withInput e (e.decoder.decode chunk).2 events :=
    editor_enqueue e chunk
  obtain ⟨hvalue, heditor⟩ := applyAll_eq_acts files
    (e := withInput e (e.decoder.decode chunk).2 events) rfl
  rw [value_processInput, editor_processInput, hqueued, hvalue, heditor, acts_withInput]
  exact ⟨rfl, rfl⟩

/-- **Chunk after chunk.** Acting on chunks is acting on all events that they are decoded to, in
    whatever chunk each of them is completed. -/
theorem processAll_eq_acts (chunks : List (List UInt8)) {e : Editor}
    (hstart : e.queue = [] ∨ chunks ≠ []) :
    let decoded := e.decoder.decodeChunks chunks
    (processAll files chunks e).value = (acts files (e.queue ++ decoded.1.events) e).1 ∧
      (processAll files chunks e).editor =
        withInput (acts files (e.queue ++ decoded.1.events) e).2 decoded.2 [] := by
  induction chunks generalizing e with
  | nil =>
      have hqueue : e.queue = [] := hstart.resolve_right (absurd rfl)
      have hsame : withInput e e.decoder [] = e := by
        rw [withInput, ← hqueue]
      intro decoded
      have hevents : e.queue ++ decoded.1.events = [] := by
        rw [hqueue]
        rfl
      rw [hevents]
      exact ⟨rfl, hsame.symm⟩
  | cons chunk rest ih =>
      obtain ⟨hvalue, heditor⟩ := processInput_eq_acts files chunk e
      intro decoded
      have hevents : e.queue ++ decoded.1.events =
          (e.queue ++ (e.decoder.decode chunk).1.events) ++
            ((e.decoder.decode chunk).2.decodeChunks rest).1.events :=
        (List.append_assoc _ _ _).symm
      rw [hevents, acts_append]
      generalize e.queue ++ (e.decoder.decode chunk).1.events = first at hvalue heditor ⊢
      -- nothing is queued behind the first chunk
      obtain ⟨hlater, hlast⟩ :=
        ih (e := withInput (acts files first e).2 (e.decoder.decode chunk).2 []) (.inl rfl)
      rw [acts_withInput] at hlater hlast
      rw [value_processAll_cons, editor_processAll_cons, hvalue, heditor, hlater, hlast]
      exact ⟨rfl, rfl⟩

/-! ## Texts in one piece or in several -/

section Texts

variable {files} {e : Editor}

/-- **A text that is cut.** Typing its parts one after the other is typing it, if nothing behind the
    cursor joins the first part. -/
theorem apply_text_append {s : List Char}
    (h : joining ((dismissed e).line.before ++ s) (dismissed e).line.after = []) (t : List Char) :
    (apply files (.text t) (apply files (.text s) e).editor).editor =
      (apply files (.text (s ++ t)) e).editor := by
  rw [(apply_text files e s).2, (apply_text files e (s ++ t)).2,
    (apply_text files _ t).2, ← Line.insert_insert _ h]
  have hinput : (dismissed e).mode = .input := dismissed_mode e
  have hsame : dismissed { dismissed e with line := (dismissed e).line.insert s } =
      { dismissed e with line := (dismissed e).line.insert s } := dismissed_eq_self hinput
  rw [hsame]

/-- Where all text is separate, nothing joins what is typed from ordinary characters. -/
theorem joining_ordinary {l : Line} (hl : Over Separate l.text) {s : List Char}
    (hs : Over Ordinary s) : joining (l.before ++ s) l.after = [] := by
  rcases List.eq_nil_or_concat' s with rfl | ⟨front, c, rfl⟩
  · rw [List.append_nil]
    exact l.joining_before_after
  · have hc : Ordinary c := hs c (List.mem_append_right _ (List.mem_singleton_self c))
    rw [← List.append_assoc]
    exact joining_concat _ hc.clusterClass_eq (Line.over_after hl)

theorem acts_addEvent (h : e.TextsOver Separate files) {event : Event}
    (hevent : event.TextOver Ordinary) (events : List Event) :
    acts files (addEvent event events) e = acts files (event :: events) e := by
  unfold addEvent
  split
  · next s t rest =>
      have hjoining := joining_ordinary h.dismissed.line (hevent s rfl)
      simp only [acts, apply_text_append hjoining t, (apply_text files _ _).1,
        Option.toList_none, List.nil_append]
  · rfl

/-- **Joining texts** makes no difference where all text is separate, and what is typed ordinary. -/
theorem acts_joinTexts (h : e.TextsOver Separate files) {events : List Event}
    (hevents : ∀ event ∈ events, event.TextOver Ordinary) :
    acts files (joinTexts events) e = acts files events e := by
  induction events generalizing e with
  | nil => rfl
  | cons event rest ih =>
      obtain ⟨hevent, hrest⟩ := List.forall_mem_cons.1 hevents
      have hnext : (apply files event e).editor.TextsOver Separate files :=
        h.apply (separate_ascii (by decide)) (separate_ascii (by decide)) fun s hs c hc =>
          .inl (hevent s hs c hc).clusterClass_eq
      rw [joinTexts_cons, acts_addEvent h hevent, acts, ih hnext hrest, acts]

end Texts

theorem textsOver_acts {A : Char → Prop} (hspace : A ' ') (hslash : A '/') {e : Editor}
    (h : e.TextsOver A files) {events : List Event}
    (hevents : ∀ event ∈ events, event.TextOver A) : (acts files events e).2.TextsOver A files := by
  induction events generalizing e with
  | nil => exact h
  | cons event rest ih =>
      obtain ⟨hevent, hrest⟩ := List.forall_mem_cons.1 hevents
      exact ih (h.apply hspace hslash hevent) hrest

/-! ## Input -/

/-- **How input is cut makes no difference.** Take any editor whose line, history, queued texts and
    offered names are ASCII, and any ASCII bytes, cut in two ways so that no sequence is given up as
    too long; where something is queued, there is a chunk at least. On a terminal that takes every
    write, and with files that stay as they are, acting on the chunks in order has the same outcomes
    both ways, and leaves the same editor: the same line and cursor, candidates, history, size and
    decoder, and a prompt that is due in both or in neither. -/
theorem processAll_cuts {e : Editor} (hdecoder : e.decoder.Reached)
    (hline : Over Ascii e.line.text) (hhistory : e.history.AllOver Ascii)
    (hoffers : e.settings.OffersOver Ascii files e.commands)
    (hqueue : ∀ s, .text s ∈ e.queue → Over Ascii s)
    {chunks chunks' : List (List UInt8)} (hsame : chunks.flatten = chunks'.flatten)
    (hascii : ∀ b ∈ chunks.flatten, b.toNat < 0x80)
    (hlong : ∀ n, .sequenceTooLong n ∉ (e.decoder.decodeChunks chunks).1.errors)
    (hlong' : ∀ n, .sequenceTooLong n ∉ (e.decoder.decodeChunks chunks').1.errors)
    (hstart : e.queue = [] ∨ chunks ≠ [] ∧ chunks' ≠ []) :
    let done := (processAll files chunks).run e .working
    let done' := (processAll files chunks').run e .working
    done.value.isSome ∧ done.value = done'.value ∧ done.editor = done'.editor := by
  intro done done'
  -- what was queued is acted on first, and keeps all text separate
  have htexts : e.TextsOver Separate files :=
    (⟨hline, hhistory, hoffers⟩ : e.TextsOver Ascii files).mono fun _ => separate_ascii
  have hfirst : (acts files e.queue e).2.TextsOver Separate files :=
    textsOver_acts files (separate_ascii (by decide)) (separate_ascii (by decide)) htexts
      fun event hevent s hs => (hqueue s (hs ▸ hevent)).mono fun _ => separate_ascii
  -- both cuts have the same events once texts are joined
  obtain ⟨hjoined, _, hlast⟩ := Decoder.decodeChunks_eq_run hdecoder.pending_le hlong
  obtain ⟨hjoined', _, hlast'⟩ := Decoder.decodeChunks_eq_run hdecoder.pending_le hlong'
  have hlater : acts files (e.decoder.decodeChunks chunks).1.events (acts files e.queue e).2 =
      acts files (e.decoder.decodeChunks chunks').1.events (acts files e.queue e).2 := by
    rw [← acts_joinTexts hfirst (Decoder.textOver_decodeChunks e.decoder hascii),
      ← acts_joinTexts hfirst (Decoder.textOver_decodeChunks e.decoder (hsame ▸ hascii)), hjoined,
      hjoined', hsame]
  obtain ⟨hvalue, heditor⟩ := processAll_eq_acts files chunks (hstart.imp_right And.left)
  obtain ⟨hvalue', heditor'⟩ := processAll_eq_acts files chunks' (hstart.imp_right And.right)
  have hvalues : (processAll files chunks e).value = (processAll files chunks' e).value := by
    rw [hvalue, hvalue', acts_append, acts_append, hlater]
  have heditors : (processAll files chunks e).editor = (processAll files chunks' e).editor := by
    rw [heditor, heditor', acts_append, acts_append, hlater, hlast, hlast', hsame]
  have hdone : done.value = some (processAll files chunks e).value := run_working_value _ e
  refine ⟨by rw [hdone]; rfl, ?_, ?_⟩
  · exact hdone.trans ((congrArg some hvalues).trans (run_working_value _ e).symm)
  · exact (run_working_editor _ e).trans (heditors.trans (run_working_editor _ e).symm)

/-- A letter is typed, two commands are shown that begin with it, the cursor is told to go on, two
    letters more leave one command, and the line is entered, cut inside the control sequence and
    between the letters. -/
theorem processAll_cuts_completed :
    let e : Editor :=
      { Editor.start ['>'] ⟨[], [], .tableOnly⟩ (.empty 10) (80, 24) with
        commands :=
          { commands := [(['l', 's'], []), (['l', 's', 'o', 'f'], [])], isLoaded := true } }
    let done := (processAll .empty
      [[0x6C, 0x09, 0x1B, 0x5B, 0x43, 0x73, 0x6F, 0x09, 0x0D]]).run e .working
    let done' := (processAll .empty
      [[0x6C, 0x09, 0x1B], [], [0x5B, 0x43, 0x73], [0x6F, 0x09, 0x0D]]).run e .working
    done'.value = some [.line ['l', 's', 'o', 'f', ' '] 5] ∧ done.value = done'.value ∧
      done.editor = done'.editor := by
  intro e done done'
  have hoffers : e.settings.OffersOver Ascii .empty e.commands := ⟨by decide, nofun⟩
  have hlong : ∀ n, .sequenceTooLong n ∉ (e.decoder.decodeChunks
      [[0x6C, 0x09, 0x1B, 0x5B, 0x43, 0x73, 0x6F, 0x09, 0x0D]]).1.errors := by
    intro n
    rw [show (e.decoder.decodeChunks _).1.errors = [] from by decide +kernel]
    exact List.not_mem_nil
  have hlong' : ∀ n, .sequenceTooLong n ∉ (e.decoder.decodeChunks
      [[0x6C, 0x09, 0x1B], [], [0x5B, 0x43, 0x73], [0x6F, 0x09, 0x0D]]).1.errors := by
    intro n
    rw [show (e.decoder.decodeChunks _).1.errors = [] from by decide +kernel]
    exact List.not_mem_nil
  obtain ⟨_, hvalue, heditor⟩ := processAll_cuts .empty (e := e) ⟨[], rfl⟩ over_nil (.empty 10)
    hoffers nofun (by decide) (by decide +kernel) hlong hlong' (.inl rfl)
  exact ⟨by decide +kernel, hvalue, heditor⟩

/-- An accent is queued, and then the cursor is told to go back in front of it and two letters are
    typed. In one piece, both stand in front of the accent; with a cut between them, the first one
    gets the accent, and the second stands behind it. And a letter that is queued is typed by an
    empty chunk, but not by no chunk at all. -/
theorem processAll_cut_queued_accent :
    let queued := fun bytes => ((enqueue bytes).run
      (.start ['>'] ⟨[], [], .tableOnly⟩ (.empty 10) (80, 24)) .working).editor
    let text := fun bytes chunks =>
      ((processAll .empty chunks).run (queued bytes) .working).editor.line.text
    let e := queued [0xCC, 0x81]
    e.decoder.Reached ∧ Over Ascii e.line.text ∧ e.history.AllOver Ascii ∧
      e.settings.OffersOver Ascii .empty e.commands ∧
      (e.decoder.decodeChunks [[0x1B, 0x5B, 0x44, 0x61, 0x62]]).1.errors = [] ∧
      (e.decoder.decodeChunks [[0x1B, 0x5B, 0x44, 0x61], [0x62]]).1.errors = [] ∧
      text [0xCC, 0x81] [[0x1B, 0x5B, 0x44, 0x61, 0x62]] = ['a', 'b', '\u0301'] ∧
      text [0xCC, 0x81] [[0x1B, 0x5B, 0x44, 0x61], [0x62]] = ['a', '\u0301', 'b'] ∧
      text [0x78] [] = [] ∧ text [0x78] [[]] = ['x'] := by
  intro queued text e
  exact ⟨⟨[[0xCC, 0x81]], by decide +kernel⟩, over_nil, .empty 10, ⟨by decide, nofun⟩,
    by decide +kernel⟩

end Promptline.Edit
