import Promptline.Proofs.Editor.Events

set_option autoImplicit false

/-! # What acting on input comes to

Acting on a list of events is acting on the first and then on the others, up to the end or up to
the first outcome, and in both cases it is the same first step (`applyUntilOutcome_alike`):
that one of them runs completion by itself makes no difference.

No event looks at the input behind it, at what is open in the decoder or still queued, or at whether
a prompt is due (`apply_besides`). -/

namespace Promptline.Edit

open Terminal Unicode

variable (e : Editor) (files : FileTree)

/-! ## What events do not look at -/

/-- The editor with other input, and with the prompt due, or not due. -/
def besides (decoder : Decoder) (queue : List Event) (due : Bool) : Editor :=
  { e with decoder, queue, needsPrompt := due }

section Besides

variable (decoder : Decoder) (queue : List Event) (due : Bool)

theorem dismissed_besides :
    dismissed (besides e decoder queue due) = besides (dismissed e) decoder queue due := by
  unfold dismissed besides
  cases hmode : e.mode <;> simp [hmode]

theorem dismissal_besides (event : Event) :
    dismissal (besides e decoder queue due) event = dismissal e event :=
  rfl

theorem eraseBehind_besides (erasure : Line.Erasure) :
    (eraseBehind erasure (besides e decoder queue due)).editor =
        besides (eraseBehind erasure e).editor decoder queue due ∧
      (eraseBehind erasure).written (besides e decoder queue due) =
        (eraseBehind erasure).written e := by
  rw [editor_eraseBehind, editor_eraseBehind, written_eraseBehind, written_eraseBehind]
  unfold besides
  cases e.line.erase? erasure <;> exact ⟨rfl, rfl⟩

theorem browse_besides (direction : Direction) (n : Nat) :
    (browse direction n (besides e decoder queue due)).editor =
        besides (browse direction n e).editor decoder queue due ∧
      (browse direction n).written (besides e decoder queue due) =
        (browse direction n).written e := by
  have hwalked : walked (besides e decoder queue due) direction n = walked e direction n := rfl
  rw [editor_browse, editor_browse, written_browse, written_browse, hwalked]
  cases (walked e direction n).1 <;> exact ⟨rfl, rfl⟩

/-- A key looks at nothing of that, and does not change it. -/
theorem handle_besides (event : Event) :
    (handle event (besides e decoder queue due)).value = (handle event e).value ∧
      (handle event (besides e decoder queue due)).editor =
        besides (handle event e).editor decoder queue due ∧
      (handle event).written (besides e decoder queue due) = (handle event).written e := by
  have herase := eraseBehind_besides e decoder queue due
  have hbrowse := browse_besides e decoder queue due
  unfold handle
  cases event with
  | text t => simp [besides, editor_typeText, written_typeText]
  | newline =>
      have hexpansion : expansion (besides e decoder queue due) = expansion e := rfl
      have hline : (besides e decoder queue due).line = e.line := rfl
      simp only [value_bind, editor_bind, written_bind, value_pure, editor_pure,
        written_pure, value_enter, editor_enter, written_enter, hexpansion, hline]
      by_cases hsame : expansion e = e.line.text
      · simp only [if_pos hsame]
        exact ⟨trivial, rfl, trivial⟩
      · simp only [if_neg hsame]
        exact ⟨trivial, rfl, trivial⟩
  | backspace => exact ⟨rfl, (herase .previous).1, by simpa using (herase .previous).2⟩
  | delete => exact ⟨rfl, (herase .previous).1, by simpa using (herase .previous).2⟩
  | eraseLineToBegin =>
      exact ⟨rfl, (herase .toBegin).1, by simpa using (herase .toBegin).2⟩
  | cursorForward n => simp [besides, editor_goForward, written_goForward]
  | cursorBackward n =>
      simp only [value_bind, editor_bind, written_bind, editor_goBackward,
        written_goBackward, value_pure, editor_pure, written_pure, besides]
      split <;> exact ⟨trivial, rfl, trivial⟩
  | cursorUp n => exact ⟨rfl, (hbrowse .older _).1, by simpa using (hbrowse .older _).2⟩
  | cursorPreviousLine n =>
      exact ⟨rfl, (hbrowse .older _).1, by simpa using (hbrowse .older _).2⟩
  | cursorDown n =>
      exact ⟨rfl, (hbrowse .newer _).1, by simpa using (hbrowse .newer _).2⟩
  | cursorNextLine n =>
      exact ⟨rfl, (hbrowse .newer _).1, by simpa using (hbrowse .newer _).2⟩
  | eraseLineToEnd =>
      simp only [value_bind, editor_bind, written_bind, editor_eraseToEnd,
        written_eraseToEnd, value_pure, editor_pure, written_pure, besides]
      cases e.line.erase? .toEnd <;> exact ⟨trivial, rfl, trivial⟩
  | eraseLine =>
      simp only [value_bind, editor_bind, written_bind, editor_eraseEverything,
        written_eraseEverything, value_pure, editor_pure, written_pure, besides]
      cases e.line.erase? .everything <;> exact ⟨trivial, rfl, trivial⟩
  | endOfTransmission =>
      simp only [value_endInput, editor_endInput, written_endInput, besides]
      exact ⟨trivial, trivial, trivial⟩
  | _ => exact ⟨rfl, rfl, rfl⟩

theorem search_besides : search (besides e decoder queue due) files = search e files := by
  unfold search
  rw [dismissed_besides]
  rfl

theorem finishCompletion_besides (answer : Completion) :
    (finishCompletion answer (besides e decoder queue due)).editor =
        besides (finishCompletion answer e).editor decoder queue due ∧
      (finishCompletion answer).written (besides e decoder queue due) =
        (finishCompletion answer).written e := by
  cases answer with
  | none => exact ⟨rfl, rfl⟩
  | single replacement =>
      simp only [finishCompletion, editor_complete, written_complete]
      exact ⟨rfl, rfl⟩
  | candidates grid =>
      simp only [finishCompletion, editor_showCandidates, written_showCandidates]
      exact ⟨rfl, rfl⟩

section Apply

variable (event : Event)

theorem value_apply :
    (apply files event e).value =
      if event = .tab then none else (handle event (dismissed e)).value := by
  simp [apply]

theorem editor_apply :
    (apply files event e).editor =
      if event = .tab then (completeWord files e).editor else (applyKey event e).editor := by
  simp [apply]

theorem written_apply :
    (apply files event).written e =
      if event = .tab then (completeWord files).written e else (applyKey event).written e := by
  simp [apply]

/-- **Events do not look at the input behind them, or at whether a prompt is due.** One that ends
    the line makes a prompt due, and nothing else of that changes. -/
theorem apply_besides :
    (apply files event (besides e decoder queue due)).value = (apply files event e).value ∧
      (apply files event (besides e decoder queue due)).editor =
        besides (apply files event e).editor decoder queue
          (due || (apply files event e).value.any Outcome.endsLine) ∧
      (apply files event).written (besides e decoder queue due) =
        (apply files event).written e := by
  rw [value_apply, value_apply, editor_apply, editor_apply, written_apply, written_apply]
  by_cases htab : event = .tab
  · obtain ⟨heditor, hwritten⟩ := finishCompletion_besides (dismissed e) decoder queue due
      (search e files).1
    simp only [if_pos htab]
    rw [editor_completeWord, editor_completeWord, written_completeWord, written_completeWord,
      search_besides, dismissed_besides, dismissal_besides, heditor, hwritten]
    refine ⟨trivial, ?_, rfl⟩
    rw [Option.any_none, Bool.or_false]
    rfl
  · obtain ⟨hvalue, heditor, hwritten⟩ := handle_besides (dismissed e) decoder queue due event
    simp only [if_neg htab]
    rw [editor_applyKey, editor_applyKey, written_applyKey, written_applyKey, dismissed_besides,
      dismissal_besides, hvalue, heditor, hwritten]
    refine ⟨rfl, ?_, rfl⟩
    by_cases hends : (handle event (dismissed e)).value.any Outcome.endsLine = true
    · rw [if_pos hends, if_pos hends, hends, Bool.or_true]
      rfl
    · rw [if_neg hends, if_neg hends, Bool.eq_false_iff.2 hends, Bool.or_false]

end Apply

end Besides

/-- No event looks at what is queued behind it. -/
theorem queue_apply (event : Event) : (apply files event e).editor.queue = e.queue :=
  have hsame := (apply_besides e files e.decoder e.queue e.needsPrompt event).2.1
  (congrArg Editor.queue hsame :)

/-- No event touches what is open in the decoder. -/
theorem decoder_apply (event : Event) : (apply files event e).editor.decoder = e.decoder :=
  have hsame := (apply_besides e files e.decoder e.queue e.needsPrompt event).2.1
  (congrArg Editor.decoder hsame :)

/-- The editor with other input. -/
def withInput (decoder : Decoder) (queue : List Event) : Editor :=
  { e with decoder, queue }

theorem apply_withInput (decoder : Decoder) (queue : List Event) (event : Event) :
    (apply files event (withInput e decoder queue)).value = (apply files event e).value ∧
      (apply files event (withInput e decoder queue)).editor =
        withInput (apply files event e).editor decoder queue := by
  obtain ⟨hvalue, heditor, _⟩ := apply_besides e files decoder queue e.needsPrompt event
  have hsame := (apply_besides e files e.decoder e.queue e.needsPrompt event).2.1
  have hdue : (apply files event e).editor.needsPrompt =
      (e.needsPrompt || (apply files event e).value.any Outcome.endsLine) :=
    (congrArg Editor.needsPrompt hsame :)
  refine ⟨hvalue, heditor.trans ?_⟩
  rw [besides, ← hdue]
  rfl

/-- The editor with the prompt due, or not due. -/
def withDue (due : Bool) : Editor :=
  { e with needsPrompt := due }

theorem apply_due (due : Bool) (event : Event) :
    (apply files event (withDue e due)).value = (apply files event e).value ∧
      (apply files event (withDue e due)).editor =
        withDue (apply files event e).editor
          (due || (apply files event e).value.any Outcome.endsLine) ∧
      (apply files event).written (withDue e due) = (apply files event).written e := by
  obtain ⟨hvalue, heditor, hwritten⟩ := apply_besides e files e.decoder e.queue due event
  refine ⟨hvalue, heditor.trans ?_, hwritten⟩
  rw [besides, ← decoder_apply e files event, ← queue_apply e files event]
  rfl

/-! ## Lists of events -/

/-- Acts on the first event of a queue. -/
def applyNext (files : FileTree) (event : Event) (rest : List Event) : Edit (Option Outcome) := do
  update fun e => { e with queue := rest }
  apply files event

instance (event : Event) (rest : List Event) : Sound (applyNext files event rest) := by
  unfold applyNext
  infer_instance

theorem queue_applyNext (event : Event) (rest : List Event) :
    (applyNext files event rest e).editor.queue = rest :=
  queue_apply { e with queue := rest } files event

theorem applyNext_due (due : Bool) (event : Event) (rest : List Event) :
    (applyNext files event rest (withDue e due)).value = (applyNext files event rest e).value ∧
      (applyNext files event rest (withDue e due)).editor =
        withDue (applyNext files event rest e).editor
          (due || (applyNext files event rest e).value.any Outcome.endsLine) ∧
      (applyNext files event rest).written (withDue e due) =
        (applyNext files event rest).written e :=
  apply_due { e with queue := rest } files due event

section Lists

variable (event : Event) (rest : List Event)

theorem value_applyAll_cons :
    (applyAll files (event :: rest) e).value =
      (applyNext files event rest e).value.toList ++
        (applyAll files rest (applyNext files event rest e).editor).value :=
  rfl

theorem editor_applyAll_cons :
    (applyAll files (event :: rest) e).editor =
      (applyAll files rest (applyNext files event rest e).editor).editor :=
  rfl

theorem written_applyAll_cons :
    (applyAll files (event :: rest)).written e =
      (applyNext files event rest).written e ++
        (applyAll files rest).written (applyNext files event rest e).editor := by
  simp [applyAll, applyNext]

/-! Acting up to the first outcome takes the same steps as acting on everything, though it runs the
search for completions apart from the editor. -/

/-- Acts on the rest of a queue, unless there is an outcome. -/
def orElse (outcome : Option Outcome) (later : Edit (Option Outcome)) : Edit (Option Outcome) :=
  match outcome with
  | some outcome => pure (some outcome)
  | none => later

/-- **Acting up to the first outcome**, records apart. -/
theorem applyUntilOutcome_alike :
    Alike (applyUntilOutcome files (event :: rest))
      (applyNext files event rest >>= fun outcome =>
        orElse outcome (applyUntilOutcome files rest)) := by
  have hlawful := lawfulMonad
  by_cases htab : event = .tab
  · subst htab
    -- the search runs apart from the editor here, and within an edit there
    rw [applyUntilOutcome, applyNext, apply, if_pos rfl, if_pos rfl, completeWord]
    simp only [bind_assoc, pure_bind, runCompletion]
    refine .behind _ fun _ => .behind _ fun request => .behind _ fun e => .behind _ fun _ => ?_
    exact .notes _ _
  · have hkey : apply files event = applyKey event := if_neg htab
    rw [applyUntilOutcome, if_neg htab, applyNext, hkey, bind_assoc]
    exact .behind _ fun _ => .behind _ fun outcome => by cases outcome <;> exact .refl _

theorem applyUntilOutcome_cons :
    (applyUntilOutcome files (event :: rest) e).value =
        (orElse (applyNext files event rest e).value (applyUntilOutcome files rest)
          (applyNext files event rest e).editor).value ∧
      (applyUntilOutcome files (event :: rest) e).editor =
        (orElse (applyNext files event rest e).value (applyUntilOutcome files rest)
          (applyNext files event rest e).editor).editor ∧
      (applyUntilOutcome files (event :: rest)).written e =
        (applyNext files event rest).written e ++
          (orElse (applyNext files event rest e).value (applyUntilOutcome files rest)).written
            (applyNext files event rest e).editor := by
  have halike := applyUntilOutcome_alike files event rest
  exact ⟨halike.value e, halike.editor e, (halike.written e).trans (written_bind ..)⟩

end Lists

instance soundApplyAll (events : List Event) : Sound (applyAll files events) := by
  induction events with
  | nil => exact inferInstanceAs (Sound (pure []))
  | cons event rest ih =>
      unfold applyAll
      infer_instance

instance soundApplyUntilOutcome (events : List Event) :
    Sound (applyUntilOutcome files events) := by
  induction events with
  | nil => exact inferInstanceAs (Sound (pure none))
  | cons event rest ih =>
      unfold applyUntilOutcome
      refine Sound.bind inferInstance fun _ => ?_
      split
      · refine Sound.bind inferInstance fun _ => Sound.bind inferInstance fun e => ?_
        dsimp only
        infer_instance
      · refine Sound.bind inferInstance fun outcome => ?_
        split <;> infer_instance

/-! ## Bytes -/

instance (bytes : List UInt8) : Sound (enqueue bytes) := by
  unfold enqueue
  refine Sound.bind inferInstance fun e => ?_
  dsimp only
  infer_instance

instance : Sound nextEvent := by
  unfold nextEvent
  refine Sound.bind inferInstance fun e => ?_
  split <;> infer_instance

instance (bytes : List UInt8) : Sound (processInput files bytes) := by
  unfold processInput
  infer_instance

theorem editor_enqueue (bytes : List UInt8) :
    (enqueue bytes e).editor =
      { e with
        decoder := (e.decoder.decode bytes).2
        queue := e.queue ++ (e.decoder.decode bytes).1.events } := by
  simp [enqueue, editor_all_note]

theorem written_enqueue (bytes : List UInt8) : (enqueue bytes).written e = [] := by
  simp [enqueue, written_all_note]

/-! Acting on bytes is acting on everything that is queued once they are decoded. -/

theorem value_processInput (bytes : List UInt8) :
    (processInput files bytes e).value =
      (applyAll files (enqueue bytes e).editor.queue (enqueue bytes e).editor).value := by
  simp [processInput]

theorem editor_processInput (bytes : List UInt8) :
    (processInput files bytes e).editor =
      (applyAll files (enqueue bytes e).editor.queue (enqueue bytes e).editor).editor := by
  simp [processInput]

theorem written_processInput (bytes : List UInt8) :
    (processInput files bytes).written e =
      (applyAll files (enqueue bytes e).editor.queue).written (enqueue bytes e).editor := by
  simp [processInput, written_enqueue]

end Promptline.Edit
