import Promptline.Terminal.Decoder

set_option autoImplicit false

/-! # Events with neighbouring texts joined

Where a chunk of input ends, a run of text ends too, and an error that is skipped ends one as well.
What input means is therefore compared after texts that stand side by side have been joined
(`joinTexts`). In this form the events of pieces are read off piece by piece
(`foldr_addEvent_events`), so that the pieces of two stretches may be put side by side. -/

namespace Promptline.Terminal

/-- Puts an event in front of events; text is joined with a text that it then stands before. -/
def addEvent : Event → List Event → List Event
  | .text s, .text t :: rest => .text (s ++ t) :: rest
  | e, rest => e :: rest

/-- Events with texts joined that stand side by side. -/
def joinTexts (events : List Event) : List Event :=
  events.foldr addEvent []

@[simp]
theorem joinTexts_nil : joinTexts [] = [] :=
  rfl

@[simp]
theorem joinTexts_cons (e : Event) (events : List Event) :
    joinTexts (e :: events) = addEvent e (joinTexts events) :=
  rfl

theorem joinTexts_append (xs ys : List Event) :
    joinTexts (xs ++ ys) = xs.foldr addEvent (joinTexts ys) :=
  List.foldr_append

theorem addEvent_of_ne_text {e : Event} (h : ∀ s, e ≠ .text s) (events : List Event) :
    addEvent e events = e :: events := by
  unfold addEvent
  split
  · next s _ _ => exact absurd rfl (h s)
  · rfl

/-- It makes no difference whether text is put in front in one piece or in two. -/
theorem addEvent_text_append (s t : List Char) (events : List Event) :
    addEvent (.text s) (addEvent (.text t) events) = addEvent (.text (s ++ t)) events := by
  cases events with
  | nil => rfl
  | cons e rest =>
      cases e with
      | text u =>
          simp only [addEvent]
          rw [List.append_assoc]
      | _ => rfl

namespace Decoder

/-- Puts what a piece stands for in front of events. -/
def addPiece : Piece → List Event → List Event
  | .char c, events => addEvent (.text [c]) events
  | .invalid _, events => addEvent (.text [Utf8.replacement]) events
  | .event e, events => addEvent e events
  | .dropped _, events => events
  | .error _, events => events

theorem foldr_addEvent_withRun (run : List Char) (more events : List Event) :
    (withRun run more).foldr addEvent events =
      if run = [] then more.foldr addEvent events
      else addEvent (.text run) (more.foldr addEvent events) := by
  unfold withRun
  cases run <;> simp

theorem foldr_addEvent_withRun_cons (c : Char) (run : List Char) (more events : List Event) :
    (withRun (c :: run) more).foldr addEvent events =
      addEvent (.text [c]) ((withRun run more).foldr addEvent events) := by
  rw [foldr_addEvent_withRun, foldr_addEvent_withRun, if_neg (by simp)]
  split
  · next h => rw [h]
  · exact (addEvent_text_append [c] run _).symm

/-- The events of pieces, in front of others, are what each piece stands for in turn. -/
theorem foldr_addEvent_events (ps : List Piece) (more : List Event) :
    (events ps).foldr addEvent more = ps.foldr addPiece more := by
  induction ps with
  | nil => rfl
  | cons p rest ih =>
      rw [List.foldr_cons, ← ih]
      unfold events
      cases p with
      | char c => exact foldr_addEvent_withRun_cons c _ _ _
      | invalid b => exact foldr_addEvent_withRun_cons _ _ _ _
      | dropped b => rfl
      | event e => rfl
      | error e => rfl

/-- **Pieces side by side.** With texts joined, the events of two stretches of pieces are the
    events of the one and then of the other. -/
theorem joinTexts_events_append (ps qs : List Piece) :
    joinTexts (events (ps ++ qs)) = joinTexts (events ps ++ events qs) := by
  rw [joinTexts_append]
  unfold joinTexts
  rw [foldr_addEvent_events, foldr_addEvent_events, foldr_addEvent_events, List.foldr_append]

/-! ## Where texts are joined already -/

theorem addEvent_text_of_ne {events : List Event} (h : ∀ t rest, events ≠ .text t :: rest)
    (s : List Char) : addEvent (.text s) events = .text s :: events := by
  unfold addEvent
  split
  · next t rest _ => exact absurd rfl (h t rest)
  · rfl

theorem withRun_cons {more : List Event} (h : ∀ t rest, more ≠ .text t :: rest) (c : Char)
    (run : List Char) : withRun (c :: run) more = addEvent (.text [c]) (withRun run more) := by
  cases run with
  | nil => exact (addEvent_text_of_ne h [c]).symm
  | cons d run => rfl

/-- Where pieces hold no errors, no text stands next to another in their events. -/
theorem events_eq_foldr {ps : List Piece} (herrors : errors ps = [])
    (htext : ∀ s, .event (.text s) ∉ ps) :
    events ps = ps.foldr addPiece [] ∧ ∀ t rest, (gather ps).2 ≠ .text t :: rest := by
  induction ps with
  | nil => exact ⟨rfl, by simp [gather]⟩
  | cons p rest ih =>
      have htext' : ∀ s, .event (.text s) ∉ rest := fun s hs =>
        htext s (List.mem_cons_of_mem _ hs)
      cases p with
      | char c =>
          obtain ⟨hevents, hhead⟩ := ih herrors htext'
          refine ⟨?_, hhead⟩
          rw [List.foldr_cons, ← hevents]
          exact withRun_cons hhead c _
      | invalid b =>
          obtain ⟨hevents, hhead⟩ := ih herrors htext'
          refine ⟨?_, hhead⟩
          rw [List.foldr_cons, ← hevents]
          exact withRun_cons hhead _ _
      | dropped b => exact ih herrors htext'
      | event e =>
          have he : ∀ s, e ≠ .text s := fun s hs => htext s (hs ▸ List.mem_cons_self ..)
          obtain ⟨hevents, _⟩ := ih herrors htext'
          refine ⟨?_, fun t more hmore => he t (List.cons.inj hmore).1⟩
          rw [List.foldr_cons, ← hevents, addPiece, addEvent_of_ne_text he]
          rfl
      | error e => exact absurd herrors (by simp [errors])

theorem errors_append (ps qs : List Piece) : errors (ps ++ qs) = errors ps ++ errors qs :=
  List.filterMap_append

end Decoder

end Promptline.Terminal
