import Promptline.Proofs.Editor.Effects

set_option autoImplicit false

/-! # What each key comes to

For every key, the editor that it leaves and what it writes on a working terminal, as functions of
the editor before it. -/

namespace Promptline.Edit

open Terminal Unicode

variable (e : Editor)

/-! ## Moves and redraws -/

/-- What moves the terminal's cursor to the left by a width. -/
def backward (width : Nat) : List Char :=
  if width = 0 then [] else (Event.cursorBackward (columns width)).encode

/-- What moves the terminal's cursor to the right by a width. -/
def forward (width : Nat) : List Char :=
  if width = 0 then [] else (Event.cursorForward (columns width)).encode

instance (width : Nat) : Sound (moveBackward width) := by
  unfold moveBackward
  infer_instance

instance (width : Nat) : Sound (moveForward width) := by
  unfold moveForward
  infer_instance

@[simp]
theorem editor_moveBackward (width : Nat) : (moveBackward width e).editor = e := by
  unfold moveBackward
  split <;> rfl

@[simp]
theorem written_moveBackward (width : Nat) : (moveBackward width).written e = backward width := by
  unfold moveBackward backward
  split
  · rfl
  · exact written_control e _

@[simp]
theorem editor_moveForward (width : Nat) : (moveForward width e).editor = e := by
  unfold moveForward
  split <;> rfl

@[simp]
theorem written_moveForward (width : Nat) : (moveForward width).written e = forward width := by
  unfold moveForward forward
  split
  · rfl
  · exact written_control e _

instance (l : Line) : Sound (saveLine l) :=
  inferInstanceAs (Sound (update _))

instance (h : History) : Sound (saveHistory h) :=
  inferInstanceAs (Sound (update _))

instance (m : Mode) : Sound (saveMode m) :=
  inferInstanceAs (Sound (update _))

instance : Sound redrawRemainder := by
  unfold redrawRemainder
  infer_instance

instance (text : List Char) : Sound (redrawLine text) := by
  unfold redrawLine
  infer_instance

instance : Sound renderPrompt := by
  unfold renderPrompt
  infer_instance

/-- What shows again what stands behind the cursor of a line. -/
def remainder (l : Line) : List Char :=
  l.after ++ Event.eraseLineToEnd.encode ++ backward l.widthAfter

/-- What shows a text in the place of a line. -/
def redrawn (l : Line) (text : List Char) : List Char :=
  forward l.widthAfter ++ backward (displayWidth l.text) ++ Event.eraseLineToEnd.encode ++ text

@[simp]
theorem editor_redrawRemainder : (redrawRemainder e).editor = e := by
  simp [redrawRemainder]

@[simp]
theorem written_redrawRemainder : redrawRemainder.written e = remainder e.line := by
  simp [redrawRemainder, remainder]

@[simp]
theorem editor_redrawLine (text : List Char) :
    (redrawLine text e).editor = { e with line := .ofText text } := by
  simp [redrawLine]

@[simp]
theorem written_redrawLine (text : List Char) :
    (redrawLine text).written e = redrawn e.line text := by
  simp [redrawLine, redrawn]

theorem editor_renderPrompt : (renderPrompt e).editor = { e with needsPrompt := false } := by
  simp [renderPrompt]

theorem written_renderPrompt :
    renderPrompt.written e = e.prompt ++ e.line.text ++ backward e.line.widthAfter := by
  simp [renderPrompt]

/-! ## Editing the line -/

instance (s : List Char) : Sound (typeText s) := by
  unfold typeText
  infer_instance

theorem editor_typeText (s : List Char) :
    (typeText s e).editor = { e with line := e.line.insert s } := by
  simp [typeText]

theorem written_typeText (s : List Char) :
    (typeText s).written e =
      s ++ (e.line.insert s).after ++ backward (e.line.insert s).widthAfter := by
  simp [typeText]

instance (erasure : Line.Erasure) : Sound (eraseBehind erasure) := by
  unfold eraseBehind
  refine Sound.bind inferInstance fun e => ?_
  split <;> infer_instance

theorem editor_eraseBehind (erasure : Line.Erasure) :
    (eraseBehind erasure e).editor =
      match e.line.erase? erasure with
      | none => e
      | some (_, line) => { e with line } := by
  cases h : e.line.erase? erasure <;> simp [eraseBehind, h]

theorem written_eraseBehind (erasure : Line.Erasure) :
    (eraseBehind erasure).written e =
      match e.line.erase? erasure with
      | none => []
      | some (removed, line) => backward (displayWidth removed) ++ remainder line := by
  cases h : e.line.erase? erasure <;> simp [eraseBehind, h]

instance : Sound eraseToEnd := by
  unfold eraseToEnd
  refine Sound.bind inferInstance fun e => ?_
  split <;> infer_instance

theorem editor_eraseToEnd :
    (eraseToEnd e).editor =
      match e.line.erase? .toEnd with
      | none => e
      | some (_, line) => { e with line } := by
  cases h : e.line.erase? .toEnd <;> simp [eraseToEnd, h]

theorem written_eraseToEnd :
    eraseToEnd.written e =
      match e.line.erase? .toEnd with
      | none => []
      | some _ => Event.eraseLineToEnd.encode := by
  cases h : e.line.erase? .toEnd <;> simp [eraseToEnd, h]

instance : Sound eraseEverything := by
  unfold eraseEverything
  refine Sound.bind inferInstance fun e => ?_
  split <;> infer_instance

theorem editor_eraseEverything :
    (eraseEverything e).editor =
      match e.line.erase? .everything with
      | none => e
      | some (_, line) => { e with line } := by
  cases h : e.line.erase? .everything <;> simp [eraseEverything, h]

theorem written_eraseEverything :
    eraseEverything.written e =
      match e.line.erase? .everything with
      | none => []
      | some _ => backward (displayWidth e.line.before) ++ Event.eraseLineToEnd.encode := by
  cases h : e.line.erase? .everything <;> simp [eraseEverything, h]

instance (n : Nat) : Sound (goBackward n) := by
  unfold goBackward
  infer_instance

theorem editor_goBackward (n : Nat) :
    (goBackward n e).editor =
      if min n e.line.cursor = 0 then e
      else { e with line := e.line.move (-(min n e.line.cursor : Nat)) } := by
  simp [goBackward]

theorem written_goBackward (n : Nat) :
    (goBackward n).written e =
      if min n e.line.cursor = 0 then []
      else backward (e.line.widthBefore (min n e.line.cursor)) := by
  simp [goBackward]

instance (n : Nat) : Sound (goForward n) := by
  unfold goForward
  infer_instance

theorem editor_goForward (n : Nat) :
    (goForward n e).editor = { e with line := e.line.move n } := by
  simp [goForward]

theorem written_goForward (n : Nat) :
    (goForward n).written e =
      forward ((e.line.move n).widthBefore (e.line.moved n).natAbs) := by
  simp [goForward]

/-! ## History -/

instance (direction : Direction) (n : Nat) : Sound (browse direction n) := by
  unfold browse
  refine Sound.bind inferInstance fun e => Sound.bind inferInstance fun _ => ?_
  split <;> infer_instance

/-- Each step starts with the line that the steps before it selected. -/
theorem historySteps_succ (direction : Direction) (text : List Char) (n : Nat)
    (selected : Option (List Char)) (h : History) :
    historySteps direction text (n + 1) selected h =
      historySteps direction text n
        ((historyStep direction h (selected.getD text)).1 <|> selected)
        (historyStep direction h (selected.getD text)).2 :=
  rfl

/-- The line that walking through the history selects, and the history then. -/
def walked (direction : Direction) (n : Nat) : Option (List Char) × History :=
  historySteps direction e.line.text n none e.history

theorem editor_browse (direction : Direction) (n : Nat) :
    (browse direction n e).editor =
      match (walked e direction n).1 with
      | none => { e with history := (walked e direction n).2 }
      | some entry =>
        { e with history := (walked e direction n).2, line := .ofText entry } := by
  unfold walked
  cases h : (historySteps direction e.line.text n none e.history).1 <;> simp [browse, h]

theorem written_browse (direction : Direction) (n : Nat) :
    (browse direction n).written e =
      match (walked e direction n).1 with
      | none => []
      | some entry => redrawn e.line entry := by
  unfold walked
  cases h : (historySteps direction e.line.text n none e.history).1 <;> simp [browse, h]

/-! ## Finishing a line -/

instance (text : List Char) : Sound (showExpanded text) := by
  unfold showExpanded
  infer_instance

instance : Sound submit := by
  unfold submit
  infer_instance

instance : Sound enter := by
  unfold enter
  infer_instance

instance : Sound interrupt := by
  unfold interrupt
  infer_instance

instance : Sound endInput := by
  unfold endInput
  infer_instance

/-- The line with the references in it replaced. -/
def expansion : List Char :=
  e.history.expand e.line.text

theorem value_enter :
    (enter e).value =
      if expansion e = e.line.text then .line e.line.text e.line.moveToEnd.cursor
      else .expanded (expansion e) := by
  simp [enter, submit, showExpanded, Line.moveToEnd, expansion]
  rfl

theorem editor_enter :
    (enter e).editor =
      if expansion e = e.line.text then
        { e with line := .empty, history := (e.history.append e.line.text).reset }
      else { e with line := .ofText (expansion e) } := by
  simp [enter, submit, showExpanded, Line.moveToEnd, expansion]
  rfl

theorem written_enter :
    enter.written e =
      forward e.line.widthAfter ++
        if expansion e = e.line.text then lineBreak
        else redrawn e.line.moveToEnd (expansion e) := by
  simp [enter, submit, showExpanded, Line.moveToEnd, expansion]
  rfl

theorem value_interrupt : (interrupt e).value = .interrupted :=
  rfl

theorem editor_interrupt :
    (interrupt e).editor = { e with line := .empty, history := e.history.reset } := by
  simp [interrupt]

theorem written_interrupt : interrupt.written e = lineBreak := by
  simp [interrupt]

theorem value_endInput :
    (endInput e).value = if e.line.isEmpty then some .endOfInput else none := by
  simp [endInput]

theorem editor_endInput : (endInput e).editor = e := by
  simp [endInput]

theorem written_endInput :
    endInput.written e = if e.line.isEmpty then lineBreak else [] := by
  simp [endInput]

end Promptline.Edit
