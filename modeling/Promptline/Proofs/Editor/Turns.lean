import Promptline.Proofs.Editor.Events
import Promptline.Proofs.Editor.WellFormed

set_option autoImplicit false

/-! # The history changes in one piece

Only browsing, entering a line and abandoning one change the history, and each of them saves it
once. So wherever an event stops, the history is the one from before, or already the one that the
event leads to (`turns_apply`). -/

namespace Promptline.Edit

open Terminal Unicode

variable {α β : Type}

/-! ## Edits that leave the history alone -/

/-- An edit that leaves the history as it is, at whatever write it stops. -/
class KeepsHistory (x : Edit α) : Prop where
  editor : ∀ e, (x e).editor.history = e.history
  saves : ∀ e e', .save e' ∈ (x e).effects → e'.history = e.history

section KeepsHistory

theorem KeepsHistory.passes {x : Edit α} [hx : KeepsHistory x] {e e' : Editor}
    (h : x.Passes e e') : e'.history = e.history := by
  rcases h with rfl | hsave
  · rfl
  · exact hx.saves e e' hsave

theorem KeepsHistory.update {f : Editor → Editor} (hf : ∀ e, (f e).history = e.history) :
    KeepsHistory (update f) where
  editor e := hf e
  saves e e' h := by
    obtain rfl := Effect.save.inj (List.mem_singleton.1 h)
    exact hf e

theorem KeepsHistory.bind {x : Edit α} {f : α → Edit β} (hx : KeepsHistory x)
    (hf : ∀ a, KeepsHistory (f a)) : KeepsHistory (x >>= f) where
  editor e := by rw [editor_bind, (hf _).editor, hx.editor]
  saves e e' h := by
    rcases List.mem_append.1 h with h | h
    · exact hx.saves e e' h
    · exact ((hf _).saves _ e' h).trans (hx.editor e)

instance (x : Edit α) [hx : Writes x] : KeepsHistory x where
  editor e := by rw [hx.editor]
  saves e e' h := absurd h (hx.saves e e')

instance (x : Edit α) (f : α → Edit β) [hx : KeepsHistory x] [hf : ∀ a, KeepsHistory (f a)] :
    KeepsHistory (x >>= f) :=
  hx.bind hf

instance (l : Line) : KeepsHistory (saveLine l) :=
  .update fun _ => rfl

instance (m : Mode) : KeepsHistory (saveMode m) :=
  .update fun _ => rfl

instance (p : Prop) [Decidable p] (x y : Edit α) [KeepsHistory x] [KeepsHistory y] :
    KeepsHistory (if p then x else y) := by
  split <;> assumption

instance (text : List Char) : KeepsHistory (redrawLine text) := by
  unfold redrawLine
  infer_instance

instance (s : List Char) : KeepsHistory (typeText s) := by
  unfold typeText
  infer_instance

instance (erasure : Line.Erasure) : KeepsHistory (eraseBehind erasure) := by
  unfold eraseBehind
  refine KeepsHistory.bind inferInstance fun e => ?_
  split <;> infer_instance

instance : KeepsHistory eraseToEnd := by
  unfold eraseToEnd
  refine KeepsHistory.bind inferInstance fun e => ?_
  split <;> infer_instance

instance : KeepsHistory eraseEverything := by
  unfold eraseEverything
  refine KeepsHistory.bind inferInstance fun e => ?_
  split <;> infer_instance

instance (n : Nat) : KeepsHistory (goBackward n) := by
  unfold goBackward
  infer_instance

instance (n : Nat) : KeepsHistory (goForward n) := by
  unfold goForward
  infer_instance

instance (text : List Char) : KeepsHistory (showExpanded text) := by
  unfold showExpanded
  infer_instance

instance (p : Popup) : KeepsHistory (restoreCursor p) := by
  unfold restoreCursor
  infer_instance

instance (event : Event) : KeepsHistory (dismissBefore event) := by
  unfold dismissBefore
  refine KeepsHistory.bind inferInstance fun e => ?_
  split
  · infer_instance
  · refine KeepsHistory.bind inferInstance fun _ => ?_
    dsimp only
    split <;> infer_instance

instance (grid : Grid) : KeepsHistory (showCandidates grid) := by
  unfold showCandidates
  refine KeepsHistory.bind inferInstance fun e => KeepsHistory.bind inferInstance fun _ => ?_
  dsimp only
  refine KeepsHistory.bind inferInstance fun _ => KeepsHistory.bind inferInstance fun _ => ?_
  infer_instance

instance (replacement : List Char) : KeepsHistory (complete replacement) := by
  unfold complete
  infer_instance

instance (answer : Completion) : KeepsHistory (finishCompletion answer) := by
  unfold finishCompletion
  split <;> infer_instance

instance : KeepsHistory prepareCompletion := by
  unfold prepareCompletion
  infer_instance

instance (files : FileTree) (request : CompletionRequest) :
    KeepsHistory (runCompletion files request) := by
  unfold runCompletion
  refine KeepsHistory.bind inferInstance fun e => ?_
  exact KeepsHistory.bind (.update fun _ => rfl) fun _ => inferInstance

instance (files : FileTree) : KeepsHistory (completeWord files) := by
  unfold completeWord
  infer_instance

instance (bytes : List UInt8) : KeepsHistory (enqueue bytes) := by
  unfold enqueue
  refine KeepsHistory.bind inferInstance fun e => ?_
  dsimp only
  refine KeepsHistory.bind inferInstance fun _ => ?_
  exact KeepsHistory.bind (.update fun _ => rfl) fun _ => inferInstance

instance : KeepsHistory nextEvent := by
  unfold nextEvent
  refine KeepsHistory.bind inferInstance fun e => ?_
  split
  · infer_instance
  · exact KeepsHistory.bind (.update fun _ => rfl) fun _ => inferInstance

instance : KeepsHistory renderPrompt := by
  unfold renderPrompt
  refine KeepsHistory.bind inferInstance fun e => ?_
  refine KeepsHistory.bind inferInstance fun _ => ?_
  refine KeepsHistory.bind inferInstance fun _ => ?_
  exact KeepsHistory.bind inferInstance fun _ => .update fun _ => rfl

end KeepsHistory

/-! ## Edits that change it once -/

/-- Wherever the edit stops, the history is the one from before, or the one that it leads to. -/
def Turns (x : Edit α) : Prop :=
  ∀ e e', .save e' ∈ (x e).effects → e'.history = e.history ∨ e'.history = (x e).editor.history

section Turns

variable {x : Edit α} {f : α → Edit β}

theorem Turns.passes (h : Turns x) {e e' : Editor} (hpass : x.Passes e e') :
    e'.history = e.history ∨ e'.history = (x e).editor.history := by
  rcases hpass with rfl | hsave
  · exact .inl rfl
  · exact h e e' hsave

theorem turns_of_keeps (x : Edit α) [hx : KeepsHistory x] : Turns x :=
  fun e e' h => .inl (hx.saves e e' h)

theorem turns_update (f : Editor → Editor) : Turns (update f) := by
  intro e e' h
  obtain rfl := Effect.save.inj (List.mem_singleton.1 h)
  exact .inr rfl

/-- The history is left alone before it changes. -/
theorem turns_bind [hx : KeepsHistory x] (hf : ∀ a, Turns (f a)) : Turns (x >>= f) := by
  intro e e' h
  rcases List.mem_append.1 h with h | h
  · exact .inl (hx.saves e e' h)
  · exact (hf _ _ e' h).imp_left fun hsame => hsame.trans (hx.editor e)

/-- It is left alone once it has changed. -/
theorem Turns.bind (hx : Turns x) (hf : ∀ a, KeepsHistory (f a)) : Turns (x >>= f) := by
  have hdone : ∀ e, ((x >>= f) e).editor.history = (x e).editor.history := fun e => by
    rw [editor_bind, (hf _).editor]
  intro e e' h
  rw [hdone]
  rcases List.mem_append.1 h with h | h
  · exact hx e e' h
  · exact .inr ((hf _).saves _ e' h)

theorem turns_browse (direction : Direction) (n : Nat) : Turns (browse direction n) := by
  unfold browse
  refine turns_bind fun e => (turns_update _).bind fun _ => ?_
  split <;> infer_instance

theorem turns_submit : Turns submit := by
  unfold submit
  refine turns_bind fun _ => turns_bind fun e => turns_bind fun _ => ?_
  exact (turns_update _).bind fun _ => inferInstance

theorem turns_enter : Turns enter := by
  unfold enter
  refine turns_bind fun before => turns_bind fun _ => turns_bind fun _ => turns_bind fun e => ?_
  refine turns_bind fun _ => ?_
  dsimp only
  split
  · exact turns_submit
  · exact turns_of_keeps _

theorem turns_interrupt : Turns interrupt := by
  unfold interrupt
  refine turns_bind fun _ => turns_bind fun e => turns_bind fun _ => ?_
  exact (turns_update _).bind fun _ => inferInstance

theorem turns_handle (event : Event) : Turns (handle event) := by
  have hbrowse : ∀ direction n, Turns (do browse direction n; pure (none : Option Outcome)) :=
    fun direction n => (turns_browse direction n).bind fun _ => inferInstance
  unfold handle
  cases event with
  | newline => exact turns_enter.bind fun _ => inferInstance
  | interrupt => exact turns_interrupt.bind fun _ => inferInstance
  | cursorUp n => exact hbrowse .older n.toNat
  | cursorPreviousLine n => exact hbrowse .older n.toNat
  | cursorDown n => exact hbrowse .newer n.toNat
  | cursorNextLine n => exact hbrowse .newer n.toNat
  | screenSize width height => exact (turns_update _).bind fun _ => inferInstance
  | _ => exact turns_of_keeps _

/-- **Wherever an event stops**, the history has not changed yet, or has changed already. -/
theorem turns_apply (files : FileTree) (event : Event) : Turns (apply files event) := by
  unfold apply
  split
  · exact turns_of_keeps _
  · refine turns_bind fun _ => (turns_handle event).bind fun outcome => ?_
    split
    · exact KeepsHistory.bind (.update fun _ => rfl) fun _ => inferInstance
    · infer_instance

end Turns

end Promptline.Edit
