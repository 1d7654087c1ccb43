import Promptline.Proofs.Editor.Input
import Promptline.Proofs.Line.Cursor

set_option autoImplicit false

/-! # What is printed of a change

A change in front of the cursor leaves some of the text there as it is, and prints what comes behind
that: what was put in, and then what stands behind the cursor of the new line. If a cluster reaches
over the place of the change, the cursor stands behind it, and so the part of it that was there
before is not printed (`Change.prints`). So what is left and what is printed make up the new
text just if nothing that stood behind the cursor joins what stands in front of it now
(`Change.kept_append_printed_iff`). -/

namespace Promptline

open Terminal Unicode

/-! ## Text among effects -/

/-- The text that an effect has the terminal show. -/
def Effect.printed : Effect → List Char
  | print s => s
  | control _ | save _ | note _ => []

namespace Edit

variable {α β : Type}

/-- The text that an edit has the terminal show if every write succeeds, controls apart. -/
def printed (x : Edit α) (e : Editor) : List Char :=
  (x e).effects.flatMap Effect.printed

section Combinators

variable (e : Editor)

@[simp]
theorem printed_pure (a : α) : (pure a : Edit α).printed e = [] :=
  rfl

@[simp]
theorem printed_bind (x : Edit α) (f : α → Edit β) :
    (x >>= f).printed e = x.printed e ++ (f (x e).value).printed (x e).editor :=
  List.flatMap_append

@[simp]
theorem printed_ite (p : Prop) [Decidable p] (x y : Edit α) :
    (if p then x else y : Edit α).printed e = if p then x.printed e else y.printed e := by
  split <;> rfl

@[simp high]
theorem printed_current_bind (f : Editor → Edit β) :
    (current >>= f).printed e = (f e).printed e :=
  rfl

@[simp]
theorem printed_print (s : List Char) : (print s).printed e = s :=
  List.append_nil s

@[simp]
theorem printed_control (event : Event) : (control event).printed e = [] :=
  rfl

@[simp]
theorem printed_update (f : Editor → Editor) : (update f).printed e = [] :=
  rfl

@[simp]
theorem printed_saveLine (l : Line) : (saveLine l).printed e = [] :=
  rfl

@[simp]
theorem printed_moveBackward (width : Nat) : (moveBackward width).printed e = [] := by
  unfold moveBackward
  split <;> rfl

@[simp]
theorem printed_redrawRemainder : redrawRemainder.printed e = e.line.after := by
  simp [redrawRemainder]

theorem printed_typeText (s : List Char) :
    (typeText s).printed e = s ++ (e.line.insert s).after := by
  simp [typeText]

theorem printed_eraseBehind (erasure : Line.Erasure) :
    (eraseBehind erasure).printed e =
      match e.line.erase? erasure with
      | none => []
      | some (_, line) => line.after := by
  cases h : e.line.erase? erasure <;> simp [eraseBehind, h]

theorem printed_complete (replacement : List Char) :
    (complete replacement).printed e =
      replacement ++ (e.line.replaceBefore e.line.wordStart replacement).after := by
  simp [complete]

end Combinators

/-- Without candidates to take away, an event prints what its key prints. -/
theorem printed_apply {files : FileTree} {event : Event} {e : Editor} (hmode : e.mode = .input)
    (htab : event ≠ .tab) : (apply files event).printed e = (handle event).printed e := by
  have hdismissal : (dismissBefore event).printed e = [] := by
    rw [dismissBefore, printed_current_bind]
    simp only [hmode]
    rfl
  rw [apply, if_neg htab, applyKey]
  simp [hdismissal, editor_dismissBefore, dismissed_eq_self hmode]

/-- What a change in front of the cursor comes to. Either it does nothing, or the text is what is
    left there, what is put in and what stood behind the cursor, which then stands where the second
    ends, or behind the cluster that reaches over that place; and what is printed is what is put in
    and what stands behind the cursor then. -/
def Prints (x : Edit α) (e : Editor) (kept put : List Char) : Prop :=
  ((x e).editor.line = e.line ∧ x.printed e = []) ∨
    ((x e).editor.line.text = kept ++ put ++ e.line.after ∧
      (x e).editor.line.cursor = clusterCount (kept ++ put) ∧
      x.printed e = put ++ (x e).editor.line.after)

section Prints

variable {e : Editor} {kept put : List Char}

theorem Prints.of_eq {x : Edit α} {y : Edit β} (h : Prints x e kept put)
    (hline : (y e).editor.line = (x e).editor.line) (hprinted : y.printed e = x.printed e) :
    Prints y e kept put := by
  rw [Prints, hline, hprinted]
  exact h

theorem Prints.bind_pure {x : Edit α} (h : Prints x e kept put) (b : β) :
    Prints (x >>= fun _ => pure b) e kept put :=
  h.of_eq rfl (by rw [printed_bind, printed_pure, List.append_nil])

theorem Prints.apply {files : FileTree} (event : Event) (hmode : e.mode = .input)
    (htab : event ≠ .tab) (h : Prints (handle event) e kept put) :
    Prints (apply files event) e kept put := by
  refine h.of_eq ?_ (printed_apply hmode htab)
  rw [editor_apply, if_neg htab, editor_applyKey, dismissed_eq_self hmode]
  split <;> rfl

theorem prints_typeText (e : Editor) (s : List Char) : Prints (typeText s) e e.line.before s := by
  have hcursor : (e.line.insert s).cursor = clusterCount (e.line.before ++ s) :=
    Nat.min_eq_left (clusterCount_le_append _ _)
  rw [Prints, editor_typeText, printed_typeText]
  exact .inr ⟨rfl, hcursor, rfl⟩

theorem prints_complete (e : Editor) (r : List Char) :
    Prints (complete r) e (e.line.firstClusters e.line.wordStart) r := by
  rw [Prints, editor_complete, printed_complete, Line.replaceBefore,
    Nat.min_eq_left e.line.wordStart_le_cursor]
  exact .inr ⟨rfl, rfl, rfl⟩

/-- An erasure, where what is left in front of the cursor is given. -/
theorem prints_eraseBehind {erasure : Line.Erasure}
    (herase : ∀ removed l', e.line.erase? erasure = some (removed, l') →
      l'.text = kept ++ e.line.after ∧ l'.cursor = clusterCount kept) :
    Prints (eraseBehind erasure) e kept [] := by
  rw [Prints, editor_eraseBehind, printed_eraseBehind, List.append_nil]
  cases hsome : e.line.erase? erasure with
  | none => exact .inl ⟨rfl, rfl⟩
  | some erased =>
      obtain ⟨removed, l'⟩ := erased
      obtain ⟨htext, hcursor⟩ := herase removed l' hsome
      exact .inr ⟨htext, hcursor, rfl⟩

theorem prints_erasePrevious (hline : e.line.WellFormed) :
    Prints (eraseBehind .previous) e (e.line.firstClusters (e.line.cursor - 1)) [] := by
  have hcursor : e.line.cursor ≤ e.line.length := hline
  refine prints_eraseBehind fun removed l' herase => ?_
  rw [Line.erase?] at herase
  split at herase
  · cases herase
  · cases herase
    refine ⟨rfl, ?_⟩
    rw [Line.clusterCount_firstClusters]
    dsimp only
    omega

theorem prints_eraseToBegin (e : Editor) : Prints (eraseBehind .toBegin) e [] [] := by
  refine prints_eraseBehind fun removed l' herase => ?_
  rw [Line.erase?] at herase
  split at herase
  · cases herase
  · cases herase
    exact ⟨rfl, rfl⟩

end Prints

end Edit

/-! ## Changes -/

/-- A change in front of the cursor. -/
inductive Change where
  /-- Text is typed. -/
  | typed (s : List Char)
  /-- The cluster in front of the cursor is erased, by one key or the other. -/
  | backspace
  | delete
  /-- Everything in front of the cursor is erased. -/
  | toBegin
  /-- The word at the cursor is completed. -/
  | completed (r : List Char)
  deriving DecidableEq, Repr

namespace Change

/-- What makes the change. -/
def edit (files : FileTree) : Change → Edit Unit
  | typed s => do let _ ← Edit.apply files (.text s)
  | backspace => do let _ ← Edit.apply files .backspace
  | delete => do let _ ← Edit.apply files .delete
  | toBegin => do let _ ← Edit.apply files .eraseLineToBegin
  | completed r => Edit.finishCompletion (.single r)

/-- What it leaves of the text in front of the cursor. -/
def kept (l : Line) : Change → List Char
  | typed _ => l.before
  | backspace | delete => l.firstClusters (l.cursor - 1)
  | toBegin => []
  | completed _ => l.firstClusters l.wordStart

/-- What it puts in behind that. -/
def put : Change → List Char
  | typed s => s
  | backspace | delete | toBegin => []
  | completed r => r

instance (files : FileTree) (change : Change) : Edit.Sound (change.edit files) := by
  cases change <;> unfold edit <;> infer_instance

open Edit

theorem prints (files : FileTree) {e : Editor} (hmode : e.mode = .input)
    (hline : e.line.WellFormed) (change : Change) :
    Prints (change.edit files) e (change.kept e.line) change.put := by
  cases change with
  | typed s =>
      have hkey := (prints_typeText e s).bind_pure (none : Option Outcome)
      exact (Prints.apply (.text s) hmode nofun hkey).bind_pure ()
  | backspace =>
      have hkey := (prints_erasePrevious hline).bind_pure (none : Option Outcome)
      exact (Prints.apply .backspace hmode nofun hkey).bind_pure ()
  | delete =>
      have hkey := (prints_erasePrevious hline).bind_pure (none : Option Outcome)
      exact (Prints.apply .delete hmode nofun hkey).bind_pure ()
  | toBegin =>
      have hkey := (prints_eraseToBegin e).bind_pure (none : Option Outcome)
      exact (Prints.apply .eraseLineToBegin hmode nofun hkey).bind_pure ()
  | completed r => exact prints_complete e r

/-- **What is left and what is printed.** Whatever the line and wherever its cursor, on a terminal
    that takes every write: a change that alters the text leaves what is left of the text in front
    of the cursor, what is put in behind that, and what stood behind the cursor. Printed is what is
    put in, and of what stood behind the cursor all but the beginning that joins the text in front
    of it now. So what is left and what is printed are the text just if nothing joins, and always if
    nothing is left in front of the cursor. -/
theorem kept_append_printed_iff (files : FileTree) {e : Editor} (hmode : e.mode = .input)
    (hline : e.line.WellFormed) (change : Change) :
    let new := ((change.edit files).run e .working).editor.line
    let front := change.kept e.line ++ change.put
    let shown := change.kept e.line ++ (change.edit files).printed e
    new.text ≠ e.line.text →
      new.text = front ++ e.line.after ∧ shown = front ++ new.after ∧
        joining front e.line.after ++ new.after = e.line.after ∧
        (shown = new.text ↔ joining front e.line.after = []) ∧
        (change = .toBegin → shown = new.text) := by
  intro new front shown hchange
  have hnew : new = ((change.edit files) e).editor.line :=
    congrArg Editor.line (run_working_editor _ e)
  rcases change.prints files hmode hline with ⟨hsame, _⟩ | ⟨htext, hcursor, hprinted⟩
  · exact absurd (congrArg Line.text (hnew.trans hsame)) hchange
  · rw [← hnew] at htext hcursor hprinted
    have hshown : shown = front ++ new.after := by
      rw [List.append_assoc, ← hprinted]
    have hjoin : joining front e.line.after ++ new.after = e.line.after := by
      have hparts := joining_append_drop front e.line.after
      rwa [← htext, ← hcursor] at hparts
    have hiff : shown = new.text ↔ joining front e.line.after = [] := by
      rw [hshown, htext, List.append_cancel_left_eq]
      calc new.after = e.line.after
        _ ↔ new.after = joining front e.line.after ++ new.after := by rw [hjoin]
        _ ↔ joining front e.line.after = [] := List.self_eq_append_left
    refine ⟨htext, hshown, hjoin, hiff, fun hbegin => hiff.2 ?_⟩
    subst hbegin
    exact joining_nil _

/-- A letter typed in front of an accented one, which begins a cluster of its own. -/
theorem kept_append_printed_accent :
    let e : Editor :=
      { Editor.start ['>'] ⟨[], [], .tableOnly⟩ (.empty 10) (80, 24) with
        line := { text := ['a', 'e', '\u0301'], cursor := 1 } }
    let change : Change := .typed ['x']
    let new := ((change.edit .empty).run e .working).editor.line
    e.line.WellFormed ∧ new.text ≠ e.line.text ∧ new.text = ['a', 'x', 'e', '\u0301'] ∧
      change.kept e.line ++ (change.edit .empty).printed e = new.text := by
  intro e change new
  have hline : e.line.cursor ≤ e.line.length := by decide +kernel
  have hchange : new.text ≠ e.line.text := by decide +kernel
  obtain ⟨_, _, _, hiff, _⟩ := change.kept_append_printed_iff .empty (e := e) rfl hline hchange
  exact ⟨hline, hchange, by decide +kernel, hiff.2 (by decide +kernel)⟩

/-- A regional indicator typed in front of another one: the two are one flag, of which only the
    first half is printed. -/
theorem kept_append_printed_flag :
    let e : Editor :=
      { Editor.start ['>'] ⟨[], [], .tableOnly⟩ (.empty 10) (80, 24) with
        line := { text := [Char.ofNat 0x1F1E7], cursor := 0 } }
    let change : Change := .typed [Char.ofNat 0x1F1E6]
    let new := ((change.edit .empty).run e .working).editor.line
    e.line.WellFormed ∧ new.text ≠ e.line.text ∧
      new.text = [Char.ofNat 0x1F1E6, Char.ofNat 0x1F1E7] ∧
      change.kept e.line ++ (change.edit .empty).printed e = [Char.ofNat 0x1F1E6] ∧
      change.kept e.line ++ (change.edit .empty).printed e ≠ new.text := by
  intro e change new
  have hline : e.line.cursor ≤ e.line.length := by decide +kernel
  exact ⟨hline, by decide +kernel, by decide +kernel, by decide +kernel, by decide +kernel⟩

end Change

end Promptline
