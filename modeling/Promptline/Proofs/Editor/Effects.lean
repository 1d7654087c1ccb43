import Promptline.Editor.Input

set_option autoImplicit false

/-! # What edits come to on a working terminal

An edit is described by three functions of the editor that it starts from: its value, the editor
that it leaves and what it writes. Each combinator has an equation for each of them, and from these
every key gets one of its own, which is all that later modules use.

An edit is *sound* if the editor that it claims to leave is the one that it saved last. Performing
a sound edit on a terminal that takes every write gives exactly the three (`run_working_value`,
`run_working_editor`, `run_working_output`). Soundness is derived by instance search.

Edits that do the same but for records are *alike*: on any terminal, they stop at the same write and
leave the same (`Alike.run`). -/

namespace Promptline.Edit

open Terminal

variable {α β : Type}

/-- What an edit writes if every write succeeds. -/
def written (x : Edit α) (e : Editor) : List Char :=
  (x e).effects.flatMap Effect.written

/-! ## Combinators -/

section Combinators

variable (e : Editor)

@[simp]
theorem value_pure (a : α) : ((pure a : Edit α) e).value = a :=
  rfl

@[simp]
theorem editor_pure (a : α) : ((pure a : Edit α) e).editor = e :=
  rfl

@[simp]
theorem written_pure (a : α) : (pure a : Edit α).written e = [] :=
  rfl

@[simp]
theorem value_bind (x : Edit α) (f : α → Edit β) :
    ((x >>= f) e).value = (f (x e).value (x e).editor).value :=
  rfl

@[simp]
theorem editor_bind (x : Edit α) (f : α → Edit β) :
    ((x >>= f) e).editor = (f (x e).value (x e).editor).editor :=
  rfl

@[simp]
theorem written_bind (x : Edit α) (f : α → Edit β) :
    (x >>= f).written e = x.written e ++ (f (x e).value).written (x e).editor :=
  List.flatMap_append

@[simp]
theorem value_ite (p : Prop) [Decidable p] (x y : Edit α) :
    ((if p then x else y : Edit α) e).value = if p then (x e).value else (y e).value := by
  split <;> rfl

@[simp]
theorem editor_ite (p : Prop) [Decidable p] (x y : Edit α) :
    ((if p then x else y : Edit α) e).editor = if p then (x e).editor else (y e).editor := by
  split <;> rfl

@[simp]
theorem written_ite (p : Prop) [Decidable p] (x y : Edit α) :
    (if p then x else y : Edit α).written e = if p then x.written e else y.written e := by
  split <;> rfl

@[simp]
theorem current_bind (f : Editor → Edit β) : (current >>= f) e = f e e :=
  rfl

@[simp high]
theorem written_current_bind (f : Editor → Edit β) :
    (current >>= f).written e = (f e).written e :=
  rfl

@[simp]
theorem editor_update (f : Editor → Editor) : (update f e).editor = f e :=
  rfl

@[simp]
theorem written_update (f : Editor → Editor) : (update f).written e = [] :=
  rfl

@[simp]
theorem editor_print (s : List Char) : (print s e).editor = e :=
  rfl

@[simp]
theorem written_print (s : List Char) : (print s).written e = s :=
  List.append_nil s

@[simp]
theorem editor_control (event : Event) : (control event e).editor = e :=
  rfl

@[simp]
theorem written_control (event : Event) : (control event).written e = event.encode :=
  List.append_nil _

@[simp]
theorem editor_note (r : Log.Record) : (note r e).editor = e :=
  rfl

@[simp]
theorem written_note (r : Log.Record) : (note r).written e = [] :=
  rfl

@[simp]
theorem editor_saveLine (l : Line) : (saveLine l e).editor = { e with line := l } :=
  rfl

@[simp]
theorem written_saveLine (l : Line) : (saveLine l).written e = [] :=
  rfl

@[simp]
theorem editor_saveHistory (h : History) : (saveHistory h e).editor = { e with history := h } :=
  rfl

@[simp]
theorem written_saveHistory (h : History) : (saveHistory h).written e = [] :=
  rfl

@[simp]
theorem editor_saveMode (m : Mode) : (saveMode m e).editor = { e with mode := m } :=
  rfl

@[simp]
theorem written_saveMode (m : Mode) : (saveMode m).written e = [] :=
  rfl

/-- Edits that each leave the editor as it is leave it so together. -/
theorem editor_all {xs : List (Edit Unit)} (h : ∀ x ∈ xs, ∀ e, (x e).editor = e) :
    (all xs e).editor = e := by
  induction xs with
  | nil => rfl
  | cons x rest ih =>
      rw [all, editor_bind, h x (List.mem_cons_self ..),
        ih fun y hy => h y (List.mem_cons_of_mem _ hy)]

/-- What edits write that each leave the editor as it is. -/
theorem written_all {xs : List (Edit Unit)} (h : ∀ x ∈ xs, ∀ e, (x e).editor = e) :
    (all xs).written e = xs.flatMap fun x => x.written e := by
  induction xs with
  | nil => rfl
  | cons x rest ih =>
      rw [all, written_bind, h x (List.mem_cons_self ..),
        ih fun y hy => h y (List.mem_cons_of_mem _ hy), List.flatMap_cons]

theorem note_of_mem {γ : Type} {f : γ → Log.Record} {rs : List γ} {x : Edit Unit}
    (hx : x ∈ rs.map fun r => note (f r)) (e : Editor) : (x e).editor = e ∧ x.written e = [] := by
  obtain ⟨r, _, rfl⟩ := List.mem_map.1 hx
  exact ⟨rfl, rfl⟩

/-- Records leave the editor as it is. -/
theorem editor_all_note {γ : Type} (f : γ → Log.Record) (rs : List γ) :
    (all (rs.map fun r => note (f r)) e).editor = e :=
  editor_all e fun _ hx e => (note_of_mem hx e).1

/-- Records are not written to the terminal. -/
theorem written_all_note {γ : Type} (f : γ → Log.Record) (rs : List γ) :
    (all (rs.map fun r => note (f r))).written e = [] := by
  rw [written_all e fun _ hx e => (note_of_mem hx e).1, List.flatMap_eq_nil_iff]
  exact fun x hx => (note_of_mem hx e).2

@[simp]
theorem editor_all_map_note (rs : List Log.Record) : (all (rs.map note) e).editor = e :=
  editor_all_note e id rs

@[simp]
theorem written_all_map_note (rs : List Log.Record) : (all (rs.map note)).written e = [] :=
  written_all_note e id rs

end Combinators

/-! ## Performing -/

/-- The editor that was saved last among effects. -/
def lastSaved (e : Editor) : List Effect → Editor
  | [] => e
  | .save e' :: rest => lastSaved e' rest
  | _ :: rest => lastSaved e rest

theorem lastSaved_append (e : Editor) (xs ys : List Effect) :
    lastSaved e (xs ++ ys) = lastSaved (lastSaved e xs) ys := by
  induction xs generalizing e with
  | nil => rfl
  | cons x rest ih => cases x <;> exact ih _

/-- The editor that an edit leaves is the one that it saved last. -/
class Sound (x : Edit α) : Prop where
  saved : ∀ e, lastSaved e (x e).effects = (x e).editor

section Sound

instance (a : α) : Sound (pure a : Edit α) :=
  ⟨fun _ => rfl⟩

theorem Sound.bind {x : Edit α} {f : α → Edit β} (hx : Sound x) (hf : ∀ a, Sound (f a)) :
    Sound (x >>= f) where
  saved e := by
    change lastSaved e ((x e).effects ++ (f (x e).value (x e).editor).effects) = _
    rw [lastSaved_append, hx.saved, (hf _).saved]
    rfl

instance (x : Edit α) (f : α → Edit β) [hx : Sound x] [hf : ∀ a, Sound (f a)] :
    Sound (x >>= f) :=
  hx.bind hf

instance : Sound current :=
  ⟨fun _ => rfl⟩

instance (f : Editor → Editor) : Sound (update f) :=
  ⟨fun _ => rfl⟩

instance (s : List Char) : Sound (print s) :=
  ⟨fun _ => rfl⟩

instance (event : Event) : Sound (control event) :=
  ⟨fun _ => rfl⟩

instance (r : Log.Record) : Sound (note r) :=
  ⟨fun _ => rfl⟩

instance (p : Prop) [Decidable p] (x y : Edit α) [Sound x] [Sound y] :
    Sound (if p then x else y) := by
  split <;> assumption

theorem Sound.all {xs : List (Edit Unit)} (h : ∀ x ∈ xs, Sound x) : Sound (Edit.all xs) := by
  induction xs with
  | nil => exact inferInstanceAs (Sound (pure ()))
  | cons x rest ih =>
      have hx : Sound x := h x (List.mem_cons_self ..)
      have hrest : Sound (Edit.all rest) := ih fun y hy => h y (List.mem_cons_of_mem _ hy)
      exact inferInstanceAs (Sound (x >>= fun _ => Edit.all rest))

instance {γ : Type} (f : γ → Edit Unit) (xs : List γ) [hf : ∀ c, Sound (f c)] :
    Sound (all (xs.map f)) :=
  Sound.all fun x hx => by
    obtain ⟨c, _, rfl⟩ := List.mem_map.1 hx
    exact hf c

instance (n : Nat) (x : Edit Unit) [hx : Sound x] : Sound (all (List.replicate n x)) :=
  Sound.all fun _ hy => (List.eq_of_mem_replicate hy) ▸ hx

end Sound

theorem accept?_working (s : List Char) : Sink.working.accept? s = some .working := by
  unfold Sink.accept?
  split <;> rfl

/-- Performing effects on a terminal that takes every write. -/
theorem performAll_working (e : Editor) (effects : List Effect) :
    (performAll e .working effects).value = some () ∧
      (performAll e .working effects).editor = lastSaved e effects ∧
      (performAll e .working effects).sink = .working ∧
      (performAll e .working effects).output = effects.flatMap Effect.written := by
  induction effects generalizing e with
  | nil => exact ⟨rfl, rfl, rfl, rfl⟩
  | cons x rest ih =>
      cases x with
      | save e' => exact ih e'
      | note r => exact ih e
      | print s =>
          simp only [performAll, accept?_working]
          exact ⟨(ih e).1, (ih e).2.1, (ih e).2.2.1, by rw [(ih e).2.2.2]; rfl⟩
      | control event =>
          simp only [performAll, accept?_working]
          exact ⟨(ih e).1, (ih e).2.1, (ih e).2.2.1, by rw [(ih e).2.2.2]; rfl⟩

section Working

variable (x : Edit α) (e : Editor)

theorem run_working_value : (x.run e .working).value = some (x e).value := by
  simp only [Edit.run, (performAll_working e (x e).effects).1, Option.map_some]

theorem run_working_editor [hx : Sound x] : (x.run e .working).editor = (x e).editor := by
  simp only [Edit.run, (performAll_working e (x e).effects).2.1, hx.saved]

theorem run_working_sink : (x.run e .working).sink = .working :=
  (performAll_working e (x e).effects).2.2.1

theorem run_working_output : (x.run e .working).output = x.written e :=
  (performAll_working e (x e).effects).2.2.2

end Working

/-! ## Records apart -/

/-- An edit is a sequence of steps, however these are grouped. This is no instance, since `simp`
    would then write edits in another way. -/
theorem lawfulMonad : LawfulMonad Edit :=
  LawfulMonad.mk' Edit
    (fun x => funext fun e => congrArg (Step.mk (x e).value (x e).editor) (List.append_nil _))
    (fun _ _ => rfl)
    (fun _ _ _ => funext fun _ => congrArg (Step.mk _ _) (List.append_assoc ..))

/-- Whether an effect is a record for the log. -/
def isNote : Effect → Bool
  | .note _ => true
  | _ => false

/-- Effects without the records among them. -/
def withoutNotes (effects : List Effect) : List Effect :=
  effects.filter fun x => !isNote x

theorem written_withoutNotes (effects : List Effect) :
    (withoutNotes effects).flatMap Effect.written = effects.flatMap Effect.written := by
  induction effects with
  | nil => rfl
  | cons x rest ih =>
      cases x with
      | note r => exact ih
      | save e => exact ih
      | print s => exact congrArg (s ++ ·) ih
      | control event => exact congrArg (event.encode ++ ·) ih

/-- Records make no difference to where performing stops and what it leaves. -/
theorem performAll_withoutNotes (e : Editor) (sink : Sink) (effects : List Effect) :
    let outline := performAll e sink (withoutNotes effects)
    (performAll e sink effects).value = outline.value ∧
      (performAll e sink effects).editor = outline.editor ∧
      (performAll e sink effects).sink = outline.sink := by
  induction effects generalizing e sink with
  | nil => exact ⟨rfl, rfl, rfl⟩
  | cons x rest ih =>
      cases x with
      | save e' => exact ih e' sink
      | note r => exact ih e sink
      | print s =>
          simp only [withoutNotes, List.filter_cons, isNote, Bool.not_false, if_true, performAll]
          split
          · exact ⟨rfl, rfl, rfl⟩
          · exact ih e _
      | control event =>
          simp only [withoutNotes, List.filter_cons, isNote, Bool.not_false, if_true, performAll]
          split
          · exact ⟨rfl, rfl, rfl⟩
          · exact ih e _

/-- Two edits that do the same, records apart. -/
structure Alike (x y : Edit α) : Prop where
  value : ∀ e, (x e).value = (y e).value
  editor : ∀ e, (x e).editor = (y e).editor
  outline : ∀ e, withoutNotes (x e).effects = withoutNotes (y e).effects

namespace Alike

variable {x y : Edit α} {f g : α → Edit β}

theorem refl (x : Edit α) : Alike x x :=
  ⟨fun _ => rfl, fun _ => rfl, fun _ => rfl⟩

/-- The same first step. -/
theorem behind (x : Edit α) (h : ∀ a, Alike (f a) (g a)) : Alike (x >>= f) (x >>= g) where
  value e := (h _).value _
  editor e := (h _).editor _
  outline e := by
    show withoutNotes (_ ++ _) = withoutNotes (_ ++ _)
    rw [withoutNotes, withoutNotes, List.filter_append, List.filter_append]
    exact congrArg _ ((h _).outline _)

/-- Records in front of an edit. -/
theorem notes (records : List Log.Record) (y : Edit β) :
    Alike y (all (records.map note) >>= fun _ => y) := by
  induction records with
  | nil => exact refl y
  | cons r rest ih => exact ⟨ih.value, ih.editor, ih.outline⟩

theorem written (h : Alike x y) (e : Editor) : x.written e = y.written e := by
  rw [Edit.written, Edit.written, ← written_withoutNotes, h.outline, written_withoutNotes]

theorem run (h : Alike x y) (e : Editor) (sink : Sink) :
    (x.run e sink).value = (y.run e sink).value ∧
      (x.run e sink).editor = (y.run e sink).editor ∧
      (x.run e sink).sink = (y.run e sink).sink := by
  obtain ⟨hdone, heditor, hsink⟩ := performAll_withoutNotes e sink (x e).effects
  obtain ⟨hdone', heditor', hsink'⟩ := performAll_withoutNotes e sink (y e).effects
  rw [h.outline] at hdone heditor hsink
  refine ⟨?_, heditor.trans heditor'.symm, hsink.trans hsink'.symm⟩
  show Option.map _ _ = Option.map _ _
  rw [hdone, hdone', h.value]

end Alike

end Promptline.Edit
