import Promptline.Proofs.Editor.Effects

set_option autoImplicit false

/-! # What holds wherever an edit stops

An edit that is performed stops at the first write that fails, and leaves the editor that it saved
last. So a claim about every run is one about every editor that the edit saves on the way
(`passes_run`). Such claims are made by triples: from an editor for which `P` holds, all that is
saved on the way satisfies `I`, and what the edit leaves if no write fails satisfies `Q`. Triples
are put together along the edit (`Triple.bind`). -/

namespace Promptline.Edit

open Terminal

variable {α β : Type}

/-- The editors at which an edit may stop: the one that it started with, and all that it saves. -/
def Passes (x : Edit α) (e e' : Editor) : Prop :=
  e' = e ∨ .save e' ∈ (x e).effects

theorem performAll_passes (e : Editor) (sink : Sink) (effects : List Effect) :
    (performAll e sink effects).editor = e ∨
      .save (performAll e sink effects).editor ∈ effects := by
  induction effects generalizing e sink with
  | nil => exact Or.inl rfl
  | cons x rest ih =>
      have hwrite : ∀ e sink, (performAll e sink rest).editor = e ∨
          .save (performAll e sink rest).editor ∈ x :: rest := by
        intro e sink
        rcases ih e sink with h | h
        · exact Or.inl h
        · exact Or.inr (List.mem_cons_of_mem _ h)
      cases x with
      | save e' =>
          rcases ih e' sink with h | h
          · refine Or.inr ?_
            rw [performAll, h]
            exact List.mem_cons_self
          · exact Or.inr (List.mem_cons_of_mem _ h)
      | note r => exact hwrite e sink
      | print s =>
          simp only [performAll]
          split
          · exact Or.inl rfl
          · next sink' _ => exact hwrite e sink'
      | control event =>
          simp only [performAll]
          split
          · exact Or.inl rfl
          · next sink' _ => exact hwrite e sink'

/-- Wherever the writes to a terminal fail, the edit leaves an editor at which it may stop. -/
theorem passes_run (x : Edit α) (e : Editor) (sink : Sink) : x.Passes e (x.run e sink).editor :=
  performAll_passes e sink (x e).effects

theorem passes_editor (x : Edit α) [Sound x] (e : Editor) : x.Passes e (x e).editor := by
  rw [← run_working_editor x e]
  exact passes_run x e .working

/-- One edit and the next stop where the first does, or where the next does behind it. -/
theorem Passes.of_bind {x : Edit α} {f : α → Edit β} {e e' : Editor} (h : (x >>= f).Passes e e') :
    x.Passes e e' ∨ (f (x e).value).Passes (x e).editor e' := by
  rcases h with rfl | hsave
  · exact .inl (.inl rfl)
  · exact (List.mem_append.1 hsave).imp .inr .inr

/-- What is made of the value plays no part. -/
theorem passes_bind_pure {x : Edit α} {g : α → β} {e e' : Editor} :
    (x >>= fun a => pure (g a)).Passes e e' ↔ x.Passes e e' := by
  have heffects : ((x >>= fun a => pure (g a)) e).effects = (x e).effects := List.append_nil _
  rw [Passes, Passes, heffects]

/-! ## Triples -/

/-- From an editor for which `P` holds, an edit saves only editors for which `I` holds, and leaves
    one for which `Q` holds if no write fails. -/
def Triple (I P Q : Editor → Prop) (x : Edit α) : Prop :=
  ∀ e, P e → (∀ e', .save e' ∈ (x e).effects → I e') ∧ Q (x e).editor

section Triples

variable {I P Q R : Editor → Prop} {x : Edit α} {e e' : Editor}

theorem Triple.passes (h : Triple I P Q x) (hP : P e) (hI : I e) (hpass : x.Passes e e') :
    I e' := by
  rcases hpass with rfl | hsave
  · exact hI
  · exact (h e hP).1 e' hsave

/-- More may be asked of the start, and less said of the rest. -/
theorem Triple.weaken (h : Triple I P Q x) {I' P' Q' : Editor → Prop} (hI : ∀ e, I e → I' e)
    (hP : ∀ e, P' e → P e) (hQ : ∀ e, Q e → Q' e) : Triple I' P' Q' x := by
  intro e he
  obtain ⟨hsaves, hleft⟩ := h e (hP e he)
  exact ⟨fun e' hsave => hI e' (hsaves e' hsave), hQ _ hleft⟩

theorem Triple.pure (a : α) : Triple I P P (pure a : Edit α) := by
  intro e he
  exact ⟨fun e' h => absurd h List.not_mem_nil, he⟩

/-- One edit and the next, of which only what the first may yield is known. -/
theorem Triple.bind_of_value (hx : Triple I P R x) {V : α → Prop} (hV : ∀ e, V (x e).value)
    {f : α → Edit β} (hf : ∀ a, V a → Triple I R Q (f a)) : Triple I P Q (x >>= f) := by
  intro e he
  obtain ⟨hfirst, hmiddle⟩ := hx e he
  obtain ⟨hsecond, hleft⟩ := hf (x e).value (hV e) (x e).editor hmiddle
  refine ⟨fun e' hsave => ?_, hleft⟩
  rcases List.mem_append.1 hsave with h | h
  · exact hfirst e' h
  · exact hsecond e' h

theorem Triple.bind (hx : Triple I P R x) {f : α → Edit β} (hf : ∀ a, Triple I R Q (f a)) :
    Triple I P Q (x >>= f) :=
  hx.bind_of_value (V := fun _ => True) (fun _ => trivial) fun a _ => hf a

/-- What an edit makes of the editor that it looks at, which is the one that it starts from. -/
theorem Triple.current_bind {f : Editor → Edit β} (h : ∀ e, P e → Triple I (· = e) Q (f e)) :
    Triple I P Q (current >>= f) := by
  intro e he
  exact h e he e rfl

theorem Triple.update {f : Editor → Editor} (h : ∀ e, P e → I (f e) ∧ Q (f e)) :
    Triple I P Q (update f) := by
  intro e he
  obtain ⟨hI, hQ⟩ := h e he
  refine ⟨fun e' hsave => ?_, hQ⟩
  obtain rfl := Effect.save.inj (List.mem_singleton.1 hsave)
  exact hI

theorem Triple.ite {p : Prop} [Decidable p] {y : Edit α} (hx : p → Triple I P Q x)
    (hy : ¬ p → Triple I P Q y) : Triple I P Q (if p then x else y) := by
  split
  · next h => exact hx h
  · next h => exact hy h

end Triples

/-! ## Edits that only write -/

/-- An edit that leaves the editor as it is, at whatever write it stops. -/
class Writes (x : Edit α) : Prop where
  editor : ∀ e, (x e).editor = e
  saves : ∀ e e', .save e' ∉ (x e).effects

section Writes

theorem Triple.writes {I P : Editor → Prop} (x : Edit α) [hx : Writes x] : Triple I P P x := by
  intro e he
  refine ⟨fun e' hsave => absurd hsave (hx.saves e e'), ?_⟩
  rw [hx.editor]
  exact he

instance (a : α) : Writes (pure a : Edit α) where
  editor _ := rfl
  saves _ _ := List.not_mem_nil

theorem Writes.bind {x : Edit α} {f : α → Edit β} (hx : Writes x) (hf : ∀ a, Writes (f a)) :
    Writes (x >>= f) where
  editor e := by rw [editor_bind, (hf _).editor, hx.editor]
  saves e e' h := by
    rcases List.mem_append.1 h with h | h
    · exact hx.saves e e' h
    · exact (hf _).saves _ e' h

instance (x : Edit α) (f : α → Edit β) [hx : Writes x] [hf : ∀ a, Writes (f a)] :
    Writes (x >>= f) :=
  hx.bind hf

instance : Writes current where
  editor _ := rfl
  saves _ _ := List.not_mem_nil

instance (s : List Char) : Writes (print s) where
  editor _ := rfl
  saves _ _ h := nomatch List.mem_singleton.1 h

instance (event : Event) : Writes (control event) where
  editor _ := rfl
  saves _ _ h := nomatch List.mem_singleton.1 h

instance (r : Log.Record) : Writes (note r) where
  editor _ := rfl
  saves _ _ h := nomatch List.mem_singleton.1 h

instance (p : Prop) [Decidable p] (x y : Edit α) [Writes x] [Writes y] :
    Writes (if p then x else y) := by
  split <;> assumption

theorem Writes.all {xs : List (Edit Unit)} (h : ∀ x ∈ xs, Writes x) : Writes (Edit.all xs) := by
  induction xs with
  | nil => exact inferInstanceAs (Writes (pure ()))
  | cons x rest ih =>
      have hx : Writes x := h x List.mem_cons_self
      have hrest : Writes (Edit.all rest) := ih fun y hy => h y (List.mem_cons_of_mem _ hy)
      exact inferInstanceAs (Writes (x >>= fun _ => Edit.all rest))

instance {γ : Type} (f : γ → Edit Unit) (xs : List γ) [hf : ∀ c, Writes (f c)] :
    Writes (all (xs.map f)) :=
  Writes.all fun x hx => by
    obtain ⟨c, _, rfl⟩ := List.mem_map.1 hx
    exact hf c

instance (n : Nat) (x : Edit Unit) [hx : Writes x] : Writes (all (List.replicate n x)) :=
  Writes.all fun _ hy => (List.eq_of_mem_replicate hy) ▸ hx

end Writes

end Promptline.Edit
