import Promptline.Proofs.Process.Table
import Promptline.Proofs.Process.Trace

set_option autoImplicit false

/-! # What rounds keep

A round of a statement is made of a few calls: commands are started in the group of the statement,
its processes are asked for and stopped, records are written, and at last the group is taken out of
the table. What relates a session before each of these calls to the session behind it relates it to
the session behind the round (`Kept.round`).

Three relations are such: processes that have exited stay so (`kept_later`), the trace only grows
(`kept_trace`), and other groups are left alone (`kept_others`). -/

namespace Promptline

variable {σ : Type}

/-- A relation that holds between the sessions before and behind each call of a round. -/
structure Kept (host : Host σ) (group : UInt16) (R : Session σ → Session σ → Prop) : Prop where
  refl : ∀ s, R s s
  trans : ∀ {s s' s''}, R s s' → R s' s'' → R s s''
  startIn : ∀ s c, R s (s.startIn host group c).2
  poll : ∀ s h, R s { s with host := (host.poll h s.host).2 }
  terminate : ∀ s h, R s { s with host := host.terminate h s.host }
  note : ∀ s r, R s (s.note r)
  removeGroup : ∀ s, R s (s.removeGroup group)

namespace Kept

/-! ## Lanes -/

section Lanes

variable {host : Host σ} {group : UInt16} {R : Session σ → Session σ → Prop}
  (hR : Kept host group R) (s : Session σ)
include hR

/-- Starting commands one after another: one call for each start, and one to ask for the process. -/
theorem advance (waiting : List Command) : R s (Lane.advance host group s waiting).2 := by
  induction waiting generalizing s with
  | nil => exact hR.refl s
  | cons c rest ih =>
      have hstart := hR.startIn s c
      rw [Lane.advance]
      generalize s.startIn host group c = result at hstart ⊢
      obtain ⟨_ | handle, s'⟩ := result
      · exact hstart
      · have hpoll := hR.trans hstart (hR.poll s' handle)
        dsimp only
        generalize host.poll handle s'.host = result at hpoll ⊢
        obtain ⟨_ | code, state⟩ := result
        · exact hpoll
        · exact hR.trans (hR.trans hpoll (hR.note _ _)) (ih _)

theorem lane (l : Lane) : R s (l.poll host group s).2 := by
  unfold Lane.poll
  cases l.running with
  | none => exact hR.advance s l.waiting
  | some process =>
      have hpoll := hR.poll s process.2
      dsimp only
      generalize host.poll process.2 s.host = result at hpoll ⊢
      obtain ⟨_ | code, state⟩ := result
      · exact hpoll
      · exact hR.trans (hR.trans hpoll (hR.note _ _)) (hR.advance _ l.waiting)

theorem lanes (ls : List Lane) : R s (Lane.pollAll host group s ls).2 := by
  induction ls generalizing s with
  | nil => exact hR.refl s
  | cons l rest ih =>
      have hfirst := hR.lane s l
      rw [Lane.pollAll]
      generalize l.poll host group s = result at hfirst ⊢
      obtain ⟨_ | l', s'⟩ := result
      · exact hfirst
      · have hothers := hR.trans hfirst (ih s')
        dsimp only
        generalize Lane.pollAll host group s' rest = result at hothers ⊢
        obtain ⟨_ | rest', s''⟩ := result
        · exact hothers
        · exact hothers

theorem pollFrom (code : Int) (pending : List Handle) :
    R s { s with host := (GroupWait.pollFrom host code s.host pending).2 } := by
  induction pending generalizing s code with
  | nil => exact hR.refl s
  | cons handle rest ih =>
      have hpoll := hR.poll s handle
      rw [GroupWait.pollFrom]
      generalize host.poll handle s.host = result at hpoll ⊢
      obtain ⟨_ | exit, state⟩ := result
      · exact hpoll
      · exact hR.trans hpoll (ih { s with host := state } (GroupWait.combine code exit))

theorem terminateAll (handles : List Handle) :
    R s { s with host := host.terminateAll handles s.host } := by
  induction handles generalizing s with
  | nil => exact hR.refl s
  | cons handle rest ih =>
      exact hR.trans (hR.terminate s handle) (ih { s with host := host.terminate handle s.host })

end Lanes

/-! ## Statements -/

section Statements

variable {host : Host σ} {x : Execution σ} {R : Session σ → Session σ → Prop}
  (hR : Kept host x.group R) {s s' : Session σ} (h : R s s')
include hR h

theorem finish (code : Int) (failure : Option ProcessError) :
    R s ({ x with session := s' }.finish code failure).session := by
  have hremoved := hR.trans h (hR.removeGroup s')
  cases failure with
  | none => exact hR.trans hremoved (hR.note _ _)
  | some e => exact hremoved

theorem pollWait (wait : GroupWait) (failure : Option ProcessError) :
    R s ({ x with session := s' }.pollWait host wait failure).session := by
  have hwait := hR.trans h (hR.pollFrom s' wait.code wait.pending)
  unfold Execution.pollWait GroupWait.poll
  dsimp only
  generalize GroupWait.pollFrom host wait.code s'.host wait.pending = result at hwait ⊢
  obtain ⟨wait', state⟩ := result
  dsimp only
  split
  · exact hR.finish hwait _ failure
  · exact hwait

theorem startWait (failure : Option ProcessError) :
    R s ({ x with session := s' }.startWait host failure).session := by
  unfold Execution.startWait Session.startWait
  dsimp only
  cases s'.table.handles? x.group with
  | none => exact hR.finish (hR.trans h (hR.note s' (GroupWait.unknownNote x.group))) _ failure
  | some handles => exact hR.pollWait h (.start handles) failure

theorem fail (e : ProcessError) : R s ({ x with session := s' }.fail host e).session := by
  have hnoted := hR.trans h (hR.note s' (x.failNote e))
  have hstopped := hR.trans hnoted
    (hR.terminateAll _ ((s'.table.handles? x.group).getD []))
  exact hR.startWait (hR.trans hstopped (hR.note _ _)) (some e)

omit h in
/-- What a round does behind its lanes. -/
theorem behind_lanes {ls : List Lane} (hx : x.phase = .running ls) :
    R (Lane.pollAll host x.group x.session ls).2 (x.poll host).session := by
  unfold Execution.poll
  rw [hx]
  dsimp only
  generalize Lane.pollAll host x.group x.session ls = result
  obtain ⟨e | ls', s'⟩ := result
  · exact hR.fail (hR.refl s') e
  · dsimp only
    split
    · split
      · exact hR.finish (hR.refl s') 0 none
      · exact hR.startWait (hR.refl s') none
    · exact hR.refl s'

omit h in
/-- **What each call keeps, a round keeps.** -/
theorem round : R x.session (x.poll host).session := by
  have hself := hR.refl x.session
  cases hx : x.phase with
  | finished answer =>
      unfold Execution.poll
      rw [hx]
      exact hself
  | waiting wait failure =>
      unfold Execution.poll
      rw [hx]
      exact hR.pollWait hself wait failure
  | running ls => exact hR.trans (hR.lanes x.session ls) (hR.behind_lanes hx)

end Statements

end Kept

/-! ## What is kept

Each of these relations is checked call by call. Only starting a command has cases: the host may
refuse, and the process that it starts may find no place in the group. -/

/-- **Processes that have exited stay so.** -/
theorem kept_later {host : Host σ} {exit? : Handle → σ → Option Int} (hhost : host.Steady exit?)
    (group : UInt16) : Kept host group fun s s' => Host.Later exit? s.host s'.host where
  refl _ := .refl _
  trans := .trans
  startIn s c := by
    have hstart := hhost.start c s.table s.host
    unfold Session.startIn
    generalize host.start c s.table s.host = result at hstart ⊢
    obtain ⟨_ | handle, state⟩ := result
    · exact hstart
    · dsimp only
      split
      · exact hstart.trans (hhost.terminate handle state)
      · exact hstart
  poll s h := hhost.poll h s.host
  terminate s h := hhost.terminate h s.host
  note _ _ := .refl _
  removeGroup _ := .refl _

/-- **The trace only grows.** -/
theorem kept_trace (host : Host σ) (group : UInt16) :
    Kept host.traced group fun s s' => s.host.2 <+: s'.host.2 where
  refl _ := List.prefix_rfl
  trans := List.IsPrefix.trans
  startIn s c := by
    rcases hstart : host.start c s.table s.host.1 with ⟨_ | handle, state⟩
    · rw [Session.startIn, Host.traced_start hstart]
      exact List.prefix_append _ _
    · rw [Session.startIn, Host.traced_start hstart]
      dsimp only
      split
      · exact (List.prefix_append _ _).trans (List.prefix_append _ _)
      · exact List.prefix_append _ _
  poll _ _ := List.prefix_append _ _
  terminate _ _ := List.prefix_append _ _
  note _ _ := List.prefix_rfl
  removeGroup _ := List.prefix_rfl

/-- **Other groups are left alone.** -/
theorem kept_others (host : Host σ) {group other : UInt16} (hother : other ≠ group) :
    Kept host group fun s s' => s'.table.group? other = s.table.group? other where
  refl _ := rfl
  trans h h' := h'.trans h
  startIn s c := by
    unfold Session.startIn
    split
    · rfl
    · split
      · rfl
      · next id table hadd => exact ProcessTable.group?_add_of_ne hadd hother
  poll _ _ := rfl
  terminate _ _ := rfl
  note _ _ := rfl
  removeGroup s := ProcessTable.group?_removeGroup_of_ne s.table hother

end Promptline
