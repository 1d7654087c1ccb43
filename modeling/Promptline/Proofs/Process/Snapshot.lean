import Mathlib.Logic.Relation
import Promptline.Proofs.Process.Accounts
import Promptline.Proofs.Process.Ending
import Promptline.Proofs.Process.Rehearsal

set_option autoImplicit false

/-! # Waiting is on a snapshot

While somebody waits for a group, others put handles into it and take them out, remove it and fill
it anew, or stop what it holds, and processes exit. The wait is for the handles that the group held
when it began, in the order of their places, whatever happens to the group
(`waits_for_snapshot`). -/

namespace Promptline

variable {σ : Type}

/-! ## Waiters -/

/-- Somebody who waits for a group; there may have been no such group. -/
structure Waiter (σ : Type) where
  session : Session σ
  wait : Option GroupWait

namespace Waiter

/-- The wait for a group begins. -/
def start (s : Session σ) (group : UInt16) : Waiter σ :=
  { session := (s.startWait group).2, wait := (s.startWait group).1 }

/-- What the wait has come to, if it is over. -/
def result? (w : Waiter σ) : Option Int :=
  match w.wait with
  | none => some GroupWait.unknownGroupCode
  | some wait => wait.result?

/-- The waiter goes on as far as possible. -/
def poll (host : Host σ) (w : Waiter σ) : Waiter σ :=
  match w.wait with
  | none => w
  | some wait =>
    let (wait', state) := wait.poll host w.session.host
    { session := { w.session with host := state }, wait := some wait' }

/-- One thing that may happen next. -/
inductive Step (host : Host σ) (exit? : Handle → σ → Option Int) : Waiter σ → Waiter σ → Prop where
  | poll (w : Waiter σ) : Step host exit? w (w.poll host)
  /-- Somebody calls the process table. -/
  | call (w : Waiter σ) (c : ProcessTable.Call Handle) :
    Step host exit? w
      { w with session := { w.session with table := (w.session.table.answer c).2 } }
  /-- Somebody stops the processes of a group. -/
  | terminate (w : Waiter σ) (group : UInt16) :
    Step host exit? w { w with session := (w.session.terminateGroup host group).2 }
  /-- Processes go on by themselves, and some may exit. -/
  | elapse (w : Waiter σ) (state : σ) (h : Host.Later exit? w.session.host state) :
    Step host exit? w { w with session := { w.session with host := state } }

/-- What may happen in time. -/
abbrev Reaches (host : Host σ) (exit? : Handle → σ → Option Int) : Waiter σ → Waiter σ → Prop :=
  Relation.ReflTransGen (Step host exit?)

end Waiter

/-! ## What a wait has gathered -/

section Gathers

variable {host : Host σ} {exit? : Handle → σ → Option Int} {state state' : σ}
  {handles : List Handle} {wait : GroupWait}

theorem Gathers.later (h : Gathers exit? state handles wait)
    (hlater : Host.Later exit? state state') : Gathers exit? state' handles wait := by
  obtain ⟨waited, codes, hhandles, hexited, hcode⟩ := h
  exact ⟨waited, codes, hhandles, hexited.later hlater, hcode⟩

/-- A wait that is over has gathered the exit codes of all processes. -/
theorem Gathers.result (h : Gathers exit? state handles wait) {code : Int}
    (hcode : wait.result? = some code) :
    ∃ codes, ExitedWith exit? state handles codes ∧ code = firstFailure codes := by
  obtain ⟨waited, codes, rfl, hexited, hfirst⟩ := h
  unfold GroupWait.result? at hcode
  split at hcode
  · next hnothing =>
      rw [List.isEmpty_iff.1 hnothing, List.append_nil]
      exact ⟨codes, hexited, (Option.some.inj hcode).symm.trans hfirst⟩
  · cases hcode

/-- Exit codes in the order of something that the processes are listed by. -/
theorem ExitedWith.forall₂ {β : Type} {R : β → Handle → Prop} {keys : List β} {codes : List Int}
    (hkeys : List.Forall₂ R keys handles) (h : ExitedWith exit? state handles codes) :
    List.Forall₂ (fun key code => ∃ handle, R key handle ∧ exit? handle state = some code)
      keys codes := by
  unfold ExitedWith at h
  induction hkeys generalizing codes with
  | nil =>
      obtain rfl : codes = [] := List.map_eq_nil_iff.1 h.symm
      exact .nil
  | cons hkey _ ih =>
      cases codes with
      | nil => cases h
      | cons code codes =>
          obtain ⟨hcode, hrest⟩ := List.cons.inj h
          exact .cons ⟨_, hkey, hcode⟩ (ih hrest)

/-- An exit code is that of a process. -/
theorem ExitedWith.exists_of_mem {codes : List Int} (h : ExitedWith exit? state handles codes)
    {code : Int} (hcode : code ∈ codes) :
    ∃ handle ∈ handles, exit? handle state = some code := by
  have hmem : some code ∈ handles.map (exit? · state) := by
    unfold ExitedWith at h
    rw [h]
    exact List.mem_map_of_mem hcode
  obtain ⟨handle, hhandle, heq⟩ := List.mem_map.1 hmem
  exact ⟨handle, hhandle, heq⟩

/-- The first failure is one of the exit codes, unless it is none. -/
theorem firstFailure_mem {codes : List Int} (h : firstFailure codes ≠ 0) :
    firstFailure codes ∈ codes := by
  unfold firstFailure at h ⊢
  cases hfound : codes.find? (· != 0) with
  | none => rw [hfound] at h; exact absurd rfl h
  | some code => exact List.mem_of_find?_eq_some hfound

variable (hhost : host.Steady exit?)
include hhost

/-- **The wait is over** once all processes have exited. -/
theorem pollFrom_of_exited (code : Int) {pending : List Handle}
    (h : ∀ handle ∈ pending, (exit? handle state).isSome) :
    (GroupWait.pollFrom host code state pending).1.pending = [] := by
  induction pending generalizing code state with
  | nil => rfl
  | cons handle rest ih =>
      have hpoll := hhost.poll handle state
      have hanswer := hhost.answer handle state
      obtain ⟨exit, hexit⟩ := Option.isSome_iff_exists.1 (h handle List.mem_cons_self)
      rw [hpoll handle exit hexit] at hanswer
      rw [GroupWait.pollFrom]
      generalize host.poll handle state = result at hpoll hanswer ⊢
      obtain ⟨answer, state'⟩ := result
      obtain rfl : answer = some exit := hanswer
      refine ih _ fun other hother => ?_
      obtain ⟨code', hcode'⟩ :=
        Option.isSome_iff_exists.1 (h other (List.mem_cons_of_mem _ hother))
      exact Option.isSome_of_eq_some (hpoll other code' hcode')

end Gathers

/-! ## What happens meanwhile -/

namespace Waiter

section Steps

variable {host : Host σ} {exit? : Handle → σ → Option Int} {w w' : Waiter σ}
  {handles : List Handle}

/-- The wait for some processes: what it has gathered so far. -/
def WaitsFor (exit? : Handle → σ → Option Int) (handles : List Handle) (w : Waiter σ) : Prop :=
  ∃ wait, w.wait = some wait ∧ Gathers exit? w.session.host handles wait

/-- **Whatever happens**, the wait stays one for the same processes. -/
theorem WaitsFor.step (hhost : host.Steady exit?) (h : w.WaitsFor exit? handles)
    (hstep : Step host exit? w w') : w'.WaitsFor exit? handles := by
  obtain ⟨wait, hwait, hgathers⟩ := h
  cases hstep with
  | poll =>
      unfold WaitsFor Waiter.poll
      rw [hwait]
      exact ⟨_, rfl, gathers_pollFrom hhost hgathers⟩
  | call c => exact ⟨wait, hwait, hgathers⟩
  | terminate group => exact ⟨wait, hwait, hgathers.later (hhost.terminateAll _ _)⟩
  | elapse state hlater => exact ⟨wait, hwait, hgathers.later hlater⟩

theorem WaitsFor.reaches (hhost : host.Steady exit?) (h : w.WaitsFor exit? handles)
    (hreaches : Reaches host exit? w w') : w'.WaitsFor exit? handles := by
  induction hreaches with
  | refl => exact h
  | tail _ hstep ih => exact ih.step hhost hstep

/-- A wait that is over has found all processes exited. -/
theorem WaitsFor.result (h : w.WaitsFor exit? handles) {code : Int}
    (hcode : w.result? = some code) :
    ∃ codes, ExitedWith exit? w.session.host handles codes ∧ code = firstFailure codes := by
  obtain ⟨wait, hwait, hgathers⟩ := h
  rw [Waiter.result?, hwait] at hcode
  exact hgathers.result hcode

/-- A failure that a wait has come to is that of a process. -/
theorem WaitsFor.exists_of_result (h : w.WaitsFor exit? handles) {code : Int}
    (hcode : w.result? = some code) (hfailure : code ≠ 0) :
    ∃ handle ∈ handles, exit? handle w.session.host = some code := by
  obtain ⟨codes, hexited, rfl⟩ := h.result hcode
  exact hexited.exists_of_mem (firstFailure_mem hfailure)

/-- The waiter goes on to the end once all processes have exited. -/
theorem WaitsFor.result_poll (hhost : host.Steady exit?) (h : w.WaitsFor exit? handles)
    (hexited : ∀ handle ∈ handles, (exit? handle w.session.host).isSome) :
    (w.poll host).result?.isSome := by
  obtain ⟨wait, hwait, waited, codes, hhandles, -⟩ := h
  have hnothing := pollFrom_of_exited hhost wait.code fun handle hmem =>
    hexited handle (hhandles ▸ List.mem_append_right waited hmem)
  unfold Waiter.poll Waiter.result? GroupWait.poll GroupWait.result?
  rw [hwait]
  dsimp only
  rw [hnothing]
  rfl

/-- Where there was no group, there is nothing to wait for. -/
theorem wait_reaches_none (h : w.wait = none) (hreaches : Reaches host exit? w w') :
    w'.wait = none := by
  induction hreaches with
  | refl => exact h
  | tail _ hstep ih =>
      cases hstep with
      | poll => rw [Waiter.poll, ih]; exact ih
      | call c => exact ih
      | terminate group => exact ih
      | elapse state hlater => exact ih

end Steps

/-! ## The snapshot -/

section Snapshot

variable {host : Host σ} {exit? : Handle → σ → Option Int} (hhost : host.Steady exit?)
  {calls : List (ProcessTable.Call Handle)} {s : Session σ}
  (hserved : (ProcessTable.empty.serve calls).2 = s.table) (group : UInt16) {w : Waiter σ}
  (hreaches : Reaches host exit? (start s group) w)
include hhost hserved hreaches

/-- **A wait for a group is for what the group held when it began**, whatever becomes of the group
    meanwhile, and whenever which process exits.

    If there was no such group then, the answer is -1 from the start. Else there is no answer before
    all handles that the group held have exited, and there is one as soon as the waiter goes on
    behind that: the first of their exit codes that is not zero, in the order of their places, or
    zero. So the answer is -1 for no such group, unless a process exits with that code. -/
theorem waits_for_snapshot :
    (group ∉ s.table.groupIds → w.result? = some (-1)) ∧
      (group ∈ s.table.groupIds → ∃ places : List UInt16, places.Pairwise (· < ·) ∧
        (∀ index, index ∈ places ↔ ∃ handle, s.table.handle? ⟨group, index⟩ = some handle) ∧
        (∀ code, w.result? = some code → ∃ codes,
          List.Forall₂ (fun index exit => ∃ handle,
            s.table.handle? ⟨group, index⟩ = some handle ∧
              exit? handle w.session.host = some exit) places codes ∧
          code = firstFailure codes) ∧
        ((∀ index handle, s.table.handle? ⟨group, index⟩ = some handle →
          (exit? handle w.session.host).isSome) → (w.poll host).result?.isSome) ∧
        ((∀ index handle, s.table.handle? ⟨group, index⟩ = some handle →
          exit? handle w.session.host ≠ some (-1)) → w.result? ≠ some (-1))) := by
  rw [ProcessTable.mem_groupIds]
  cases hgroup : s.table.group? group with
  | none =>
      refine ⟨fun _ => ?_, fun hsome => absurd rfl hsome⟩
      have hwait : (start s group).wait = none := by
        unfold start Session.startWait ProcessTable.handles?
        rw [hgroup]
        rfl
      rw [Waiter.result?, wait_reaches_none hwait hreaches]
      rfl
  | some g =>
      have hordered : g.Ordered :=
        (hserved ▸ (ProcessTable.agrees_serve calls).ordered).group hgroup
      have hhandle : ∀ index, s.table.handle? ⟨group, index⟩ = g.handle? index := fun index => by
        rw [ProcessTable.handle?, hgroup, Option.bind_some]
      have hstart : (start s group).WaitsFor exit? g.handles := by
        unfold WaitsFor start Session.startWait ProcessTable.handles?
        rw [hgroup]
        exact ⟨_, rfl, gathers_start exit? _ _⟩
      have hwaits := hstart.reaches hhost hreaches
      simp only [hhandle]
      refine ⟨fun hnone => absurd (Option.some_ne_none g) hnone, fun _ => ⟨g.places,
        hordered.sorted_places, fun index => hordered.mem_places, fun code hcode => ?_,
        fun hexited => ?_, fun hnever hresult => ?_⟩⟩
      · obtain ⟨codes, hexited, hfirst⟩ := hwaits.result hcode
        exact ⟨codes, hexited.forall₂ hordered.forall₂_handles, hfirst⟩
      · refine hwaits.result_poll hhost fun handle hmem => ?_
        obtain ⟨index, hindex⟩ := hordered.mem_handles.1 hmem
        exact hexited index handle hindex
      · obtain ⟨handle, hmember, hcode⟩ := hwaits.exists_of_result hresult (by decide)
        obtain ⟨index, hindex⟩ := hordered.mem_handles.1 hmember
        exact hnever index handle hindex hcode

end Snapshot

/-- Three processes in one group: the second fails later than the third. -/
def threeRunning : Session Rehearsal.State where
  host := { Rehearsal.State.empty with
    actors := #[(none, .start ⟨0, some 0, 9⟩), (none, .start ⟨2, some 1, 9⟩),
      (none, .start ⟨5, some 0, 9⟩)] }
  table := (ProcessTable.empty.serve [.add 7 0, .add 7 1, .add 7 2]).2

/-- The group is removed and filled anew while the second process runs. -/
def refilled : Waiter Rehearsal.State :=
  let w := (start threeRunning 7).poll Rehearsal.host
  let table := (w.session.table.serve [.removeGroup 7, .add 7 2]).2
  { w with session := { w.session with table } }

/-- The wait goes on for the three processes, and not for the one that the group holds then. -/
theorem waits_for_snapshot_refilled :
    (refilled.poll Rehearsal.host).result? = some 2 ∧
      refilled.session.table.handles? 7 = some [2] ∧
      Reaches Rehearsal.host Rehearsal.exitCode? (start threeRunning 7)
        (refilled.poll Rehearsal.host) ∧
      ∃ places : List UInt16, places.Pairwise (· < ·) ∧ 1 ∈ places ∧ ∃ codes,
        List.Forall₂ (fun index exit => ∃ handle,
          threeRunning.table.handle? ⟨7, index⟩ = some handle ∧
            Rehearsal.exitCode? handle (refilled.poll Rehearsal.host).session.host = some exit)
          places codes ∧ 2 = firstFailure codes := by
  have hreaches : Reaches Rehearsal.host Rehearsal.exitCode? (start threeRunning 7)
      (refilled.poll Rehearsal.host) :=
    (((Relation.ReflTransGen.single (.poll _)).tail (.call _ (.removeGroup 7))).tail
      (.call _ (.add 7 2))).tail (.poll _)
  obtain ⟨-, hgroup⟩ := waits_for_snapshot Rehearsal.steady_host rfl 7 hreaches
  obtain ⟨places, hsorted, hplaces, hcodes, -⟩ := hgroup (by decide)
  exact ⟨rfl, rfl, hreaches, places, hsorted, (hplaces 1).2 ⟨1, rfl⟩, hcodes 2 rfl⟩

end Waiter

end Promptline
