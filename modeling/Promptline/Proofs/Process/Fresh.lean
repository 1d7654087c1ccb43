import Promptline.Proofs.Process.Accounts
import Promptline.Proofs.Process.Runs

set_option autoImplicit false

/-! # What a group holds when its number is handed out

A group number is handed out once. But the group may be there before that: handles are put in under
any number, handed out or not, and the number that comes next does not hang on what is there
(`newGroup_existing`). So a group is new with its number if and only if whatever was put in under
that number was taken out again as a whole (`Cleared`).

A statement that is given a group with others' processes in it takes them for its own: it waits for
them, and stops them if it fails. Of processes that it did not start it touches those and no others
(`Tenancy.touches`). -/

namespace Promptline

open Asked

/-! ## Numbers that are handed out -/

namespace ProcessTable

variable {α : Type} {account : Account α} {group : UInt16}

/-- Whatever was put in under a group number, the group was removed after that. -/
def Cleared (group : UInt16) (account : Account α) : Prop :=
  ∀ earlier handle id later, account = earlier ++ (.add group handle, .add (.ok id)) :: later →
    ∃ reply, (.removeGroup group, reply) ∈ later

/-- One more call clears a group, or leaves it cleared. -/
theorem cleared_append {entry : Call α × Reply α} :
    Cleared group (account ++ [entry]) ↔
      entry.1 = .removeGroup group ∨
        Cleared group account ∧ ∀ handle id, entry ≠ (.add group handle, .add (.ok id)) := by
  constructor
  · intro h
    by_cases hentry : entry.1 = .removeGroup group
    · exact Or.inl hentry
    refine Or.inr ⟨fun earlier handle id later hsplit => ?_, fun handle id hadd => ?_⟩
    · obtain ⟨reply, hreply⟩ := h earlier handle id (later ++ [entry]) (by simp [hsplit])
      rcases List.mem_append.1 hreply with hlater | hlast
      · exact ⟨reply, hlater⟩
      · exact absurd (congrArg Prod.fst (List.mem_singleton.1 hlast)).symm hentry
    · obtain ⟨reply, hreply⟩ := h account handle id [] (hadd ▸ rfl)
      exact absurd hreply List.not_mem_nil
  · rintro h earlier handle id later hsplit
    rcases List.eq_nil_or_concat later with rfl | ⟨later', last, rfl⟩
    · obtain ⟨-, hlast⟩ := List.append_inj' hsplit rfl
      obtain rfl := List.singleton_inj.1 hlast
      rcases h with hremoved | ⟨-, hadd⟩
      · cases hremoved
      · exact absurd rfl (hadd handle id)
    · rw [List.concat_eq_append, ← List.cons_append, ← List.append_assoc] at hsplit
      rw [List.concat_eq_append]
      obtain ⟨haccount, hlast⟩ := List.append_inj' hsplit rfl
      obtain rfl := List.singleton_inj.1 hlast
      rcases h with hremoved | ⟨hcleared, -⟩
      · exact ⟨entry.2, List.mem_append_right _ (hremoved ▸ List.mem_singleton_self _)⟩
      · obtain ⟨reply, hreply⟩ := hcleared earlier handle id later' haccount
        exact ⟨reply, List.mem_append_left _ hreply⟩

/-- **A group that was cleared** has no numbers handed out. -/
theorem handedOut_eq_nil_iff : handedOut group account = [] ↔ Cleared group account := by
  induction account using List.reverseRecOn with
  | nil => exact iff_of_true rfl fun earlier handle id later hsplit => by simp at hsplit
  | append_singleton account entry ih =>
      rw [handedOut_append, cleared_append, ← ih]
      unfold handOut
      split
      · next other handle id =>
          by_cases hother : other = group
          · subst hother
            simp
          · simp [hother]
      · next other reply =>
          by_cases hother : other = group <;> simp [hother]
      · next hadd hremove =>
          have hnoremove : entry.1 ≠ .removeGroup group := fun heq =>
            hremove group entry.2 (Prod.ext heq rfl)
          have hnoadd : ∀ handle id, entry ≠ (.add group handle, .add (.ok id)) :=
            fun handle id => hadd group handle id
          simp [hnoremove, hnoadd]

/-- **A group is there** if and only if it was not cleared. -/
theorem Agrees.notMem_groupIds {t : ProcessTable α} (h : Agrees account t) (group : UInt16) :
    group ∉ t.groupIds ↔ Cleared group account := by
  rw [← handedOut_eq_nil_iff, ← h.gone, mem_groupIds, not_not]

/-- **A number that is handed out** was not before. -/
theorem Agrees.notMem_groupsIssued {t t' : ProcessTable α} (h : Agrees account t)
    (hdue : AllDue account) (hnew : t.newGroup = .ok (group, t')) :
    group ∉ groupsIssued account := by
  intro hmem
  have hissued := List.mem_map_of_mem (f := UInt16.toNat) hmem
  rw [hdue.map_toNat_groupsIssued, List.mem_range, ← h.issuedGroups] at hissued
  unfold newGroup at hnew
  split at hnew
  · next hroom =>
      obtain ⟨rfl, -⟩ := Prod.mk.inj (Except.ok.inj hnew)
      rw [UInt16.toNat_ofNat_of_lt' hroom] at hissued
      exact Nat.lt_irrefl _ hissued
  · cases hnew

/-- **Who puts handles in only under numbers that were handed out** is given new groups. -/
theorem cleared_of_adds_issued (hnew : group ∉ groupsIssued account)
    (hadds : ∀ other handle reply, (.add other handle, reply) ∈ account →
      other ∈ groupsIssued account) : Cleared group account :=
  fun earlier handle id later hsplit =>
    absurd (hadds group handle (.add (.ok id)) (by simp [hsplit])) hnew

/-- A handle that is put in stands behind those that the group holds. -/
theorem getD_handles?_add {t t' : ProcessTable α} {handle : α} {id : ProcessId}
    (h : t.add group handle = .ok (id, t')) :
    (t'.handles? group).getD [] = (t.handles? group).getD [] ++ [handle] := by
  unfold add at h
  dsimp only at h
  split at h
  · obtain ⟨-, rfl⟩ := Prod.mk.inj (Except.ok.inj h)
    unfold handles?
    rw [group?, lookup_setGroup]
    cases t.group? group with
    | none => rfl
    | some g => simp [ProcessGroup.handles]
  · cases h

end ProcessTable

/-! ## What a statement touches -/

namespace Asked

/-- The host was asked about a process, or told to stop it. -/
def Concerns (trace : List Asked) (h : Handle) : Prop :=
  (∃ answer, poll h answer ∈ trace) ∨ terminate h ∈ trace

/-- A process was waited for to its end. -/
def AwaitedIn (trace : List Asked) (h : Handle) : Prop :=
  ∃ code, poll h (some code) ∈ trace

/-- Only processes that were started, or that are among `others`, are asked about or stopped. -/
def Confined (others : List Handle) (trace : List Asked) : Prop :=
  ∀ h, Concerns trace h → h ∈ spawned trace ∨ h ∈ others

section Traces

variable {others : List Handle} {trace more : List Asked} {h h' : Handle}

theorem concerns_append : Concerns (trace ++ more) h ↔ Concerns trace h ∨ Concerns more h := by
  unfold Concerns
  simp only [List.mem_append, exists_or]
  exact or_or_or_comm

theorem concerns_start {c : Command} {answer : Except ProcessError Handle} :
    ¬ Concerns [start c answer] h := by
  simp [Concerns]

theorem concerns_poll {answer : Option Int} : Concerns [poll h answer] h' ↔ h' = h := by
  simp [Concerns]

theorem concerns_terminate : Concerns [terminate h] h' ↔ h' = h := by
  simp [Concerns]

theorem concerns_terminateAll {handles : List Handle} :
    Concerns (handles.map .terminate) h ↔ h ∈ handles := by
  simp [Concerns]

theorem AwaitedIn.append (h : AwaitedIn trace h') (more : List Asked) :
    AwaitedIn (trace ++ more) h' := by
  obtain ⟨code, hmem⟩ := h
  exact ⟨code, List.mem_append_left more hmem⟩

theorem confined_nil (others : List Handle) : Confined others [] := by
  rintro h (⟨answer, hmem⟩ | hmem) <;> cases hmem

/-- What is asked about next was started, or is among the others. -/
theorem Confined.append (h : Confined others trace)
    (hmore : ∀ h, Concerns more h → h ∈ spawned (trace ++ more) ∨ h ∈ others) :
    Confined others (trace ++ more) := by
  intro handle hconcerns
  rcases concerns_append.1 hconcerns with hbefore | hbehind
  · rw [spawned_append]
    exact (h handle hbefore).imp_left (List.mem_append_left _)
  · exact hmore handle hbehind

theorem Confined.start (h : Confined others trace) (c : Command)
    (answer : Except ProcessError Handle) : Confined others (trace ++ [.start c answer]) :=
  h.append fun _ hconcerns => absurd hconcerns concerns_start

theorem Confined.poll (h : Confined others trace)
    (hhandle : h' ∈ spawned trace ∨ h' ∈ others) (answer : Option Int) :
    Confined others (trace ++ [.poll h' answer]) := by
  refine h.append fun handle hconcerns => ?_
  obtain rfl := concerns_poll.1 hconcerns
  rw [spawned_append]
  exact hhandle.imp_left (List.mem_append_left _)

end Traces

end Asked

section Lodging

/-! ### Lanes -/

variable {σ : Type} {host : Host σ} {group : UInt16} {others : List Handle}
  {s : Session (σ × List Asked)}

/-- A statement shares its group with `others`, which were there first. -/
structure Shares (group : UInt16) (others : List Handle) (s : Session (σ × List Asked)) :
    Prop where
  members : ∃ own, (s.table.handles? group).getD [] = others ++ own ∧
    ∀ h ∈ own, h ∈ spawned s.host.2
  confined : Confined others s.host.2

/-- The process that runs in a lane was started by the statement. -/
def Lane.Own (l : Lane) (trace : List Asked) : Prop :=
  ∀ c handle, l.running = some (c, handle) → handle ∈ spawned trace

theorem Lane.Own.later {l : Lane} {trace trace' : List Asked} (h : l.Own trace)
    (hlater : trace <+: trace') : l.Own trace' :=
  fun c handle hrunning => (hlater.filterMap _).subset (h c handle hrunning)

/-- Every member of a shared group was started, or was there first. -/
theorem Shares.of_mem (h : Shares group others s) {handle : Handle}
    (hmem : handle ∈ (s.table.handles? group).getD []) :
    handle ∈ spawned s.host.2 ∨ handle ∈ others := by
  obtain ⟨own, hmembers, hown⟩ := h.members
  rw [hmembers] at hmem
  exact (List.mem_append.1 hmem).symm.imp_left (hown handle)

theorem Shares.mem_of_others (h : Shares group others s) {handle : Handle}
    (hmem : handle ∈ others) : handle ∈ (s.table.handles? group).getD [] := by
  obtain ⟨own, hmembers, -⟩ := h.members
  rw [hmembers]
  exact List.mem_append_left _ hmem

/-- The host is asked something that concerns the statement or the others only. -/
theorem Shares.asked (h : Shares group others s) (state : σ) {more : List Asked}
    (hconfined : Confined others (s.host.2 ++ more)) :
    Shares group others { s with host := (state, s.host.2 ++ more) } where
  members := by
    obtain ⟨own, hmembers, hown⟩ := h.members
    refine ⟨own, hmembers, fun handle hmem => ?_⟩
    rw [spawned_append]
    exact List.mem_append_left _ (hown handle hmem)
  confined := hconfined

theorem Shares.note (h : Shares group others s) (r : Log.Record) :
    Shares group others (s.note r) :=
  ⟨h.members, h.confined⟩

variable (host)

theorem Shares.poll (h : Shares group others s) {handle : Handle}
    (hhandle : handle ∈ spawned s.host.2 ∨ handle ∈ others) :
    Shares group others { s with host := (host.traced.poll handle s.host).2 } :=
  h.asked _ (h.confined.poll hhandle _)

/-- **A command that is started** is one more of the statement's in the group. -/
theorem Shares.startIn (h : Shares group others s) (c : Command) :
    Shares group others (s.startIn host.traced group c).2 ∧
      ∀ handle, (s.startIn host.traced group c).1 = .ok handle →
        handle ∈ spawned (s.startIn host.traced group c).2.host.2 := by
  rcases hstart : host.start c s.table s.host.1 with ⟨e | handle, state⟩
  · rw [Session.startIn, Host.traced_start hstart]
    exact ⟨h.asked _ (h.confined.start c _), fun _ hok => by cases hok⟩
  · have hconfined := h.confined.start c (.ok handle)
    have hown : handle ∈ spawned (s.host.2 ++ [.start c (.ok handle)]) := by simp
    rw [Session.startIn, Host.traced_start hstart]
    dsimp only
    split
    · -- the process finds no place, and is stopped
      refine ⟨?_, fun _ hok => by cases hok⟩
      have hstopped : Confined others
          ((s.host.2 ++ [.start c (.ok handle)]) ++ [.terminate handle]) := by
        refine hconfined.append fun handle' hconcerns => ?_
        obtain rfl := concerns_terminate.1 hconcerns
        rw [spawned_append]
        exact Or.inl (List.mem_append_left _ hown)
      exact (h.asked state hconfined).asked _ hstopped
    · next id table hadd =>
        obtain ⟨own, hmembers, hmine⟩ := h.members
        refine ⟨⟨⟨own ++ [handle], ?_, fun handle' hmem => ?_⟩, hconfined⟩, fun handle' hok => ?_⟩
        · show (table.handles? group).getD [] = _
          rw [ProcessTable.getD_handles?_add hadd, hmembers, List.append_assoc]
        · show handle' ∈ spawned (s.host.2 ++ [.start c (.ok handle)])
          rcases List.mem_append.1 hmem with hmem | hmem
          · rw [spawned_append]
            exact List.mem_append_left _ (hmine handle' hmem)
          · exact List.mem_singleton.1 hmem ▸ hown
        · obtain rfl := Except.ok.inj hok
          exact hown

/-- A lane, as it goes on in a shared group. -/
theorem Shares.advance (h : Shares group others s) (waiting : List Command) :
    Shares group others (Lane.advance host.traced group s waiting).2 ∧
      ∀ l, (Lane.advance host.traced group s waiting).1 = .ok l →
        l.Own (Lane.advance host.traced group s waiting).2.host.2 := by
  induction waiting generalizing s with
  | nil =>
      refine ⟨h, fun l hl => ?_⟩
      obtain rfl := Except.ok.inj hl
      exact fun _ _ hrunning => by cases hrunning
  | cons c rest ih =>
      obtain ⟨hstarted, hown⟩ := h.startIn host c
      rw [Lane.advance]
      generalize s.startIn host.traced group c = result at hstarted hown ⊢
      obtain ⟨e | handle, s'⟩ := result
      · exact ⟨hstarted, fun _ hok => by cases hok⟩
      · have hmine : handle ∈ spawned s'.host.2 := hown handle rfl
        have hpolled := hstarted.poll host (Or.inl hmine)
        dsimp only
        rcases hpoll : host.poll handle s'.host.1 with ⟨_ | code, state⟩
        · rw [Host.traced_poll hpoll] at hpolled ⊢
          refine ⟨hpolled, fun l hl c' handle' hrunning => ?_⟩
          obtain rfl := Except.ok.inj hl
          obtain ⟨-, rfl⟩ := Prod.mk.inj (Option.some.inj hrunning)
          rw [spawned_append]
          exact List.mem_append_left _ hmine
        · rw [Host.traced_poll hpoll] at hpolled ⊢
          exact ih (hpolled.note _)

theorem Shares.lane (h : Shares group others s) {l : Lane} (hl : l.Own s.host.2) :
    Shares group others (l.poll host.traced group s).2 ∧
      ∀ l', (l.poll host.traced group s).1 = .ok l' →
        l'.Own (l.poll host.traced group s).2.host.2 := by
  unfold Lane.poll
  cases hrunning : l.running with
  | none => exact h.advance host l.waiting
  | some process =>
      obtain ⟨c, handle⟩ := process
      have hpolled := h.poll host (Or.inl (hl c handle hrunning))
      dsimp only
      rcases hpoll : host.poll handle s.host.1 with ⟨_ | code, state⟩
      · rw [Host.traced_poll hpoll] at hpolled ⊢
        refine ⟨hpolled, fun l' hl' => ?_⟩
        obtain rfl := Except.ok.inj hl'
        exact hl.later (List.prefix_append _ _)
      · rw [Host.traced_poll hpoll] at hpolled ⊢
        exact (hpolled.note _).advance host l.waiting

/-- **A round of lanes** in a shared group. -/
theorem Shares.lanes (h : Shares group others s) {ls : List Lane}
    (hls : ∀ l ∈ ls, l.Own s.host.2) :
    Shares group others (Lane.pollAll host.traced group s ls).2 ∧
      ∀ ls', (Lane.pollAll host.traced group s ls).1 = .ok ls' →
        ∀ l ∈ ls', l.Own (Lane.pollAll host.traced group s ls).2.host.2 := by
  induction ls generalizing s with
  | nil =>
      refine ⟨h, fun ls' hls' => ?_⟩
      obtain rfl := Except.ok.inj hls'
      exact List.forall_mem_nil _
  | cons l rest ih =>
      have hlater := (kept_trace host group).lane s l
      obtain ⟨hfirst, hown⟩ := h.lane host (hls l List.mem_cons_self)
      rw [Lane.pollAll]
      generalize l.poll host.traced group s = result at hlater hfirst hown ⊢
      obtain ⟨e | l', s'⟩ := result
      · exact ⟨hfirst, fun _ hok => by cases hok⟩
      · have hlater' := (kept_trace host group).lanes s' rest
        obtain ⟨hothers, hrest⟩ := ih hfirst fun l'' hmem =>
          (hls l'' (List.mem_cons_of_mem _ hmem)).later hlater
        dsimp only
        generalize Lane.pollAll host.traced group s' rest = result at hlater' hothers hrest ⊢
        obtain ⟨e | rest', s''⟩ := result
        · exact ⟨hothers, fun _ hok => by cases hok⟩
        · refine ⟨hothers, fun ls' hls' l'' hmem => ?_⟩
          obtain rfl := Except.ok.inj hls'
          rcases List.mem_cons.1 hmem with rfl | hmem
          · exact (hown l'' rfl).later hlater'
          · exact hrest rest' rfl l'' hmem

/-! ### Waiting -/

variable {host}

/-- Some processes are waited for, the others of the group among them, or they have been. -/
structure Awaits (others pending : List Handle) (trace : List Asked) : Prop where
  confined : Confined others trace
  known : ∀ h ∈ pending, h ∈ spawned trace ∨ h ∈ others
  awaited : ∀ h ∈ others, h ∈ pending ∨ AwaitedIn trace h

/-- **The wait goes on** with these processes and no others. -/
theorem Awaits.pollFrom {pending : List Handle} {code : Int} {state : σ × List Asked}
    (h : Awaits others pending state.2) :
    Awaits others (GroupWait.pollFrom host.traced code state pending).1.pending
      (GroupWait.pollFrom host.traced code state pending).2.2 := by
  induction pending generalizing code state with
  | nil => exact h
  | cons handle rest ih =>
      have hasked := h.confined.poll (h.known handle List.mem_cons_self)
      rw [GroupWait.pollFrom]
      rcases hpoll : host.poll handle state.1 with ⟨_ | exit, state'⟩
      · rw [Host.traced_poll hpoll]
        refine ⟨hasked _, fun h' hmem => ?_, fun h' hmem => ?_⟩
        · rw [spawned_append]
          exact (h.known h' hmem).imp_left (List.mem_append_left _)
        · exact (h.awaited h' hmem).imp_right (·.append _)
      · rw [Host.traced_poll hpoll]
        refine ih ⟨hasked _, fun h' hmem => ?_, fun h' hmem => ?_⟩
        · rw [spawned_append]
          exact (h.known h' (List.mem_cons_of_mem _ hmem)).imp_left (List.mem_append_left _)
        · rcases h.awaited h' hmem with hpending | hawaited
          · rcases List.mem_cons.1 hpending with rfl | hrest
            · exact Or.inr ⟨exit, by simp⟩
            · exact Or.inl hrest
          · exact Or.inr (hawaited.append _)

/-- A statement that fails has stopped the others of its group. -/
def StopsOthers (others : List Handle) (failure : Option ProcessError) (trace : List Asked) :
    Prop :=
  ∀ e, failure = some e → ∀ h ∈ others, terminate h ∈ trace

theorem stopsOthers_none {trace : List Asked} : StopsOthers others none trace :=
  fun e he => by cases he

theorem StopsOthers.later {failure : Option ProcessError} {trace trace' : List Asked}
    (h : StopsOthers others failure trace) (hlater : trace <+: trace') :
    StopsOthers others failure trace' :=
  fun e he handle hmem => hlater.subset (h e he handle hmem)

/-! ### Phases -/

namespace Execution

variable {x : Execution (σ × List Asked)} {failure : Option ProcessError} {size : Nat}

/-- What holds of a statement with some number of stages in a group with others, in each of its
    phases. -/
structure Lodges (others : List Handle) (size : Nat) (x : Execution (σ × List Asked)) :
    Prop where
  stages : x.stages = size
  phase : match x.phase with
    | .running lanes =>
      Shares x.group others x.session ∧ ∀ l ∈ lanes, l.Own x.session.host.2
    | .waiting wait failure =>
      Awaits others wait.pending x.session.host.2 ∧ StopsOthers others failure x.session.host.2
    | .finished answer =>
      Confined others x.session.host.2 ∧
        (size ≠ 0 → ∀ h ∈ others, AwaitedIn x.session.host.2 h) ∧
        ∀ e, answer = .error e → ∀ h ∈ others, terminate h ∈ x.session.host.2

theorem Lodges.confined (h : x.Lodges others size) : Confined others x.session.host.2 := by
  obtain ⟨-, hphase⟩ := h
  split at hphase
  · exact hphase.1.confined
  · exact hphase.1.confined
  · exact hphase.1

theorem lodges_finish (hstages : x.stages = size) (hconfined : Confined others x.session.host.2)
    (hawaited : size ≠ 0 → ∀ h ∈ others, AwaitedIn x.session.host.2 h)
    (hstopped : StopsOthers others failure x.session.host.2) (code : Int) :
    (x.finish code failure).Lodges others size := by
  unfold Execution.finish
  cases failure with
  | none => exact ⟨hstages, hconfined, hawaited, fun _ herror => by cases herror⟩
  | some e =>
      refine ⟨hstages, hconfined, hawaited, fun e' he' => ?_⟩
      obtain rfl := Except.error.inj he'
      exact hstopped e rfl

theorem lodges_pollWait (hstages : x.stages = size) {wait : GroupWait}
    (h : Awaits others wait.pending x.session.host.2)
    (hstopped : StopsOthers others failure x.session.host.2) :
    (x.pollWait host.traced wait failure).Lodges others size := by
  have hlater : x.session.host.2 <+: (wait.poll host.traced x.session.host).2.2 :=
    (kept_trace host x.group).pollFrom x.session wait.code wait.pending
  have hwait : Awaits others (wait.poll host.traced x.session.host).1.pending
      (wait.poll host.traced x.session.host).2.2 := h.pollFrom
  unfold Execution.pollWait
  generalize wait.poll host.traced x.session.host = result at hlater hwait ⊢
  obtain ⟨wait', state⟩ := result
  dsimp only at hlater hwait ⊢
  split
  · next code hresult =>
      have hnothing : wait'.pending = [] := by
        unfold GroupWait.result? at hresult
        split at hresult
        · next hempty => exact List.isEmpty_iff.1 hempty
        · cases hresult
      refine lodges_finish (x := { x with session := { x.session with host := state } }) hstages
        hwait.confined (fun _ handle hmem => ?_) (hstopped.later hlater) code
      refine (hwait.awaited handle hmem).resolve_left ?_
      rw [hnothing]
      exact List.not_mem_nil
  · exact ⟨hstages, hwait, hstopped.later hlater⟩

theorem lodges_startWait (hstages : x.stages = size) (h : Shares x.group others x.session)
    (hstopped : StopsOthers others failure x.session.host.2) :
    (x.startWait host.traced failure).Lodges others size := by
  unfold Execution.startWait Session.startWait
  cases hhandles : x.session.table.handles? x.group with
  | none =>
      refine lodges_finish (x := { x with session := x.session.note _ }) hstages h.confined
        (fun _ handle hmem => ?_) hstopped _
      have hnone := h.mem_of_others hmem
      rw [hhandles] at hnone
      cases hnone
  | some handles =>
      have hwait : Awaits others (GroupWait.start handles).pending x.session.host.2 := by
        refine ⟨h.confined, fun handle hmem => h.of_mem ?_, fun handle hmem => ?_⟩
        · rw [hhandles]
          exact hmem
        · have hsome := h.mem_of_others hmem
          rw [hhandles] at hsome
          exact Or.inl hsome
      exact lodges_pollWait (x := { x with session := x.session }) hstages hwait hstopped

theorem lodges_fail (hstages : x.stages = size) (h : Shares x.group others x.session)
    (e : ProcessError) : (x.fail host.traced e).Lodges others size := by
  have htrace := asked_terminateAll host ((x.session.table.handles? x.group).getD [])
    x.session.host
  have hconfined : Confined others (x.session.host.2 ++
      ((x.session.table.handles? x.group).getD []).map .terminate) := by
    refine h.confined.append fun handle hconcerns => ?_
    rw [spawned_append]
    exact (h.of_mem (concerns_terminateAll.1 hconcerns)).imp_left (List.mem_append_left _)
  have hshares := h.asked (host.traced.terminateAll
    ((x.session.table.handles? x.group).getD []) x.session.host).1 hconfined
  rw [← htrace] at hshares
  refine lodges_startWait hstages ((hshares.note _).note _) fun e' _ handle hmem => ?_
  show terminate handle ∈ (host.traced.terminateAll ((x.session.table.handles? x.group).getD [])
    x.session.host).2
  rw [htrace]
  exact List.mem_append_right _ (List.mem_map_of_mem (h.mem_of_others hmem))

/-- **Each round** leaves a statement in its group as it should be there. -/
theorem lodges_poll (h : x.Lodges others size) : (x.poll host.traced).Lodges others size := by
  obtain ⟨hstages, hphase⟩ := h
  unfold Execution.poll
  cases hx : x.phase with
  | finished answer =>
      exact ⟨hstages, hphase⟩
  | waiting wait failure =>
      rw [hx] at hphase
      exact lodges_pollWait hstages hphase.1 hphase.2
  | running ls =>
      rw [hx] at hphase
      obtain ⟨hshares, hown⟩ := hphase.1.lanes host hphase.2
      dsimp only
      generalize Lane.pollAll host.traced x.group x.session ls = result at hshares hown ⊢
      obtain ⟨e | ls', s'⟩ := result
      · exact lodges_fail (x := { x with session := s', phase := .running ls }) hstages hshares e
      · dsimp only
        split
        · split
          · next hnothing =>
              exact lodges_finish (x := { x with session := s', phase := .running ls }) hstages
                hshares.confined (fun hsize => absurd (hstages.symm.trans hnothing) hsize)
                stopsOthers_none 0
          · exact lodges_startWait (x := { x with session := s', phase := .running ls }) hstages
              hshares stopsOthers_none
        · exact ⟨hstages, hshares, hown ls' rfl⟩

/-- The group of a statement is the one whose number is handed out for it. -/
theorem newGroup_of_begin {s : Session σ} {statement : Statement} {x : Execution σ}
    (h : (s.begin statement).1 = .ok x) : ∃ table, s.table.newGroup = .ok (x.group, table) := by
  unfold Session.begin at h
  dsimp only at h
  split at h
  · cases h
  · next group table hgroup =>
      obtain rfl := Except.ok.inj h
      exact ⟨table, hgroup⟩

/-- A statement begins in its group with whatever is there. -/
theorem lodges_begin {statement : Statement} (h : (s.begin statement).1 = .ok x)
    (huntraced : s.host.2 = []) :
    x.Lodges ((s.table.handles? x.group).getD []) statement.size := by
  obtain ⟨hhost, hgroups, hstages, hphase⟩ := begin_ok h
  have hhandles : x.session.table.handles? x.group = s.table.handles? x.group := by
    unfold ProcessTable.handles? ProcessTable.group?
    rw [hgroups]
  refine ⟨hstages, ?_⟩
  rw [hphase]
  refine ⟨⟨⟨[], ?_, List.forall_mem_nil _⟩, ?_⟩, fun l hl => ?_⟩
  · rw [hhandles, List.append_nil]
  · rw [hhost, huntraced]
    exact confined_nil _
  · obtain ⟨commands, -, rfl⟩ := List.mem_map.1 hl
    exact fun _ _ hrunning => by cases hrunning

/-- **Between rounds** the others stay in the group. -/
theorem Lodges.elapsed {exit? : Handle → σ → Option Int} {y : Execution (σ × List Asked)}
    (h : x.Lodges others size) (helapsed : Elapsed exit? x y) : y.Lodges others size := by
  obtain ⟨session, group, stages, phase⟩ := y
  obtain ⟨rfl, rfl, rfl, htrace, hmembers, -⟩ := helapsed
  obtain ⟨hstages, hphase⟩ := h
  refine ⟨hstages, ?_⟩
  dsimp only at htrace hmembers ⊢
  rw [htrace]
  split at hphase
  · obtain ⟨⟨⟨own, hown, hmine⟩, hconfined⟩, hlanes⟩ := hphase
    refine ⟨⟨⟨own, ?_, htrace ▸ hmine⟩, htrace ▸ hconfined⟩, hlanes⟩
    rw [← hown]
    unfold ProcessTable.handles?
    rw [hmembers]
  · exact hphase
  · exact hphase

end Execution

end Lodging

/-! ## Statements in groups with others -/

variable {σ : Type} {host : Host σ}

/-- A run of a statement in the group that it is given, whatever that holds. -/
structure Tenancy (host : Host σ) (exit? : Handle → σ → Option Int) (statement : Statement) where
  start : Session (σ × List Asked)
  state : Nat → Execution (σ × List Asked)
  begins : (start.begin statement).1 = .ok (state 0)
  untraced : start.host.2 = []
  round : ∀ n, ∃ x, Elapsed exit? (state n) x ∧ state (n + 1) = x.poll host.traced

namespace Tenancy

variable {exit? : Handle → σ → Option Int} {statement : Statement}
  (run : Tenancy host exit? statement)

/-- What the host was asked before a round. -/
def trace (n : Nat) : List Asked :=
  (run.state n).session.host.2

/-- The group of the statement. -/
def group : UInt16 :=
  (run.state 0).group

/-- What the group held when its number was handed out. -/
def others : List Handle :=
  (run.start.table.handles? run.group).getD []

/-- **In every round** a statement lodges with the others. -/
theorem lodges (n : Nat) : (run.state n).Lodges run.others statement.size := by
  induction n with
  | zero => exact Execution.lodges_begin run.begins run.untraced
  | succ n ih =>
      obtain ⟨x, helapsed, hstate⟩ := run.round n
      rw [hstate]
      exact Execution.lodges_poll (ih.elapsed helapsed)

/-- **When a statement ends that has commands**, it has waited for all others in its group, and it
    has stopped them if it failed. -/
theorem touches_of_answer {n : Nat} {answer : Except ProcessError Int}
    (hanswer : (run.state n).answer? = some answer) (hsize : statement.size ≠ 0) {h : Handle}
    (hother : h ∈ run.others) :
    AwaitedIn (run.trace n) h ∧ ∀ e, answer = .error e → terminate h ∈ run.trace n := by
  obtain ⟨-, hphase⟩ := run.lodges n
  unfold Execution.answer? at hanswer
  split at hanswer
  · next answer' hfinished =>
      obtain rfl := Option.some.inj hanswer
      rw [hfinished] at hphase
      exact ⟨hphase.2.1 hsize h hother, fun e he => hphase.2.2 e he h hother⟩
  · cases hanswer

theorem round_pollTimes (host : Host σ) (exit? : Handle → σ → Option Int)
    (x : Execution (σ × List Asked)) (n : Nat) :
    ∃ y, Elapsed exit? (x.pollTimes host.traced n) y ∧
      x.pollTimes host.traced (n + 1) = y.poll host.traced :=
  ⟨_, .refl exit? _, x.pollTimes_succ host.traced n⟩

/-- A tenancy while nothing else happens. -/
def alone (host : Host σ) (exit? : Handle → σ → Option Int) {statement : Statement}
    {s : Session (σ × List Asked)} {x : Execution (σ × List Asked)}
    (hbegins : (s.begin statement).1 = .ok x) (huntraced : s.host.2 = []) :
    Tenancy host exit? statement where
  start := s
  state := x.pollTimes host.traced
  begins := hbegins
  untraced := huntraced
  round := round_pollTimes host exit? x

end Tenancy

/-! ## New groups -/

/-- **When a group is new with its number**, and what it means for a statement if it is not,
    whatever the process table was asked for before.

    A number that is handed out was not handed out before. The group is not there yet if and only if
    it was removed after whatever was put in under that number; so it is new to those who put
    handles in only under numbers that were handed out.

    Of the processes that it did not start, a statement in that group asks about, waits for or stops
    those that the group held when the number was handed out, and no others. It waits for every one
    of them before it ends, if it has commands, and if a command cannot be started, it stops them.
    So it keeps to its own processes if the group was new. -/
theorem newGroup_exact (calls : List (ProcessTable.Call Handle)) {group : UInt16}
    {t' : ProcessTable Handle}
    (hnew : ((ProcessTable.empty : ProcessTable Handle).serve calls).2.newGroup =
      .ok (group, t')) :
    let account := ((ProcessTable.empty : ProcessTable Handle).serve calls).1
    let t := ((ProcessTable.empty : ProcessTable Handle).serve calls).2
    group ∉ ProcessTable.groupsIssued account ∧
      (group ∉ t.groupIds ↔ ProcessTable.Cleared group account) ∧
      ((∀ other handle reply, (.add other handle, reply) ∈ account →
        other ∈ ProcessTable.groupsIssued account) → group ∉ t.groupIds) ∧
      ∀ {σ : Type} {host : Host σ} {exit? : Handle → σ → Option Int} {statement : Statement}
        (run : Tenancy host exit? statement), run.start.table = t →
          run.group = group ∧
          (∀ n h, Concerns (run.trace n) h →
            h ∈ spawned (run.trace n) ∨ h ∈ (t.handles? group).getD []) ∧
          (∀ n answer, (run.state n).answer? = some answer → statement.size ≠ 0 →
            ∀ h ∈ (t.handles? group).getD [], AwaitedIn (run.trace n) h ∧
              ∀ e, answer = .error e → terminate h ∈ run.trace n) ∧
          (group ∉ t.groupIds → ∀ n h, Concerns (run.trace n) h → h ∈ spawned (run.trace n)) := by
  intro account t
  obtain ⟨hagrees, hdue⟩ := ProcessTable.agrees_empty.serve ProcessTable.allDue_nil calls
  have hissuedOnce := hagrees.notMem_groupsIssued hdue hnew
  refine ⟨hissuedOnce, hagrees.notMem_groupIds group, fun hadds => ?_, ?_⟩
  · exact (hagrees.notMem_groupIds group).2 (ProcessTable.cleared_of_adds_issued hissuedOnce hadds)
  rintro σ host exit? statement run htable
  obtain ⟨table, hissued⟩ := Execution.newGroup_of_begin run.begins
  have hgroup : run.group = group := by
    rw [htable, hnew] at hissued
    exact (Prod.mk.inj (Except.ok.inj hissued)).1.symm
  have hothers : run.others = (t.handles? group).getD [] := by
    unfold Tenancy.others
    rw [htable, hgroup]
  refine ⟨hgroup, fun n h hconcerns => ?_, fun n answer hanswer hsize h hother => ?_,
    fun habsent n h hconcerns => ?_⟩
  · rw [← hothers]
    exact (run.lodges n).confined h hconcerns
  · exact run.touches_of_answer hanswer hsize (hothers ▸ hother)
  · refine ((run.lodges n).confined h hconcerns).resolve_right ?_
    rw [ProcessTable.mem_groupIds, not_not] at habsent
    rw [hothers, ProcessTable.handles?, habsent]
    exact List.not_mem_nil

/-- A command that exits with zero, in a group where somebody's process exits with three. -/
def visit : Tenancy Rehearsal.host Rehearsal.exitCode? (.command ⟨.shell "a", {}, none⟩) :=
  .alone Rehearsal.host Rehearsal.exitCode?
    (s := ⟨({ Rehearsal.State.empty with
        actors := #[(none, .start ⟨3, some 0, 9⟩)], plans := [.run ⟨0, some 0, 9⟩] }, []),
      ((ProcessTable.empty : ProcessTable Handle).serve [.add 0 0]).2, []⟩)
    rfl rfl

/-- It waits for that process, and answers what that one exits with. -/
theorem newGroup_exact_visit :
    visit.group = 0 ∧ visit.start.table.groupIds = [0] ∧ spawned (visit.trace 1) = [1] ∧
      AwaitedIn (visit.trace 1) 0 ∧ (visit.state 1).answer? = some (.ok 3) := by
  obtain ⟨-, -, -, htenancies⟩ := @newGroup_exact [.add 0 0] 0 _ rfl
  obtain ⟨hgroup, -, htouches, -⟩ := htenancies visit rfl
  have hawaited := (htouches 1 (.ok 3) rfl (by decide) 0 (by decide)).1
  exact ⟨hgroup, rfl, rfl, hawaited, rfl⟩

/-- The group with the number that is handed out first may be there before that. -/
theorem newGroup_existing : ¬ ∀ (calls : List (ProcessTable.Call Handle)) (group : UInt16)
    (t' : ProcessTable Handle),
    ((ProcessTable.empty : ProcessTable Handle).serve calls).2.newGroup = .ok (group, t') →
      group ∉ ((ProcessTable.empty : ProcessTable Handle).serve calls).2.groupIds := by
  intro h
  exact h [.add 0 7] 0 _ rfl (by decide)

end Promptline
