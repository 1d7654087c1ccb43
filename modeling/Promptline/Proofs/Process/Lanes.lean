import Mathlib.Algebra.GroupWithZero.Nat
import Promptline.Proofs.Process.Order
import Promptline.Proofs.Process.Rounds

set_option autoImplicit false

/-! # What a round of lanes comes to

Polling lanes keeps them under way, with every process that was started in the group, up to the
first command that cannot be started (`leads_pollAll`). Nothing is started behind that one.

A lane that does not go on in a round waits for a process that had not exited when the round began
(`rank_pollAll`). So lanes whose processes exit come to their end. -/

namespace Promptline

open Asked

variable {σ α : Type}

/-! ## Going on -/

/-- A command that could be started was started by the host. -/
theorem Session.startIn_ok {calls : Host σ} {group : UInt16} {s s' : Session σ} {c : Command}
    {handle : Handle} (h : s.startIn calls group c = (.ok handle, s')) :
    calls.start c s.table s.host = (.ok handle, s'.host) := by
  unfold Session.startIn at h
  rcases hstart : calls.start c s.table s.host with ⟨_ | handle', state⟩
  · rw [hstart] at h
    cases h
  · rw [hstart] at h
    dsimp only at h
    split at h
    · cases h
    · obtain ⟨hhandle, rfl⟩ := Prod.mk.inj h
      exact Prod.ext hhandle rfl

namespace Lane

section Ok

variable {calls : Host σ} {group : UInt16} {s s' : Session σ} {lane : Lane} {c : Command}
  {rest : List Command}

/-- What a lane does that can start its commands: it starts the next one, whose process runs still,
    or has exited, so that the lane goes on. -/
theorem advance_cons_ok (h : advance calls group s (c :: rest) = (.ok lane, s')) :
    ∃ handle s₁, s.startIn calls group c = (.ok handle, s₁) ∧
      ((∃ state, calls.poll handle s₁.host = (none, state) ∧
          lane = ⟨some (c, handle), rest⟩ ∧ s' = { s₁ with host := state }) ∨
        ∃ code state, calls.poll handle s₁.host = (some code, state) ∧
          advance calls group (({ s₁ with host := state }).note (exitNote c code)) rest =
            (.ok lane, s')) := by
  rw [advance] at h
  rcases hstart : s.startIn calls group c with ⟨_ | handle, s₁⟩
  · rw [hstart] at h
    cases h
  · rw [hstart] at h
    dsimp only at h
    refine ⟨handle, s₁, rfl, ?_⟩
    rcases hpoll : calls.poll handle s₁.host with ⟨_ | code, state⟩
    · rw [hpoll] at h
      obtain ⟨hlane, hs⟩ := Prod.mk.inj h
      exact Or.inl ⟨state, rfl, (Except.ok.inj hlane).symm, hs.symm⟩
    · rw [hpoll] at h
      exact Or.inr ⟨code, state, rfl, h⟩

/-- A round in which everything can be started: the first lane has its turn, then the others. -/
theorem pollAll_cons_ok {l : Lane} {others lanes : List Lane}
    (h : pollAll calls group s (l :: others) = (.ok lanes, s')) :
    ∃ l' s₁ others', l.poll calls group s = (.ok l', s₁) ∧
      pollAll calls group s₁ others = (.ok others', s') ∧ lanes = l' :: others' := by
  rw [pollAll] at h
  rcases hfirst : l.poll calls group s with ⟨_ | l', s₁⟩
  · rw [hfirst] at h
    cases h
  · rw [hfirst] at h
    dsimp only at h
    rcases hothers : pollAll calls group s₁ others with ⟨_ | others', s₂⟩
    · rw [hothers] at h
      cases h
    · rw [hothers] at h
      obtain ⟨hlanes, rfl⟩ := Prod.mk.inj h
      exact ⟨l', s₁, others', rfl, hothers, (Except.ok.inj hlanes).symm⟩

end Ok

/-- How much a lane has before it: two steps for every command that waits, and one for the command
    that runs. -/
def rank (l : Lane) : Nat :=
  2 * l.waiting.length + if l.running.isSome then 1 else 0

/-- A lane cannot go on: its process runs still, or there is nothing left to do. -/
def Held (exit? : Handle → σ → Option Int) (state : σ) (l : Lane) : Prop :=
  match l.running with
  | none => l.waiting = []
  | some (_, h) => exit? h state = none

/-- A lane that is held was held before. -/
theorem Held.earlier {exit? : Handle → σ → Option Int} {state state' : σ} {l : Lane}
    (h : l.Held exit? state') (hlater : Host.Later exit? state state') : l.Held exit? state := by
  obtain ⟨running, waiting⟩ := l
  cases running with
  | none => exact h
  | some process =>
      exact hlater.eq_none h

end Lane

section Rank

variable {host : Host σ} {exit? : Handle → σ → Option Int} {group : UInt16} {s : Session σ}

/-- A lane that can start a command gets on. -/
theorem rank_advance {waiting : List Command} {lane : Lane}
    (h : (Lane.advance host group s waiting).1 = .ok lane) :
    lane.rank < 2 * waiting.length ∨ waiting = [] ∧ lane = ⟨none, []⟩ := by
  induction waiting generalizing s with
  | nil => exact Or.inr ⟨rfl, (Except.ok.inj h).symm⟩
  | cons c rest ih =>
      refine Or.inl ?_
      obtain ⟨handle, s₁, -, ⟨state, -, rfl, -⟩ | ⟨code, state, -, hrest⟩⟩ :=
        Lane.advance_cons_ok (Prod.ext h rfl)
      · simp [Lane.rank]
        omega
      · rcases ih (congrArg Prod.fst hrest) with hless | ⟨rfl, rfl⟩
        · rw [List.length_cons]
          omega
        · simp [Lane.rank]

variable (hhost : host.Steady exit?)
include hhost

theorem rank_poll {lane lane' : Lane} (h : (lane.poll host group s).1 = .ok lane') :
    lane'.rank < lane.rank ∨ lane' = lane ∧ lane.Held exit? s.host := by
  obtain ⟨running, waiting⟩ := lane
  cases running with
  | none =>
      rcases rank_advance h with hless | ⟨rfl, rfl⟩
      · exact Or.inl (by simpa [Lane.rank] using hless)
      · exact Or.inr ⟨rfl, rfl⟩
  | some process =>
      have hlater := hhost.poll process.2 s.host
      have hanswer := hhost.answer process.2 s.host
      simp only [Lane.poll] at h
      generalize host.poll process.2 s.host = result at h hlater hanswer
      obtain ⟨_ | code, state⟩ := result
      · refine Or.inr ⟨(Except.ok.inj h).symm, ?_⟩
        -- had it exited before, it would have been found to
        have hheld : Lane.Held exit? state ⟨some process, waiting⟩ := hanswer.symm
        exact hheld.earlier hlater
      · refine Or.inl ?_
        show lane'.rank < 2 * waiting.length + 1
        rcases rank_advance h with hless | ⟨rfl, rfl⟩
        · omega
        · simp [Lane.rank]

/-- **Lanes go on unless all of them are held.** -/
theorem rank_pollAll {lanes lanes' : List Lane}
    (h : (Lane.pollAll host group s lanes).1 = .ok lanes') :
    (lanes'.map Lane.rank).sum < (lanes.map Lane.rank).sum ∨
      lanes' = lanes ∧ ∀ lane ∈ lanes, lane.Held exit? s.host := by
  induction lanes generalizing s lanes' with
  | nil => exact Or.inr ⟨(Except.ok.inj h).symm, nofun⟩
  | cons lane rest ih =>
      have hlater := (kept_later hhost group).lane s lane
      obtain ⟨first, s', others, hfirst, hothers, rfl⟩ := Lane.pollAll_cons_ok (Prod.ext h rfl)
      rw [hfirst] at hlater
      have hlane := rank_poll hhost (congrArg Prod.fst hfirst)
      have hrest := ih (congrArg Prod.fst hothers)
      rw [List.map_cons, List.sum_cons, List.map_cons, List.sum_cons]
      rcases hlane with hless | ⟨rfl, hheld⟩
      · rcases hrest with hless' | ⟨rfl, -⟩ <;> exact Or.inl (by omega)
      · rcases hrest with hless' | ⟨rfl, hothers⟩
        · exact Or.inl (by omega)
        · refine Or.inr ⟨rfl, fun l hl => ?_⟩
          rcases List.mem_cons.1 hl with rfl | hl
          · exact hheld
          · exact (hothers l hl).earlier hlater

end Rank

/-! ## Plans -/

/-- Lanes go through plans, and what they started is in the group. -/
structure Going (plans : List (List Command)) (group : UInt16) (courses : List Course)
    (s : Session (σ × List Asked)) : Prop where
  underway : Underway plans courses s.host.2
  filled : s.table.Filled group (spawned s.host.2)

/-- A command could not be started, the last one of all that were to be. What was started before it
    is in the group. -/
structure Broken (plans : List (List Command)) (group : UInt16) (e : ProcessError)
    (s : Session (σ × List Asked)) : Prop where
  order : InOrder plans s.host.2
  failure : ∃ before c, s.host.2 = before ++ [start c (.error e)] ∧ AllStarted before
  filled : s.table.Filled group (spawned s.host.2)

/-- What going on with lanes leads to: something for which `P` holds, or a command that could not be
    started. -/
def Leads (plans : List (List Command)) (group : UInt16)
    (P : α → Session (σ × List Asked) → Prop)
    (result : Except ProcessError α × Session (σ × List Asked)) : Prop :=
  match result.1 with
  | .ok a => P a result.2
  | .error e => Broken plans group e result.2

section Going

variable {host : Host σ} {plans : List (List Command)} {group : UInt16} {pre post : List Course}
  {plan waiting : List Command} {c : Command} {h : Handle} {s s' : Session (σ × List Asked)}

/-- The process of a lane runs still. -/
theorem Going.polled {courses : List Course} {answer : Option Int}
    (hgoing : Going plans group courses s)
    (hasked : s'.host.2 = s.host.2 ++ [.poll h answer]) (htable : s'.table = s.table) :
    Going plans group courses s' := by
  refine ⟨?_, ?_⟩
  · rw [hasked]
    exact hgoing.underway.polled answer
  · rw [hasked, htable]
    simpa using hgoing.filled

/-- The process of a lane has exited. -/
theorem Going.exited {code : Int}
    (hgoing : Going plans group (pre ++ ⟨plan, ⟨some (c, h), waiting⟩⟩ :: post) s)
    (hasked : s'.host.2 = s.host.2 ++ [.poll h (some code)]) (htable : s'.table = s.table) :
    Going plans group (pre ++ ⟨plan, ⟨none, waiting⟩⟩ :: post) s' := by
  refine ⟨?_, ?_⟩
  · rw [hasked]
    exact hgoing.underway.exited code
  · rw [hasked, htable]
    simpa using hgoing.filled

/-- There is a place in the group for the process of the next command. -/
theorem Going.room (hgoing : Going plans group (pre ++ ⟨plan, ⟨none, c :: waiting⟩⟩ :: post) s)
    (hfits : plans.flatten.length ≤ ProcessError.limit) :
    (spawned s.host.2).length < ProcessError.limit := by
  have hlength := hgoing.underway.each.length_eq
  rw [hgoing.underway.allStarted.length_spawned]
  simp only [List.length_append, List.flatMap_append, List.flatMap_cons, List.length_cons]
    at hlength
  omega

variable (host) (hdistinct : plans.flatten.Nodup)
  (hfits : plans.flatten.length ≤ ProcessError.limit)
include hdistinct hfits

/-- **Starting the next command of a lane.** -/
theorem leads_startIn
    (hgoing : Going plans group (pre ++ ⟨plan, ⟨none, c :: waiting⟩⟩ :: post) s) :
    Leads plans group
      (fun h s' => Going plans group (pre ++ ⟨plan, ⟨some (c, h), waiting⟩⟩ :: post) s')
      (s.startIn host.traced group c) := by
  rcases hstart : host.start c s.table s.host.1 with ⟨answer, state⟩
  rw [Session.startIn, Host.traced_start hstart]
  cases answer with
  | error e =>
      refine ⟨hgoing.underway.inOrder_start hdistinct _, ?_, ?_⟩
      · exact ⟨s.host.2, c, rfl, hgoing.underway.allStarted⟩
      · simpa using hgoing.filled
  | ok handle =>
      obtain ⟨id, table, hadd, hfilled⟩ := hgoing.filled.add (hgoing.room hfits) handle
      simp only [hadd]
      refine ⟨hgoing.underway.started hdistinct handle, ?_⟩
      simpa [Session.note] using hfilled

/-- **Starting commands one after another.** -/
theorem leads_advance
    (hgoing : Going plans group (pre ++ ⟨plan, ⟨none, waiting⟩⟩ :: post) s) :
    Leads plans group (fun l s' => Going plans group (pre ++ ⟨plan, l⟩ :: post) s')
      (Lane.advance host.traced group s waiting) := by
  induction waiting generalizing s with
  | nil => exact hgoing
  | cons c rest ih =>
      have hstarted := leads_startIn host hdistinct hfits hgoing
      rw [Lane.advance]
      generalize s.startIn host.traced group c = result at hstarted ⊢
      obtain ⟨_ | handle, s'⟩ := result
      · exact hstarted
      · rcases hpoll : host.poll handle s'.host.1 with ⟨code?, state⟩
        simp only [Host.traced_poll hpoll]
        cases code? with
        | none => exact hstarted.polled rfl rfl
        | some code => exact ih (hstarted.exited rfl rfl)

/-- **One lane in a round.** -/
theorem leads_poll {lane : Lane} (hgoing : Going plans group (pre ++ ⟨plan, lane⟩ :: post) s) :
    Leads plans group (fun l s' => Going plans group (pre ++ ⟨plan, l⟩ :: post) s')
      (lane.poll host.traced group s) := by
  obtain ⟨running, waiting⟩ := lane
  cases running with
  | none => exact leads_advance host hdistinct hfits hgoing
  | some process =>
      obtain ⟨c, handle⟩ := process
      rcases hpoll : host.poll handle s.host.1 with ⟨code?, state⟩
      simp only [Lane.poll, Host.traced_poll hpoll]
      cases code? with
      | none => exact hgoing.polled rfl rfl
      | some code => exact leads_advance host hdistinct hfits (hgoing.exited rfl rfl)

/-- **One round.** Lanes go on from left to right; those on the left have done so already. -/
theorem leads_pollAll (hgoing : Going plans group (pre ++ post) s) :
    Leads plans group
      (fun lanes s' => ∃ post', post'.map Course.lane = lanes ∧ Going plans group (pre ++ post') s')
      (Lane.pollAll host.traced group s (post.map Course.lane)) := by
  induction post generalizing pre s with
  | nil => exact ⟨[], rfl, hgoing⟩
  | cons x rest ih =>
      have hfirst := leads_poll host hdistinct hfits
        (show Going plans group (pre ++ ⟨x.plan, x.lane⟩ :: rest) s from hgoing)
      rw [List.map_cons, Lane.pollAll]
      generalize x.lane.poll host.traced group s = result at hfirst ⊢
      obtain ⟨_ | lane, s'⟩ := result
      · exact hfirst
      · have hleft : Going plans group ((pre ++ [⟨x.plan, lane⟩]) ++ rest) s' := by
          rw [List.append_assoc]
          exact hfirst
        have hothers := ih hleft
        simp only
        generalize Lane.pollAll host.traced group s' (rest.map Course.lane) = result at hothers ⊢
        obtain ⟨_ | lanes, s''⟩ := result
        · exact hothers
        · obtain ⟨rest', rfl, hgoing'⟩ := hothers
          refine ⟨⟨x.plan, lane⟩ :: rest', rfl, ?_⟩
          rw [List.append_assoc] at hgoing'
          exact hgoing'

end Going

end Promptline
