import Promptline.Proofs.Process.Failures

set_option autoImplicit false

/-! # Head starts

A host on which everything can be started, and every command has its exit code. The processes of
some commands exit at once; the others run until it is late, which it is from the second round
on. So if those that exit at once are the commands of one lane, the whole of that lane is started in
the first round, with one command of each lane in front of it. Then the first failure of the lane is
the answer, if it may come first (`endsWith_failure`). -/

namespace Promptline.Headstart

open Asked

/-- The commands by handle, and whether it is late. -/
structure State where
  started : List Command
  late : Bool

/-! ## The host -/

section Hosts

variable (code : Command → Int) (quick : Command → Bool)

/-- The code that a process has exited with. -/
def exitCode? (h : Handle) (s : State) : Option Int :=
  (s.started[h]?).bind fun c => if quick c || s.late then some (code c) else none

/-- The host that starts everything. Nothing can be stopped. -/
def host : Host State where
  start c _ s := (.ok s.started.length, { s with started := s.started ++ [c] })
  poll h s := (exitCode? code quick h s, s)
  terminate _ s := s

theorem start_host (c : Command) (t : ProcessTable Handle) (s : State) :
    (host code quick).start c t s =
      (.ok s.started.length, { s with started := s.started ++ [c] }) :=
  rfl

variable {code quick}

theorem later_of_prefix {s s' : State} (hstarted : s.started <+: s'.started)
    (hlate : s.late = true → s'.late = true) : Host.Later (exitCode? code quick) s s' := by
  intro h exit hexit
  unfold exitCode? at hexit ⊢
  obtain ⟨more, hmore⟩ := hstarted
  obtain ⟨c, hc, hcode⟩ := Option.bind_eq_some_iff.1 hexit
  refine Option.bind_eq_some_iff.2 ⟨c, ?_, ?_⟩
  · rw [← hmore, List.getElem?_append_left (List.getElem?_eq_some_iff.1 hc).1]
    exact hc
  · split at hcode
    · next hdone =>
        rw [if_pos ?_]
        · exact hcode
        · rw [Bool.or_eq_true] at hdone ⊢
          exact hdone.imp_right hlate
    · cases hcode

theorem steady_host : (host code quick).Steady (exitCode? code quick) where
  start _ _ _ := later_of_prefix (List.prefix_append _ _) id
  poll _ _ := .refl _
  terminate _ _ := .refl _
  answer _ _ := rfl

end Hosts

/-! ## What rounds keep -/

section Rounds

variable {code : Command → Int} {quick : Command → Bool} {group : UInt16}
  {s s' : Session (State × List Asked)}

/-- Everything that was to be started was started, and the host knows the commands. -/
def Knows (s : Session (State × List Asked)) : Prop :=
  ∀ c answer, start c answer ∈ s.host.2 → ∃ h, answer = .ok h ∧ s.host.1.started[h]? = some c

theorem Knows.append (h : Knows s) {more : List Asked} (hmore : NoStarts more)
    (hstarted : s'.host.1.started = s.host.1.started) (htrace : s'.host.2 = s.host.2 ++ more) :
    Knows s' := by
  intro c answer hmem
  rw [htrace] at hmem
  rw [hstarted]
  rcases List.mem_append.1 hmem with hmem | hmem
  · exact h c answer hmem
  · exact absurd hmem (hmore c answer)

/-- One more command. -/
theorem Knows.started (h : Knows s) {c : Command}
    (hstarted : s'.host.1.started = s.host.1.started ++ [c])
    (htrace : s'.host.2 = s.host.2 ++ [start c (.ok s.host.1.started.length)]) : Knows s' := by
  intro d answer hmem
  rw [htrace] at hmem
  rw [hstarted]
  rcases List.mem_append.1 hmem with hmem | hmem
  · obtain ⟨handle, rfl, hd⟩ := h d answer hmem
    refine ⟨handle, rfl, ?_⟩
    rw [List.getElem?_append_left (List.getElem?_eq_some_iff.1 hd).1]
    exact hd
  · obtain ⟨rfl, rfl⟩ := start.inj (List.mem_singleton.1 hmem)
    exact ⟨_, rfl, List.getElem?_concat_length⟩

theorem kept_knows (code : Command → Int) (quick : Command → Bool) (group : UInt16) :
    Kept (host code quick).traced group fun s s' => Knows s → Knows s' where
  refl _ := id
  trans h h' := h' ∘ h
  startIn s c h := by
    have hstarted : Knows { s with
        host := ((host code quick).traced.start c s.table s.host).2 } := h.started rfl rfl
    rw [Session.startIn, Host.traced_start (start_host code quick c _ _)]
    dsimp only
    split
    · exact hstarted.append (noStarts_terminateAll [_]) rfl rfl
    · exact hstarted
  poll s handle h := h.append (noStarts_poll handle _) rfl rfl
  terminate s handle h := h.append (noStarts_terminateAll [handle]) rfl rfl
  note _ _ := id
  removeGroup _ := id

/-- Whether it is late does not change in a round. -/
theorem kept_late (code : Command → Int) (quick : Command → Bool) (group : UInt16) :
    Kept (host code quick).traced group fun s s' => s'.host.1.late = s.host.1.late where
  refl _ := rfl
  trans h h' := h'.trans h
  startIn s c := by
    rw [Session.startIn, Host.traced_start (start_host code quick c _ _)]
    dsimp only
    split <;> rfl
  poll _ _ := rfl
  terminate _ _ := rfl
  note _ _ := rfl
  removeGroup _ := rfl

/-- Whether a process has exited when it was just started. -/
theorem exitCode?_startIn {c : Command} {handle : Handle}
    (h : s.startIn (host code quick).traced group c = (.ok handle, s')) :
    exitCode? code quick handle s'.host.1 =
      if quick c || s.host.1.late then some (code c) else none := by
  obtain ⟨hhandle, hstate⟩ := Prod.mk.inj (Session.startIn_ok h)
  obtain rfl := Except.ok.inj hhandle
  rw [← hstate]
  show ((s.host.1.started ++ [c])[s.host.1.started.length]?).bind _ = _
  rw [List.getElem?_concat_length]
  rfl

/-- A lane of commands that exit at once is done in its first turn. -/
theorem waiting_advance_of_quick {waiting : List Command} {lane : Lane}
    (hquick : ∀ c ∈ waiting, quick c = true)
    (h : Lane.advance (host code quick).traced group s waiting = (.ok lane, s')) :
    lane.waiting = [] := by
  induction waiting generalizing s with
  | nil =>
      obtain ⟨hlane, rfl⟩ := Prod.mk.inj h
      obtain rfl := Except.ok.inj hlane
      rfl
  | cons c rest ih =>
      obtain ⟨handle, s₁, hstart, hgoes⟩ := Lane.advance_cons_ok h
      rcases hgoes with ⟨state, hpoll, -⟩ | ⟨exit, state, -, hrest⟩
      · have hruns : exitCode? code quick handle s₁.host.1 = none := congrArg Prod.fst hpoll
        rw [exitCode?_startIn hstart, hquick c List.mem_cons_self] at hruns
        cases hruns
      · exact ih (fun d hd => hquick d (List.mem_cons_of_mem _ hd)) hrest

/-- Before it is late, a command that does not exit at once holds up those behind it. -/
theorem waiting_advance_of_slow {c : Command} {rest : List Command} {lane : Lane}
    (hslow : quick c = false) (hlate : s.host.1.late = false)
    (h : Lane.advance (host code quick).traced group s (c :: rest) = (.ok lane, s')) :
    lane.waiting = rest := by
  obtain ⟨handle, s₁, hstart, hgoes⟩ := Lane.advance_cons_ok h
  rcases hgoes with ⟨state, -, rfl, -⟩ | ⟨exit, state, hpoll, -⟩
  · rfl
  · have hexited : exitCode? code quick handle s₁.host.1 = some exit := congrArg Prod.fst hpoll
    rw [exitCode?_startIn hstart, hslow, hlate] at hexited
    cases hexited

/-- What waits behind the first turn of a lane. -/
def Turn (quick : Command → Bool) (plan : List Command) (lane : Lane) : Prop :=
  ((∀ c ∈ plan, quick c = true) → lane.waiting = []) ∧
    ∀ c rest, plan = c :: rest → quick c = false → lane.waiting = rest

/-- **What waits behind the first round.** -/
theorem turns_pollAll {plans : List (List Command)} {lanes : List Lane}
    (hlate : s.host.1.late = false)
    (h : Lane.pollAll (host code quick).traced group s (plans.map Lane.start) = (.ok lanes, s')) :
    List.Forall₂ (Turn quick) plans lanes := by
  induction plans generalizing s lanes with
  | nil =>
      obtain ⟨hlanes, rfl⟩ := Prod.mk.inj h
      obtain rfl := Except.ok.inj hlanes
      exact .nil
  | cons plan rest ih =>
      obtain ⟨lane, s₁, others, hfirst, hothers, rfl⟩ := Lane.pollAll_cons_ok h
      have hkept := (kept_late code quick group).lane s (Lane.start plan)
      rw [hfirst] at hkept
      refine .cons ⟨fun hquick => ?_, ?_⟩ (ih (hkept.trans hlate) hothers)
      · exact waiting_advance_of_quick hquick hfirst
      · rintro c others' rfl hslow
        exact waiting_advance_of_slow hslow hlate hfirst

end Rounds

/-! ## Runs -/

section Runs

variable (code : Command → Int) (quick : Command → Bool) (statement : Statement)

/-- It gets late. -/
def getLate (x : Execution (State × List Asked)) : Execution (State × List Asked) :=
  { x with session := { x.session with
    host := ({ x.session.host.1 with late := true }, x.session.host.2) } }

/-- The run in which it is late from the second round on. -/
def run : Run (host code quick) (exitCode? code quick) statement :=
  .disturbed (host code quick) (exitCode? code quick)
    (s := ⟨(⟨[], false⟩, []), .empty, []⟩) rfl rfl rfl
    (fun n x => if n = 0 then x else getLate x) fun n x => by
      split
      · exact .refl _ x
      · exact ⟨rfl, rfl, rfl, rfl, rfl, later_of_prefix List.prefix_rfl fun _ => rfl⟩

variable {code quick statement}

theorem knows_state (n : Nat) : Knows ((run code quick statement).state n).session := by
  induction n with
  | zero =>
      intro c answer hmem
      have hnothing : start c answer ∈ ([] : List Asked) := hmem
      cases hnothing
  | succ n ih =>
      refine (kept_knows code quick _).round ?_
      dsimp only
      split
      · exact ih
      · exact ih

theorem late_world (n : Nat) : ((run code quick statement).world (n + 2)).late = true :=
  (kept_late code quick _).round

theorem fair_run : (run code quick statement).Fair := by
  intro n h hspawned
  obtain ⟨c, hstart⟩ := mem_spawned.1 hspawned
  refine ⟨n + 2, ?_⟩
  have hlater := (run code quick statement).trace_later (Nat.le_add_right n 2)
  obtain ⟨handle, hhandle, hc⟩ := knows_state (n + 2) c _ (hlater.subset hstart)
  obtain rfl := Except.ok.inj hhandle
  have hlate : ((run code quick statement).world (n + 2)).late = true := late_world n
  have hc' : ((run code quick statement).world (n + 2)).started[h]? = some c := hc
  rw [exitCode?, hc', Option.bind_some, hlate, Bool.or_true, if_pos rfl]
  rfl

theorem allStarted (n : Nat) : AllStarted ((run code quick statement).trace n) := by
  intro c e hmem
  obtain ⟨h, hanswer, -⟩ := knows_state n c _ hmem
  cases hanswer

variable (code quick) (hfits : statement.size ≤ ProcessError.limit)
include hfits

/-- **The run ends**, and every process exits with the code of its command. -/
theorem exists_endsWith :
    ∃ n answer, (run code quick statement).EndsWith code n answer := by
  obtain ⟨n, hends⟩ := (run code quick statement).exists_answer steady_host hfits fair_run
  obtain ⟨answer, hanswer⟩ := Option.isSome_iff_exists.1 hends
  obtain ⟨failure, codes, hsettled, hexited, rfl⟩ :=
    ((run code quick statement).finished steady_host hfits hanswer).ending
  obtain rfl := hsettled.failure_eq_none (allStarted n)
  refine ⟨n, firstFailure codes, hanswer, fun c h hmem => ?_⟩
  obtain ⟨exit, hexit⟩ := Option.isSome_iff_exists.1
    (hexited.isSome (mem_spawned.2 ⟨c, hmem⟩))
  obtain ⟨handle, hhandle, hc⟩ := knows_state n c _ hmem
  obtain rfl := Except.ok.inj hhandle
  have hcode := hexit
  rw [exitCode?, hc, Option.bind_some] at hcode
  split at hcode
  · exact hexit.trans hcode.symm
  · cases hcode

/-- The commands that are started first, and what waits behind them. -/
theorem first_round {n : Nat} (hn : 0 < n) :
    ∃ openings : List Opening, openings.map Opening.plan = (statement.number 0).lanes ∧
      (∀ x ∈ openings, Turn quick x.plan x.lane) ∧
      openings.flatMap Opening.started <+: starts ((run code quick statement).trace n) := by
  obtain ⟨hrunning, huntraced⟩ := (run code quick statement).begins_running
  obtain ⟨openings, s, hplans, hpoll, hround⟩ := Execution.first_round
    (statement.nodup_lanes_number 0) ((statement.length_lanes_number 0).symm ▸ hfits)
    ((run code quick statement).sound steady_host hfits 0) hrunning huntraced (allStarted 1)
  have hturns := turns_pollAll rfl hpoll
  rw [← hplans, List.forall₂_map_left_iff, List.forall₂_map_right_iff, List.forall₂_same]
    at hturns
  exact ⟨openings, hplans, hturns,
    hround.trans (((run code quick statement).trace_later hn).filterMap _)⟩

end Runs

section Failures

variable {code : Command → Int} {statement : Statement} {failure : Int}

/-- What a lane starts in its first turn, if its first command does not exit at once. -/
theorem Turn.eq_zero {quick : Command → Bool} {x : Opening} (h : Turn quick x.plan x.lane)
    (hslow : ∀ c ∈ x.plan, quick c = false) (hhead : ∀ c ∈ x.plan.head?, code c = 0) :
    ∀ c ∈ x.started, code c = 0 := by
  intro c hc
  cases hplan : x.plan with
  | nil =>
      rw [(List.append_eq_nil_iff.1 hplan).1] at hc
      cases hc
  | cons first rest =>
      have hwaiting := h.2 first rest hplan (hslow first (hplan ▸ List.mem_cons_self))
      have hstarted : x.started ++ rest = [first] ++ rest := by
        rw [← hwaiting]
        exact hplan.trans (hwaiting ▸ rfl)
      rw [List.append_cancel_right hstarted] at hc
      obtain rfl := List.mem_singleton.1 hc
      exact hhead c (hplan ▸ rfl)

/-- The commands of one lane exit at once. -/
def among (plan : List Command) (c : Command) : Bool :=
  decide (c ∈ plan)

/-- **A failure that may come first does so** if its lane has a head start. -/
theorem endsWith_failure (hfits : statement.size ≤ ProcessError.limit)
    (h : MayFailFirst code (statement.number 0).lanes failure) :
    ∃ quick n, (run code quick statement).EndsWith code n failure := by
  obtain ⟨hfailure, pre, plan, post, hlanes, hpre, rfl⟩ := h
  obtain ⟨n, answer, hends⟩ := exists_endsWith code (among plan) hfits
  suffices hanswer : answer = firstFailure (plan.map code) from ⟨_, n, hanswer ▸ hends⟩
  obtain ⟨-, -, -, rfl⟩ := hends.starts steady_host hfits
  obtain ⟨openings, hplans, hturns, more, hmore⟩ := first_round code (among plan) hfits
    (Run.pos_of_answer (Option.isSome_of_eq_some hends.answer))
  rw [hlanes] at hplans
  obtain ⟨front, others, rfl, hfront, hothers⟩ := List.map_eq_append_iff.1 hplans
  obtain ⟨x, back, rfl, hx, -⟩ := List.map_eq_cons_iff.1 hothers
  -- the lanes in front of the one with the head start do not fail in the first round
  have hquiet : firstFailure ((front.flatMap Opening.started).map code) = 0 := by
    refine firstFailure_eq_zero_iff.2 fun exit hexit => ?_
    obtain ⟨c, hc, rfl⟩ := List.mem_map.1 hexit
    obtain ⟨y, hy, hcy⟩ := List.mem_flatMap.1 hc
    have hypre : y.plan ∈ pre := hfront ▸ List.mem_map_of_mem hy
    refine (hturns y (List.mem_append_left _ hy)).eq_zero (fun d hd => ?_) (hpre _ hypre) c hcy
    have hdistinct := statement.nodup_lanes_number 0
    rw [hlanes, List.flatten_append, List.nodup_append] at hdistinct
    refine decide_eq_false fun hplan => hdistinct.2.2 d ?_ d ?_ rfl
    · exact List.mem_flatten_of_mem hypre hd
    · exact List.mem_append_left _ hplan
  -- and that one goes through all of its commands
  have hx' : x.started = plan := by
    have hwaiting := (hturns x (by simp)).1 fun c hc => decide_eq_true (hx ▸ hc)
    rw [← hx, Opening.plan, hwaiting, List.append_nil]
  rw [← hmore, List.flatMap_append, List.flatMap_cons, hx', List.append_assoc, List.append_assoc,
    List.map_append, firstFailure_append_of_eq_zero hquiet, List.map_append,
    firstFailure_append_of_ne_zero hfailure]

end Failures

end Promptline.Headstart
