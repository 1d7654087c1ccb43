import Promptline.Proofs.Process.Lanes

set_option autoImplicit false

/-! # How a statement ends

Once no command is started any more, the processes of a statement are waited for, one after another
in the order in which they were started. The wait gathers the first exit code that is not zero
(`Gathers`). If a command could not be started, the processes are stopped before that. In both
cases all of them have exited when the statement ends, and their group is gone (`Finished`).

Every phase of a statement has its invariant, and going on with the statement keeps it
(`Execution.sound_poll`). -/

namespace Promptline

open Asked

variable {σ : Type}

/-! ## Exit codes -/

/-- The first exit code that is not zero; zero, if there is none. -/
def firstFailure (codes : List Int) : Int :=
  (codes.find? (· != 0)).getD 0

/-- Exit codes behind others count if none of those is a failure. -/
theorem firstFailure_append (codes more : List Int) :
    firstFailure (codes ++ more) = GroupWait.combine (firstFailure codes) (firstFailure more) := by
  unfold firstFailure GroupWait.combine
  rw [List.find?_append]
  cases hfound : codes.find? (· != 0) with
  | none => simp
  | some code =>
      have hcode : code ≠ 0 := by simpa using List.find?_some hfound
      simp [hcode]

/-- One more exit code. -/
theorem combine_firstFailure (codes : List Int) (exit : Int) :
    GroupWait.combine (firstFailure codes) exit = firstFailure (codes ++ [exit]) := by
  have hexit : firstFailure [exit] = exit := by
    by_cases hzero : exit = 0 <;> simp [firstFailure, hzero]
  rw [firstFailure_append, hexit]

/-- Processes have exited, each with its code. -/
def ExitedWith (exit? : Handle → σ → Option Int) (state : σ) (handles : List Handle)
    (codes : List Int) : Prop :=
  handles.map (exit? · state) = codes.map some

section Exited

variable {exit? : Handle → σ → Option Int} {state state' : σ} {handles : List Handle}
  {codes : List Int}

theorem ExitedWith.later (h : ExitedWith exit? state handles codes)
    (hlater : Host.Later exit? state state') : ExitedWith exit? state' handles codes := by
  unfold ExitedWith at h ⊢
  induction handles generalizing codes with
  | nil => exact h
  | cons handle rest ih =>
      cases codes with
      | nil => cases h
      | cons code codes =>
          obtain ⟨hcode, hrest⟩ := List.cons.inj h
          rw [List.map_cons, List.map_cons, hlater handle code hcode, ih hrest]

theorem ExitedWith.append {handle : Handle} {code : Int} (h : ExitedWith exit? state handles codes)
    (hcode : exit? handle state = some code) :
    ExitedWith exit? state (handles ++ [handle]) (codes ++ [code]) := by
  unfold ExitedWith at h ⊢
  rw [List.map_append, List.map_append, h, List.map_singleton, List.map_singleton, hcode]

theorem ExitedWith.isSome (h : ExitedWith exit? state handles codes) {handle : Handle}
    (hmem : handle ∈ handles) : (exit? handle state).isSome := by
  have hexit : exit? handle state ∈ codes.map some := by
    unfold ExitedWith at h
    rw [← h]
    exact List.mem_map_of_mem hmem
  obtain ⟨code, -, hcode⟩ := List.mem_map.1 hexit
  rw [← hcode]
  rfl

end Exited

/-! ## Waiting for a group -/

/-- A wait for processes has gathered the exit codes of those that are not pending. -/
def Gathers (exit? : Handle → σ → Option Int) (state : σ) (handles : List Handle)
    (wait : GroupWait) : Prop :=
  ∃ waited codes, handles = waited ++ wait.pending ∧ ExitedWith exit? state waited codes ∧
    wait.code = firstFailure codes

theorem gathers_start (exit? : Handle → σ → Option Int) (state : σ) (handles : List Handle) :
    Gathers exit? state handles (.start handles) :=
  ⟨[], [], rfl, rfl, rfl⟩

section Waits

variable {host : Host σ} {exit? : Handle → σ → Option Int} (hhost : host.Steady exit?)
include hhost

/-- **The wait gathers exit codes** in the order of the processes. -/
theorem gathers_pollFrom {handles pending : List Handle} {code : Int} {state : σ}
    (h : Gathers exit? state handles ⟨pending, code⟩) :
    Gathers exit? (GroupWait.pollFrom host code state pending).2 handles
      (GroupWait.pollFrom host code state pending).1 := by
  induction pending generalizing code state with
  | nil => exact h
  | cons handle rest ih =>
      have hpoll := hhost.poll handle state
      have hanswer := hhost.answer handle state
      rw [GroupWait.pollFrom]
      generalize host.poll handle state = result at hpoll hanswer ⊢
      obtain ⟨waited, codes, hhandles, hexited, hcode⟩ := h
      obtain ⟨_ | exit, state'⟩ := result
      · exact ⟨waited, codes, hhandles, hexited.later hpoll, hcode⟩
      · refine ih ⟨waited ++ [handle], codes ++ [exit], ?_, ?_, ?_⟩
        · rw [hhandles]
          simp
        · exact (hexited.later hpoll).append hanswer.symm
        · rw [← combine_firstFailure, ← hcode]

omit hhost in
theorem length_pollFrom_le (host : Host σ) (code : Int) (state : σ) (pending : List Handle) :
    (GroupWait.pollFrom host code state pending).1.pending.length ≤ pending.length := by
  induction pending generalizing code state with
  | nil => exact Nat.le_refl _
  | cons handle rest ih =>
      rw [GroupWait.pollFrom]
      rcases host.poll handle state with ⟨_ | exit, state'⟩
      · exact Nat.le_refl _
      · exact Nat.le_succ_of_le (ih (GroupWait.combine code exit) state')

/-- **The wait goes on** unless the next process runs still. -/
theorem rank_pollFrom (code : Int) (state : σ) (pending : List Handle) :
    (GroupWait.pollFrom host code state pending).1.pending.length < pending.length ∨
      (GroupWait.pollFrom host code state pending).1 = ⟨pending, code⟩ ∧
        (pending = [] ∨ ∃ h ∈ pending, exit? h state = none) := by
  cases pending with
  | nil => exact Or.inr ⟨rfl, Or.inl rfl⟩
  | cons handle rest =>
      have hpoll := hhost.poll handle state
      have hanswer := hhost.answer handle state
      rw [GroupWait.pollFrom]
      generalize host.poll handle state = result at hpoll hanswer ⊢
      obtain ⟨_ | exit, state'⟩ := result
      · exact Or.inr ⟨rfl, Or.inr ⟨handle, List.mem_cons_self, hpoll.eq_none hanswer.symm⟩⟩
      · exact Or.inl (Nat.lt_succ_of_le (length_pollFrom_le host _ _ rest))

end Waits

/-- A wait starts nothing. -/
theorem noStarts_pollFrom (host : Host σ) (code : Int) (state : σ × List Asked)
    (pending : List Handle) :
    ∃ more, (GroupWait.pollFrom host.traced code state pending).2.2 = state.2 ++ more ∧
      NoStarts more := by
  induction pending generalizing code state with
  | nil =>
      refine ⟨[], (List.append_nil state.2).symm, ?_⟩
      intro c answer hmem
      cases hmem
  | cons handle rest ih =>
      rw [GroupWait.pollFrom]
      rcases hpoll : host.poll handle state.1 with ⟨_ | exit, state'⟩
      · rw [Host.traced_poll hpoll]
        exact ⟨_, rfl, noStarts_poll handle none⟩
      · rw [Host.traced_poll hpoll]
        obtain ⟨more, htrace, hmore⟩ :=
          ih (GroupWait.combine code exit) (state', state.2 ++ [.poll handle (some exit)])
        refine ⟨[.poll handle (some exit)] ++ more, ?_, (noStarts_poll handle _).append hmore⟩
        rw [htrace, List.append_assoc]

/-! ## Stopping a group -/

theorem asked_terminateAll (host : Host σ) (handles : List Handle) (state : σ × List Asked) :
    (host.traced.terminateAll handles state).2 = state.2 ++ handles.map .terminate := by
  induction handles generalizing state with
  | nil => exact (List.append_nil _).symm
  | cons handle rest ih =>
      show (host.traced.terminateAll rest (host.traced.terminate handle state)).2 = _
      rw [ih, List.map_cons, List.append_cons]
      rfl

theorem noStarts_terminateAll (handles : List Handle) : NoStarts (handles.map .terminate) := by
  intro c answer hmem
  obtain ⟨handle, -, hasked⟩ := List.mem_map.1 hmem
  cases hasked

/-! ## Phases -/

/-- No command is started any more: all of them were, or one could not be, and everything that was
    started before that one was stopped. -/
structure Settled (plans : List (List Command)) (failure : Option ProcessError)
    (trace : List Asked) : Prop where
  order : InOrder plans trace
  complete : failure = none → AllStarted trace ∧ (starts trace).Perm plans.flatten
  stopped : ∀ e, failure = some e → ∃ before c later,
    trace = before ++ start c (.error e) :: later ∧ AllStarted before ∧ NoStarts later ∧
      ∀ h ∈ spawned before, terminate h ∈ later

/-- The processes of a statement are waited for. -/
structure Waiting (exit? : Handle → σ → Option Int) (plans : List (List Command))
    (wait : GroupWait) (failure : Option ProcessError) (s : Session (σ × List Asked)) : Prop where
  settled : Settled plans failure s.host.2
  gathers : Gathers exit? s.host.1 (spawned s.host.2) wait

/-- A statement has ended: all its processes have exited, and there is no group any more. -/
structure Finished (exit? : Handle → σ → Option Int) (plans : List (List Command)) (group : UInt16)
    (answer : Except ProcessError Int) (s : Session (σ × List Asked)) : Prop where
  ending : ∃ failure codes, Settled plans failure s.host.2 ∧
    ExitedWith exit? s.host.1 (spawned s.host.2) codes ∧
    answer = match failure with
      | none => .ok (firstFailure codes)
      | some e => .error e
  gone : s.table.group? group = none

theorem Settled.append {plans : List (List Command)} {failure : Option ProcessError}
    {trace more : List Asked} (h : Settled plans failure trace) (hmore : NoStarts more) :
    Settled plans failure (trace ++ more) := by
  refine ⟨h.order.append hmore, fun hnone => ?_, fun e hfailure => ?_⟩
  · obtain ⟨hall, hperm⟩ := h.complete hnone
    refine ⟨hall.append hmore.allStarted, ?_⟩
    rw [starts_append, hmore.starts, List.append_nil]
    exact hperm
  · obtain ⟨before, c, later, rfl, hall, hlater, hstopped⟩ := h.stopped e hfailure
    refine ⟨before, c, later ++ more, by simp, hall, hlater.append hmore, fun h hmem => ?_⟩
    exact List.mem_append_left _ (hstopped h hmem)

/-- If every command was started, there are as many processes as commands. -/
theorem Settled.length_spawned {plans : List (List Command)} {trace : List Asked}
    (h : Settled plans none trace) : (spawned trace).length = plans.flatten.length := by
  obtain ⟨hall, hperm⟩ := h.complete rfl
  rw [hall.length_spawned, hperm.length_eq]

/-- Where everything could be started, nothing has failed. -/
theorem Settled.failure_eq_none {plans : List (List Command)} {failure : Option ProcessError}
    {trace : List Asked} (h : Settled plans failure trace) (hall : AllStarted trace) :
    failure = none := by
  cases failure with
  | none => rfl
  | some e =>
      obtain ⟨before, c, later, rfl, -⟩ := h.stopped e rfl
      exact absurd (List.mem_append_right before List.mem_cons_self) (hall c e)

/-- There is only one command that could not be started. -/
theorem Settled.failed {plans : List (List Command)} {failure : Option ProcessError}
    {trace before later : List Asked} {c : Command} {e : ProcessError}
    (h : Settled plans failure trace) (htrace : trace = before ++ start c (.error e) :: later) :
    failure = some e ∧ NoStarts later ∧ ∀ h ∈ spawned before, terminate h ∈ later := by
  cases failure with
  | none =>
      have hmem : start c (.error e) ∈ trace :=
        htrace ▸ List.mem_append_right before List.mem_cons_self
      exact absurd hmem ((h.complete rfl).1 c e)
  | some e' =>
      obtain ⟨before', c', later', htrace', hall, hquiet, hstopped⟩ := h.stopped e' rfl
      rcases start_append (htrace'.symm.trans htrace) with ⟨between, rfl⟩ | ⟨between, rfl, hlater⟩
      · exact absurd (List.mem_append_right before List.mem_cons_self) (hall c e)
      · cases between with
        | nil =>
            obtain ⟨hasked, rfl⟩ := List.cons.inj hlater
            obtain ⟨rfl, he⟩ := Asked.start.inj hasked
            obtain rfl := Except.error.inj he
            rw [List.append_nil]
            exact ⟨rfl, hquiet, hstopped⟩
        | cons asked rest =>
            obtain ⟨-, rfl⟩ := List.cons.inj hlater
            exact absurd (List.mem_append_right rest List.mem_cons_self) (hquiet c _)

theorem Settled.stopsAtFailure {plans : List (List Command)} {failure : Option ProcessError}
    {trace : List Asked} (h : Settled plans failure trace) : StopsAtFailure trace :=
  fun _ _ _ _ htrace => (h.failed htrace).2.1

/-- After a command that could not be started, everything that was started is stopped. -/
theorem Broken.settled {plans : List (List Command)} {group : UInt16} {e : ProcessError}
    {s : Session (σ × List Asked)} (h : Broken plans group e s) :
    Settled plans (some e) (s.host.2 ++ (spawned s.host.2).map .terminate) := by
  have hquiet := noStarts_terminateAll (spawned s.host.2)
  obtain ⟨before, c, htrace, hall⟩ := h.failure
  refine ⟨h.order.append hquiet, nofun, fun e' he' => ?_⟩
  obtain rfl := Option.some.inj he'
  refine ⟨before, c, (spawned s.host.2).map .terminate, ?_, hall, hquiet, fun h hmem => ?_⟩
  · rw [htrace, List.append_assoc]
    rfl
  · refine List.mem_map_of_mem ?_
    rw [htrace, spawned_append]
    exact List.mem_append_left _ hmem

/-- When every lane is done, every command was started. -/
theorem Going.settled {plans : List (List Command)} {group : UInt16} {courses : List Course}
    {s : Session (σ × List Asked)} (hdistinct : plans.flatten.Nodup)
    (h : Going plans group courses s) (hdone : ∀ x ∈ courses, x.lane.isDone) :
    Settled plans none s.host.2 := by
  refine ⟨h.underway.inOrder hdistinct, fun _ => ⟨h.underway.allStarted, ?_⟩, nofun⟩
  have hnothing : courses.flatMap (·.lane.waiting) = [] := by
    rw [List.flatMap_eq_nil_iff]
    intro x hx
    have hlane := hdone x hx
    rw [Lane.isDone, Bool.and_eq_true] at hlane
    exact List.isEmpty_iff.1 hlane.2
  have heach := h.underway.each
  rw [hnothing, List.append_nil] at heach
  exact heach

namespace Execution

/-- What holds of a statement in each of its phases. -/
structure Sound (exit? : Handle → σ → Option Int) (plans : List (List Command))
    (x : Execution (σ × List Asked)) : Prop where
  stages : x.stages = plans.flatten.length
  phase : match x.phase with
    | .running lanes =>
      ∃ courses, courses.map Course.lane = lanes ∧ Going plans x.group courses x.session
    | .waiting wait failure => Waiting exit? plans wait failure x.session
    | .finished answer => Finished exit? plans x.group answer x.session

section Phases

variable {exit? : Handle → σ → Option Int} {plans : List (List Command)}
  {x : Execution (σ × List Asked)}

/-- In every phase, what was started was started in order, and nothing behind a failure. -/
theorem Sound.inOrder (hdistinct : plans.flatten.Nodup) (h : x.Sound exit? plans) :
    InOrder plans x.session.host.2 ∧ StopsAtFailure x.session.host.2 := by
  obtain ⟨-, hphase⟩ := h
  cases hx : x.phase with
  | running lanes =>
      rw [hx] at hphase
      obtain ⟨courses, -, hgoing⟩ := hphase
      exact ⟨hgoing.underway.inOrder hdistinct, hgoing.underway.allStarted.stopsAtFailure⟩
  | waiting wait failure =>
      rw [hx] at hphase
      exact ⟨hphase.settled.order, hphase.settled.stopsAtFailure⟩
  | finished answer =>
      rw [hx] at hphase
      obtain ⟨⟨failure, codes, hsettled, -⟩, -⟩ := hphase
      exact ⟨hsettled.order, hsettled.stopsAtFailure⟩

end Phases

section Sound

variable {host : Host σ} {exit? : Handle → σ → Option Int} (hhost : host.Steady exit?)
  {plans : List (List Command)} {x : Execution (σ × List Asked)}
  {failure : Option ProcessError}

/-- Ending a statement, all of whose processes have exited. -/
theorem sound_finish (hstages : x.stages = plans.flatten.length)
    (hsettled : Settled plans failure x.session.host.2) {codes : List Int}
    (hexited : ExitedWith exit? x.session.host.1 (spawned x.session.host.2) codes) {code : Int}
    (hcode : failure = none → code = firstFailure codes) :
    (x.finish code failure).Sound exit? plans := by
  have hgone := ProcessTable.group?_removeGroup x.session.table x.group
  cases failure with
  | none =>
      refine ⟨hstages, ⟨none, codes, hsettled, hexited, ?_⟩, hgone⟩
      rw [hcode rfl]
  | some e => exact ⟨hstages, ⟨some e, codes, hsettled, hexited, rfl⟩, hgone⟩

include hhost in
/-- **Waiting for the group** goes on, or ends the statement. -/
theorem sound_pollWait (hstages : x.stages = plans.flatten.length) {wait : GroupWait}
    (h : Waiting exit? plans wait failure x.session) :
    (x.pollWait host.traced wait failure).Sound exit? plans := by
  have hgathers := gathers_pollFrom hhost.traced
    (show Gathers _ _ _ ⟨wait.pending, wait.code⟩ from h.gathers)
  obtain ⟨more, htrace, hmore⟩ :=
    noStarts_pollFrom host wait.code x.session.host wait.pending
  unfold Execution.pollWait GroupWait.poll
  generalize GroupWait.pollFrom host.traced wait.code x.session.host wait.pending = result
    at hgathers htrace ⊢
  obtain ⟨wait', state⟩ := result
  have hsettled : Settled plans failure state.2 := htrace ▸ h.settled.append hmore
  have hspawned : spawned state.2 = spawned x.session.host.2 := by
    rw [htrace, spawned_append, hmore.spawned, List.append_nil]
  rw [← hspawned] at hgathers
  dsimp only
  unfold GroupWait.result?
  by_cases hdone : wait'.pending.isEmpty
  · obtain ⟨waited, codes, hhandles, hexited, hcode⟩ := hgathers
    rw [List.isEmpty_iff.1 hdone, List.append_nil] at hhandles
    rw [if_pos hdone]
    refine sound_finish (x := { x with session := { x.session with host := state } }) hstages
      hsettled ?_ fun _ => hcode
    rw [hhandles]
    exact hexited
  · rw [if_neg hdone]
    exact ⟨hstages, hsettled, hgathers⟩

include hhost in
/-- **Beginning to wait for the group.** If nothing was started, there is no group, and nothing to
    wait for. -/
theorem sound_startWait (hstages : x.stages = plans.flatten.length)
    (hsettled : Settled plans failure x.session.host.2)
    (hfilled : x.session.table.Filled x.group (spawned x.session.host.2))
    (hsome : failure = none → spawned x.session.host.2 ≠ []) :
    (x.startWait host.traced failure).Sound exit? plans := by
  have hhandles := hfilled.handles?
  unfold Execution.startWait Session.startWait
  by_cases hnothing : spawned x.session.host.2 = []
  · rw [if_pos hnothing] at hhandles
    rw [hhandles]
    have hexited : ExitedWith exit? x.session.host.1 (spawned x.session.host.2) [] := by
      rw [hnothing]
      rfl
    exact sound_finish
      (x := { x with session := x.session.note (GroupWait.unknownNote x.group) }) hstages
      hsettled hexited fun hnone => absurd hnothing (hsome hnone)
  · rw [if_neg hnothing] at hhandles
    rw [hhandles]
    exact sound_pollWait hhost hstages ⟨hsettled, gathers_start exit? _ _⟩

include hhost in
/-- **A command could not be started.** What runs is stopped and waited for. -/
theorem sound_fail (hstages : x.stages = plans.flatten.length) {e : ProcessError}
    (h : Broken plans x.group e x.session) : (x.fail host.traced e).Sound exit? plans := by
  have hhandles : (x.session.table.handles? x.group).getD [] = spawned x.session.host.2 :=
    h.filled.getD_handles?
  have hasked : (host.traced.terminateAll ((x.session.table.handles? x.group).getD [])
      x.session.host).2 = x.session.host.2 ++ (spawned x.session.host.2).map .terminate := by
    rw [hhandles, asked_terminateAll]
  have hfilled : x.session.table.Filled x.group (spawned (host.traced.terminateAll
      ((x.session.table.handles? x.group).getD []) x.session.host).2) := by
    rw [hasked, spawned_append, (noStarts_terminateAll _).spawned, List.append_nil]
    exact h.filled
  exact sound_startWait hhost hstages (hasked ▸ h.settled) hfilled nofun

include hhost in
/-- **Going on with a statement** keeps what holds of it. -/
theorem sound_poll (hdistinct : plans.flatten.Nodup)
    (hfits : plans.flatten.length ≤ ProcessError.limit) (h : x.Sound exit? plans) :
    (x.poll host.traced).Sound exit? plans := by
  obtain ⟨hstages, hphase⟩ := h
  unfold Execution.poll
  cases hx : x.phase with
  | finished answer => exact ⟨hstages, hphase⟩
  | waiting wait failure =>
      rw [hx] at hphase
      exact sound_pollWait hhost hstages hphase
  | running lanes =>
      rw [hx] at hphase
      obtain ⟨courses, rfl, hgoing⟩ := hphase
      have hround := leads_pollAll host hdistinct hfits
        (show Going plans x.group ([] ++ courses) x.session from hgoing)
      dsimp only
      generalize Lane.pollAll host.traced x.group x.session (courses.map Course.lane) = result
        at hround ⊢
      obtain ⟨_ | lanes, s⟩ := result
      · exact sound_fail hhost (x := { x with session := s }) hstages hround
      · obtain ⟨courses', rfl, hgoing'⟩ := hround
        dsimp only
        split
        · next hdone =>
            have hsettled : Settled plans none s.host.2 :=
              hgoing'.settled hdistinct (by simpa using hdone)
            have hlength := hsettled.length_spawned
            rw [← hstages] at hlength
            split
            · next hempty =>
                have hexited : ExitedWith exit? s.host.1 (spawned s.host.2) [] := by
                  rw [List.length_eq_zero_iff.1 (hlength.trans hempty)]
                  rfl
                exact sound_finish (x := { x with session := s }) hstages hsettled hexited
                  fun _ => rfl
            · next hsome =>
                refine sound_startWait hhost (x := { x with session := s }) hstages hsettled
                  hgoing'.filled fun _ hnothing => hsome ?_
                rw [← hlength, hnothing]
                rfl
        · exact ⟨hstages, courses', rfl, hgoing'⟩

end Sound

end Execution

end Promptline
