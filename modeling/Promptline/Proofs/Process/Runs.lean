import Promptline.Proofs.Process.Progress
import Promptline.Proofs.Process.Rehearsal
import Promptline.Proofs.Statement

set_option autoImplicit false

/-! # Runs of statements

A statement begins, and then goes on in rounds. Between rounds its processes go on by themselves,
and others use the same process table; they only keep their hands off the group of the statement
(`Elapsed`). During a round processes may exit at any call of the host. Which of them exit when is
open, and so is how many rounds there are before that.

In every such run commands are started in order, everything that was started has exited when the
statement ends, and its group is gone (`Run.ordered_complete_clean`). -/

namespace Promptline

open Asked

variable {σ : Type}

/-- What may happen to a statement between its rounds. Processes exit, and other groups change. -/
structure Elapsed (exit? : Handle → σ → Option Int) (x y : Execution (σ × List Asked)) : Prop where
  group : y.group = x.group
  stages : y.stages = x.stages
  phase : y.phase = x.phase
  trace : y.session.host.2 = x.session.host.2
  members : y.session.table.group? x.group = x.session.table.group? x.group
  later : Host.Later exit? x.session.host.1 y.session.host.1

theorem Elapsed.refl (exit? : Handle → σ → Option Int) (x : Execution (σ × List Asked)) :
    Elapsed exit? x x :=
  ⟨rfl, rfl, rfl, rfl, rfl, .refl _⟩

/-- A run of a statement in a group that nobody else uses. -/
structure Run (host : Host σ) (exit? : Handle → σ → Option Int) (statement : Statement) where
  start : Session (σ × List Asked)
  state : Nat → Execution (σ × List Asked)
  begins : (start.begin statement).1 = .ok (state 0)
  untraced : start.host.2 = []
  fresh : start.table.group? (state 0).group = none
  round : ∀ n, ∃ x, Elapsed exit? (state n) x ∧ state (n + 1) = x.poll host.traced

/-! ## The beginning -/

namespace Execution

variable {exit? : Handle → σ → Option Int} {plans : List (List Command)}
  {x y : Execution (σ × List Asked)}

/-- A statement begins with all its lanes before it, and does nothing but take a group. -/
theorem begin_ok {s : Session σ} {statement : Statement} {x : Execution σ}
    (h : (s.begin statement).1 = .ok x) :
    x.session.host = s.host ∧ x.session.table.groups = s.table.groups ∧
      x.stages = statement.size ∧
      x.phase = .running ((statement.number 0).lanes.map Lane.start) := by
  unfold Session.begin ProcessTable.newGroup at h
  dsimp only at h
  split at h
  · cases h
  · next group table hgroup =>
      obtain rfl := Except.ok.inj h
      refine ⟨rfl, ?_, statement.size_number 0, rfl⟩
      split at hgroup
      · obtain ⟨-, rfl⟩ := Prod.mk.inj (Except.ok.inj hgroup)
        rfl
      · cases hgroup

/-- **A statement that begins** has its lanes before it. -/
theorem sound_begin {s : Session (σ × List Asked)} {statement : Statement}
    (h : (s.begin statement).1 = .ok x) (huntraced : s.host.2 = [])
    (hfresh : s.table.group? x.group = none) :
    x.Sound exit? (statement.number 0).lanes := by
  obtain ⟨hhost, htable, hstages, hphase⟩ := begin_ok h
  refine ⟨?_, ?_⟩
  · rw [hstages, statement.length_lanes_number 0]
  · rw [hphase]
    refine ⟨(statement.number 0).lanes.map Course.ofPlan, ?_, ?_, ?_⟩
    · rw [List.map_map]
      rfl
    · rw [hhost, huntraced]
      exact underway_start _
    · rw [hhost, huntraced]
      refine ProcessTable.filled_nil ?_
      rw [ProcessTable.group?, htable]
      exact hfresh

/-- **Between rounds** nothing is lost. -/
theorem Sound.elapsed (h : x.Sound exit? plans) (helapsed : Elapsed exit? x y) :
    y.Sound exit? plans := by
  obtain ⟨session, group, stages, phase⟩ := y
  obtain ⟨rfl, rfl, rfl, htrace, hmembers, hlater⟩ := helapsed
  obtain ⟨hstages, hphase⟩ := h
  refine ⟨hstages, ?_⟩
  dsimp only at htrace hmembers hlater ⊢
  cases hx : x.phase with
  | running lanes =>
      rw [hx] at hphase
      obtain ⟨courses, hlanes, hunder, hfilled⟩ := hphase
      refine ⟨courses, hlanes, htrace ▸ hunder, ?_⟩
      rw [htrace]
      exact ProcessTable.filled_of_group?_eq hmembers hfilled
  | waiting wait failure =>
      rw [hx] at hphase
      obtain ⟨hsettled, waited, codes, hhandles, hexited, hcode⟩ := hphase
      refine ⟨htrace ▸ hsettled, waited, codes, ?_, hexited.later hlater, hcode⟩
      rw [htrace]
      exact hhandles
  | finished answer =>
      rw [hx] at hphase
      obtain ⟨⟨failure, codes, hsettled, hexited, hanswer⟩, hgone⟩ := hphase
      refine ⟨⟨failure, codes, htrace ▸ hsettled, ?_, hanswer⟩, hmembers.trans hgone⟩
      rw [htrace]
      exact hexited.later hlater

/-- A statement that has ended does not change. -/
theorem poll_of_answer (host : Host σ) {x : Execution σ} (h : x.answer?.isSome) :
    x.poll host = x := by
  unfold Execution.answer? at h
  unfold Execution.poll
  split at h
  · next answer hx => rw [hx]
  · cases h

/-! ## The group of a statement -/

section Group

variable (host : Host σ) (x : Execution σ) (failure : Option ProcessError)

theorem group_finish (code : Int) : (x.finish code failure).group = x.group := by
  cases failure <;> rfl

theorem group_pollWait (wait : GroupWait) : (x.pollWait host wait failure).group = x.group := by
  unfold Execution.pollWait
  dsimp only
  split
  · exact group_finish _ failure _
  · rfl

theorem group_startWait : (x.startWait host failure).group = x.group := by
  unfold Execution.startWait
  rcases x.session.startWait x.group with ⟨_ | wait, session⟩
  · exact group_finish _ failure _
  · exact group_pollWait host _ failure wait

/-- A statement stays in its group. -/
theorem group_poll : (x.poll host).group = x.group := by
  unfold Execution.poll
  split
  · rfl
  · exact group_pollWait host x _ _
  · split
    · exact group_startWait host _ _
    · split
      · split
        · exact group_finish _ _ _
        · exact group_startWait host _ _
      · rfl

end Group

end Execution

/-! ## Runs -/

namespace Run

variable {host : Host σ} {exit? : Handle → σ → Option Int} {statement : Statement}
  (run : Run host exit? statement)

/-- What the host was asked before a round. -/
def trace (n : Nat) : List Asked :=
  (run.state n).session.host.2

/-- The state of the host before a round. -/
def world (n : Nat) : σ :=
  (run.state n).session.host.1

/-- The group of the statement. -/
def group : UInt16 :=
  (run.state 0).group

/-- Every process that is started exits at some time. -/
def Fair : Prop :=
  ∀ n, ∀ h ∈ spawned (run.trace n), ∃ m, (exit? h (run.world m)).isSome

theorem group_state (n : Nat) : (run.state n).group = run.group := by
  induction n with
  | zero => rfl
  | succ n ih =>
      obtain ⟨x, helapsed, hstate⟩ := run.round n
      rw [hstate, Execution.group_poll, helapsed.group]
      exact ih

/-- What was asked once was asked. -/
theorem trace_later {m n : Nat} (h : m ≤ n) : run.trace m <+: run.trace n := by
  induction h with
  | refl => exact List.prefix_rfl
  | @step n _ ih =>
      obtain ⟨x, helapsed, hstate⟩ := run.round n
      have hround := (kept_trace host x.group).round
      rw [← hstate, helapsed.trace] at hround
      exact ih.trans hround

/-- The answer stands. -/
theorem answer_later {m n : Nat} {answer : Except ProcessError Int}
    (hanswer : (run.state m).answer? = some answer) (h : m ≤ n) :
    (run.state n).answer? = some answer := by
  induction h with
  | refl => exact hanswer
  | @step n _ ih =>
      obtain ⟨x, helapsed, hstate⟩ := run.round n
      have hx : x.answer? = some answer := by
        unfold Execution.answer? at ih ⊢
        rw [helapsed.phase]
        exact ih
      rw [hstate, Execution.poll_of_answer _ (Option.isSome_of_eq_some hx)]
      exact hx

/-- A round leaves the groups of others alone. -/
theorem round_others (n : Nat) : ∃ x, Elapsed exit? (run.state n) x ∧
    run.state (n + 1) = x.poll host.traced ∧ ∀ other, other ≠ run.group →
      (run.state (n + 1)).session.table.group? other = x.session.table.group? other := by
  obtain ⟨x, helapsed, hstate⟩ := run.round n
  refine ⟨x, helapsed, hstate, fun other hother => ?_⟩
  have hgroup : x.group = run.group := helapsed.group.trans (run.group_state n)
  rw [hstate]
  exact (kept_others host.traced (hgroup ▸ hother)).round

section Steady

variable (hhost : host.Steady exit?)
include hhost

/-- Processes that have exited stay so. -/
theorem later {m n : Nat} (h : m ≤ n) : Host.Later exit? (run.world m) (run.world n) := by
  induction h with
  | refl => exact .refl _
  | @step n _ ih =>
      obtain ⟨x, helapsed, hstate⟩ := run.round n
      have hround := (kept_later hhost.traced x.group).round
      rw [← hstate] at hround
      exact (ih.trans helapsed.later).trans hround

variable (hfits : statement.size ≤ ProcessError.limit)
include hfits

/-- **Whatever happens in between**, each round keeps what holds of the statement. -/
theorem sound (n : Nat) : (run.state n).Sound exit? (statement.number 0).lanes := by
  induction n with
  | zero => exact Execution.sound_begin run.begins run.untraced run.fresh
  | succ n ih =>
      obtain ⟨x, helapsed, hstate⟩ := run.round n
      rw [hstate]
      refine Execution.sound_poll hhost (statement.nodup_lanes_number 0) ?_ (ih.elapsed helapsed)
      rw [statement.length_lanes_number 0]
      exact hfits

/-- **One round** gets the statement on, unless it waits for a process that runs still. -/
theorem progress (n : Nat) :
    (run.state (n + 1)).answer?.isSome ∨ (run.state (n + 1)).rank < (run.state n).rank ∨
      (run.state (n + 1)).phase = (run.state n).phase ∧
        ∃ h ∈ (run.state n).phase.awaited, exit? h (run.world n) = none := by
  obtain ⟨x, helapsed, hstate⟩ := run.round n
  have hsound : x.Sound exit? (statement.number 0).lanes :=
    (run.sound hhost hfits n).elapsed helapsed
  have hrank : x.rank = (run.state n).rank := by
    unfold Execution.rank
    rw [helapsed.phase, helapsed.stages]
  have hprogress := Execution.progress hhost (statement.nodup_lanes_number 0)
    ((statement.length_lanes_number 0).symm ▸ hfits) hsound
  dsimp only at hprogress
  rw [← hstate, hrank, helapsed.phase] at hprogress
  rcases hprogress with hanswer | hless | ⟨hphase, h, hawaited, hruns⟩
  · exact Or.inl hanswer
  · exact Or.inr (Or.inl hless)
  · exact Or.inr (Or.inr ⟨hphase, h, hawaited, helapsed.later.eq_none hruns⟩)

omit hfits in
/-- In a fair run there is a round before which all of some processes have exited. -/
theorem exists_exited (hfair : run.Fair) (n : Nat) (handles : List Handle)
    (hspawned : ∀ h ∈ handles, h ∈ spawned (run.trace n)) :
    ∃ m, n ≤ m ∧ ∀ h ∈ handles, (exit? h (run.world m)).isSome := by
  induction handles with
  | nil => exact ⟨n, Nat.le_refl n, nofun⟩
  | cons handle rest ih =>
      obtain ⟨m, hm, hrest⟩ := ih fun h hmem => hspawned h (List.mem_cons_of_mem _ hmem)
      obtain ⟨k, hk⟩ := hfair n handle (hspawned handle List.mem_cons_self)
      have hstays : ∀ h i, i ≤ max m k → (exit? h (run.world i)).isSome →
          (exit? h (run.world (max m k))).isSome := by
        intro h i hi hexited
        obtain ⟨code, hcode⟩ := Option.isSome_iff_exists.1 hexited
        rw [run.later hhost hi h code hcode]
        rfl
      refine ⟨max m k, Nat.le_trans hm (Nat.le_max_left m k), fun h hmem => ?_⟩
      rcases List.mem_cons.1 hmem with rfl | hmem
      · exact hstays h k (Nat.le_max_right m k) hk
      · exact hstays h m (Nat.le_max_left m k) (hrest h hmem)

/-- What is before a statement depends on its phase only. -/
theorem rank_congr {m n : Nat} (h : (run.state m).phase = (run.state n).phase) :
    (run.state m).rank = (run.state n).rank := by
  unfold Execution.rank
  rw [h, (run.sound hhost hfits m).stages, (run.sound hhost hfits n).stages]

/-- **In a fair run the statement ends.** -/
theorem exists_answer (hfair : run.Fair) : ∃ n, (run.state n).answer?.isSome := by
  -- from every round on it does so, by induction on how much is still before it
  suffices hends : ∀ n, ∃ m, (run.state m).answer?.isSome from hends 0
  intro n
  induction hrank : (run.state n).rank using Nat.strongRecOn generalizing n with
  | ind rank ih =>
      subst hrank
      by_contra! hstuck
      have hnoless : ∀ m, (run.state n).rank ≤ (run.state m).rank := by
        intro m
        by_contra hless
        obtain ⟨k, hk⟩ := ih _ (Nat.lt_of_not_le hless) m rfl
        exact hstuck k hk
      -- so each round from here on leaves the phase as it is, and waits for a process
      have hround : ∀ m, (run.state m).phase = (run.state n).phase →
          (run.state (m + 1)).phase = (run.state n).phase ∧
            ∃ h ∈ (run.state n).phase.awaited, exit? h (run.world m) = none := by
        intro m hphase
        rcases run.progress hhost hfits m with hanswer | hless | ⟨hsame, hwaits⟩
        · exact absurd hanswer (hstuck (m + 1))
        · rw [run.rank_congr hhost hfits hphase] at hless
          exact absurd (hnoless (m + 1)) (Nat.not_le_of_lt hless)
        · exact ⟨hsame.trans hphase, hphase ▸ hwaits⟩
      have hphase : ∀ m, n ≤ m → (run.state m).phase = (run.state n).phase := by
        intro m hm
        induction hm with
        | refl => rfl
        | @step m _ hsame => exact (hround m hsame).1
      -- but some day all these processes have exited
      obtain ⟨m, hm, hexited⟩ := run.exists_exited hhost hfair n (run.state n).phase.awaited
        fun h => (run.sound hhost hfits n).spawned_of_awaited
      obtain ⟨-, h, hawaited, hruns⟩ := hround m (hphase m hm)
      have hsome := hexited h hawaited
      rw [hruns] at hsome
      cases hsome

/-- What holds when the statement has ended. -/
theorem finished {n : Nat} {answer : Except ProcessError Int}
    (hanswer : (run.state n).answer? = some answer) :
    Finished exit? (statement.number 0).lanes run.group answer (run.state n).session := by
  obtain ⟨-, hphase⟩ := run.sound hhost hfits n
  unfold Execution.answer? at hanswer
  split at hanswer
  · next answer' hfinished =>
      obtain rfl := Option.some.inj hanswer
      rw [hfinished, run.group_state] at hphase
      exact hphase
  · cases hanswer

/-- **A statement that ends** has waited for everything that it started. -/
theorem fair_of_answer {n : Nat} (hanswer : (run.state n).answer?.isSome) : run.Fair := by
  obtain ⟨answer, hsome⟩ := Option.isSome_iff_exists.1 hanswer
  intro k h hmem
  refine ⟨max n k, ?_⟩
  have hended := run.finished hhost hfits (run.answer_later hsome (Nat.le_max_left n k))
  obtain ⟨-, codes, -, hexited, -⟩ := hended.ending
  refine hexited.isSome ?_
  obtain ⟨c, hstart⟩ := mem_spawned.1 hmem
  exact mem_spawned.2 ⟨c, (run.trace_later (Nat.le_max_right n k)).subset hstart⟩

/-- **Statements run in order, run completely, and leave nothing behind**, whichever processes exit
    when, whatever cannot be started, and whatever others do with the process table.

    Before every round, no command was started twice, none before the one in front of it in its
    lane had exited, and none behind one that could not be started. No round touches the groups of
    others.

    When the statement ends, every process that was started has exited, and the group is gone. If
    every command could be started, all were, and the answer is the first exit code that is not
    zero, in the order of the starts. If a command could not be, the answer says why, and every
    process that was started before has been told to stop.

    The statement ends if and only if every process that is started exits at some time. -/
theorem ordered_complete_clean :
    (∀ n, InOrder (statement.number 0).lanes (run.trace n) ∧ StopsAtFailure (run.trace n)) ∧
      (∀ n, ∃ x, Elapsed exit? (run.state n) x ∧ run.state (n + 1) = x.poll host.traced ∧
        ∀ other, other ≠ run.group →
          (run.state (n + 1)).session.table.group? other = x.session.table.group? other) ∧
      (∀ n answer, (run.state n).answer? = some answer →
        (∃ codes, ExitedWith exit? (run.world n) (spawned (run.trace n)) codes ∧
          (AllStarted (run.trace n) →
            (starts (run.trace n)).Perm (statement.number 0).commands ∧
              answer = .ok (firstFailure codes))) ∧
        (∀ before c e later, run.trace n = before ++ Asked.start c (.error e) :: later →
          answer = .error e ∧ ∀ h ∈ spawned before, terminate h ∈ later) ∧
        (run.state n).session.table.group? run.group = none) ∧
      ((∃ n, (run.state n).answer?.isSome) ↔ run.Fair) := by
  refine ⟨fun n => ?_, run.round_others, fun n answer hanswer => ?_, ?_⟩
  · exact (run.sound hhost hfits n).inOrder (statement.nodup_lanes_number 0)
  · obtain ⟨⟨failure, codes, hsettled, hexited, hcode⟩, hgone⟩ :=
      run.finished hhost hfits hanswer
    refine ⟨⟨codes, hexited, fun hall => ?_⟩, fun before c e later htrace => ?_, hgone⟩
    · obtain rfl := hsettled.failure_eq_none hall
      obtain ⟨-, hperm⟩ := hsettled.complete rfl
      rw [Statement.flatten_lanes] at hperm
      exact ⟨hperm, hcode⟩
    · obtain ⟨rfl, -, hstopped⟩ := hsettled.failed htrace
      exact ⟨hcode, hstopped⟩
  · constructor
    · rintro ⟨n, hanswer⟩
      exact run.fair_of_answer hhost hfits hanswer
    · exact run.exists_answer hhost hfits

end Steady

end Run

/-! ## Runs from the beginning -/

namespace Execution

variable (host : Host σ)

/-- A statement before each round, with something that happens between it and the round. -/
def disturbed (x : Execution σ) (meanwhile : Nat → Execution σ → Execution σ) :
    Nat → Execution σ
  | 0 => x
  | n + 1 => (meanwhile n (x.disturbed meanwhile n)).poll host

theorem pollTimes_succ (x : Execution σ) (rounds : Nat) :
    x.pollTimes host (rounds + 1) = (x.pollTimes host rounds).poll host := by
  induction rounds generalizing x with
  | zero =>
      show (if x.answer?.isSome then x else x.poll host) = x.poll host
      split
      · next hanswer => exact (poll_of_answer host hanswer).symm
      · rfl
  | succ rounds ih =>
      by_cases hanswer : x.answer?.isSome
      · rw [pollTimes, if_pos hanswer, pollTimes, if_pos hanswer, poll_of_answer host hanswer]
      · rw [pollTimes, if_neg hanswer, ih, pollTimes, if_neg hanswer]

end Execution

namespace Run

section Alone

variable (host : Host σ) (exit? : Handle → σ → Option Int) {statement : Statement}
  {s : Session (σ × List Asked)} {x : Execution (σ × List Asked)}
  (hbegins : (s.begin statement).1 = .ok x) (huntraced : s.host.2 = [])
  (hfresh : s.table.group? x.group = none)

/-- The run of a statement with something that happens before each round. -/
def disturbed (meanwhile : Nat → Execution (σ × List Asked) → Execution (σ × List Asked))
    (helapsed : ∀ n y, Elapsed exit? y (meanwhile n y)) : Run host exit? statement where
  start := s
  state := x.disturbed host.traced meanwhile
  begins := hbegins
  untraced := huntraced
  fresh := hfresh
  round _ := ⟨_, helapsed _ _, rfl⟩

/-- The run of a statement while nothing else happens. -/
def alone : Run host exit? statement where
  start := s
  state := x.pollTimes host.traced
  begins := hbegins
  untraced := huntraced
  fresh := hfresh
  round n := ⟨_, .refl exit? _, x.pollTimes_succ host.traced n⟩

end Alone

/-- A process of two commands beside a process of one. -/
def twoLanes : Statement :=
  .pipeline { processes := [⟨[⟨.shell "a", {}, none⟩, ⟨.shell "b", {}, none⟩]⟩,
    ⟨[⟨.shell "c", {}, none⟩]⟩] }

/-- A rehearsal of both: the one process goes well for a while, and fails in the end. -/
def rehearsed (other : Rehearsal.Plan) : Run Rehearsal.host Rehearsal.exitCode? twoLanes :=
  .alone Rehearsal.host Rehearsal.exitCode?
    (s := ⟨({ Rehearsal.State.empty with
      plans := [.run ⟨0, some 1, 9⟩, .run ⟨3, some 0, 9⟩, other] }, []), .empty, []⟩)
    rfl rfl rfl

/-- The other process fails later, but was started earlier; or it cannot be started. -/
theorem ordered_complete_clean_two_lanes :
    (∃ run : Run Rehearsal.host Rehearsal.exitCode? twoLanes,
      (run.state 3).answer? = some (.ok 5) ∧ run.Fair ∧
        (starts (run.trace 3)).Perm (twoLanes.number 0).commands ∧
        (run.state 3).session.table.group? run.group = none) ∧
    ∃ run : Run Rehearsal.host Rehearsal.exitCode? twoLanes, ∃ before c later,
      (run.state 1).answer? = some (.error .groupIdsExhausted) ∧
        run.trace 1 = before ++ Asked.start c (.error .groupIdsExhausted) :: later ∧
        spawned (run.trace 1) = [0] ∧ (∀ h ∈ spawned before, terminate h ∈ later) ∧
        (run.state 1).session.table.group? run.group = none := by
  have hsize : twoLanes.size ≤ ProcessError.limit := by decide
  constructor
  · obtain ⟨-, -, hends, hfair⟩ := (rehearsed (.run ⟨5, some 2, 9⟩)).ordered_complete_clean
      Rehearsal.steady_host hsize
    obtain ⟨⟨codes, -, hcomplete⟩, hfailed, hgone⟩ := hends 3 (.ok 5) rfl
    refine ⟨_, rfl, hfair.1 ⟨3, rfl⟩, (hcomplete fun c e hmem => ?_).1, hgone⟩
    obtain ⟨before, later, htrace⟩ := List.append_of_mem hmem
    cases (hfailed before c e later htrace).1
  · obtain ⟨-, -, hends, -⟩ := (rehearsed (.fail .groupIdsExhausted)).ordered_complete_clean
      Rehearsal.steady_host hsize
    obtain ⟨⟨codes, -, hcomplete⟩, hfailed, hgone⟩ := hends 1 (.error .groupIdsExhausted) rfl
    have hbroken : ¬ AllStarted ((rehearsed (.fail .groupIdsExhausted)).trace 1) := by
      intro hall
      cases (hcomplete hall).2
    simp only [AllStarted, not_forall, not_not] at hbroken
    obtain ⟨c, e, hmem⟩ := hbroken
    obtain ⟨before, later, htrace⟩ := List.append_of_mem hmem
    obtain ⟨he, hstopped⟩ := hfailed before c e later htrace
    obtain rfl := Except.error.inj he
    exact ⟨_, before, c, later, rfl, htrace, rfl, hstopped, hgone⟩

end Run

end Promptline
