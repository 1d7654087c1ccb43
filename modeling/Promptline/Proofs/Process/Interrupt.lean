import Promptline.Proofs.Process.Runs

set_option autoImplicit false

/-! # Stopping a statement that runs

While a statement runs, others may stop the processes of its group. That reaches everything that was
started and runs still (`stopped_reaches`), but nothing keeps in mind that it happened: when the
processes have exited, each lane starts its next command. So there is a start behind the stop
whenever a command is left that could be started (`stopped_goes_on`). -/

namespace Promptline

open Asked

variable {σ : Type}

/-! ## What a stop does -/

namespace Host

/-- The host as others call it: what they ask is not in the trace of the statement. -/
def unseen (host : Host σ) : Host (σ × List Asked) where
  start c t s :=
    let (answer, state) := host.start c t s.1
    (answer, state, s.2)
  poll h s :=
    let (answer, state) := host.poll h s.1
    (answer, state, s.2)
  terminate h s := (host.terminate h s.1, s.2)

theorem terminateAll_unseen (host : Host σ) (handles : List Handle) (s : σ × List Asked) :
    host.unseen.terminateAll handles s = (host.terminateAll handles s.1, s.2) := by
  induction handles generalizing s with
  | nil => rfl
  | cons handle rest ih => exact ih (host.unseen.terminate handle s)

end Host

namespace Execution

variable {host : Host σ} {exit? : Handle → σ → Option Int} {plans : List (List Command)}
  {x y : Execution (σ × List Asked)}

/-- Somebody stops the group of the statement. -/
def stopped (host : Host σ) (x : Execution (σ × List Asked)) : Execution (σ × List Asked) :=
  { x with session := (x.session.terminateGroup host.unseen x.group).2 }

/-- To the statement, a stop is processes that exit. -/
theorem elapsed_stopped (hhost : host.Steady exit?) (x : Execution (σ × List Asked)) :
    Elapsed exit? x (x.stopped host) where
  group := rfl
  stages := rfl
  phase := rfl
  trace := by
    show (host.unseen.terminateAll _ x.session.host).2 = _
    rw [Host.terminateAll_unseen]
  members := rfl
  later := by
    show Host.Later exit? x.session.host.1 (host.unseen.terminateAll _ x.session.host).1
    rw [Host.terminateAll_unseen]
    exact hhost.terminateAll _ _

/-- **A stop reaches everything that was started**, as long as commands are being started. -/
theorem stopped_reaches (host : Host σ) (h : x.Sound exit? plans)
    (hrunning : x.phase.isRunning = true) :
    (x.stopped host).session.host.1 =
      host.terminateAll (spawned x.session.host.2) x.session.host.1 := by
  obtain ⟨-, hphase⟩ := h
  cases hx : x.phase with
  | running lanes =>
      rw [hx] at hphase
      obtain ⟨courses, -, hgoing⟩ := hphase
      have hhandles : (x.session.table.handles? x.group).getD [] = spawned x.session.host.2 :=
        hgoing.filled.getD_handles?
      show (host.unseen.terminateAll ((x.session.table.handles? x.group).getD [])
        x.session.host).1 = _
      rw [Host.terminateAll_unseen, hhandles]
  | waiting wait failure => rw [hx] at hrunning; cases hrunning
  | finished answer => rw [hx] at hrunning; cases hrunning

end Execution

/-! ## What is started behind a moment -/

section Moments

variable {plans : List (List Command)} {failure : Option ProcessError}
  {trace before : List Asked}

/-- The next command behind a moment could not be started, or one could not be already. -/
def BreaksOff (before trace : List Asked) : Prop :=
  ∃ front c e rest, trace = front ++ start c (.error e) :: rest ∧ starts front <+: starts before

/-- No command is started behind a moment by which it was not: those that are started were to be
    started by then. -/
theorem InOrder.quiet_behind_iff (h : InOrder plans trace) (hbefore : before <+: trace) :
    (∀ c ∈ plans.flatten, (∀ handle, start c (.ok handle) ∉ before) →
        ∀ handle, start c (.ok handle) ∉ trace) ↔
      ∀ c handle, start c (.ok handle) ∈ trace → c ∈ starts before := by
  constructor
  · intro hquiet c handle hmem
    have hplanned : c ∈ plans.flatten := h.planned c (mem_starts.2 ⟨_, hmem⟩)
    by_contra hnever
    exact hquiet c hplanned (fun other hother => hnever (mem_starts.2 ⟨_, hother⟩)) handle hmem
  · intro hstarted c _ hnever handle hmem
    obtain ⟨answer, hstart⟩ := mem_starts.1 (hstarted c handle hmem)
    obtain rfl := start_unique h.once (hbefore.subset hstart) hmem
    exact hnever handle hstart

/-- If all that is started was to be started by some moment, nothing is to be started behind it. -/
theorem starts_eq_nil {more : List Asked} (honce : (starts (before ++ more)).Nodup)
    (hall : AllStarted more)
    (hstarted : ∀ c handle, start c (.ok handle) ∈ more → c ∈ starts before) :
    starts more = [] := by
  rw [starts_append] at honce
  obtain ⟨-, -, hapart⟩ := List.nodup_append.1 honce
  refine List.eq_nil_iff_forall_not_mem.2 fun c hc => ?_
  obtain ⟨answer, hmem⟩ := mem_starts.1 hc
  cases answer with
  | error e => exact hall c e hmem
  | ok handle => exact hapart c (hstarted c handle hmem) c hc rfl

/-- **When nothing is started behind a moment** of a run that ends: everything was to be started by
    then, or the next command cannot be. -/
theorem Settled.started_by_iff (h : Settled plans failure trace) (hbefore : before <+: trace) :
    (∀ c handle, start c (.ok handle) ∈ trace → c ∈ starts before) ↔
      (∀ c ∈ plans.flatten, c ∈ starts before) ∨ BreaksOff before trace := by
  constructor
  · intro hstarted
    cases failure with
    | none =>
        obtain ⟨hall, hperm⟩ := h.complete rfl
        refine Or.inl fun c hc => ?_
        obtain ⟨answer, hmem⟩ := mem_starts.1 (hperm.mem_iff.2 hc)
        cases answer with
        | error e => exact absurd hmem (hall c e)
        | ok handle => exact hstarted c handle hmem
    | some e =>
        obtain ⟨front, c, rest, htrace, hall, -⟩ := h.stopped e rfl
        refine Or.inr ⟨front, c, e, rest, htrace, ?_⟩
        have hfront : front <+: trace := htrace ▸ List.prefix_append _ _
        rcases List.prefix_or_prefix_of_prefix hfront hbefore with hearly | ⟨more, rfl⟩
        · exact hearly.filterMap _
        · -- the moment is in front of the failure, and nothing is started in between
          have hmore : starts more = [] :=
            starts_eq_nil (h.order.once.sublist (hfront.filterMap _).sublist)
              (fun d e' hmem => hall d e' (List.mem_append_right _ hmem))
              fun d handle hmem =>
                hstarted d handle (hfront.subset (List.mem_append_right _ hmem))
          exact ⟨[], by rw [List.append_nil, starts_append, hmore, List.append_nil]⟩
  · rintro (hall | ⟨front, d, e, rest, htrace, hfront⟩) c handle hmem
    · exact hall c (h.order.planned c (mem_starts.2 ⟨_, hmem⟩))
    · have hquiet := h.stopsAtFailure front d e rest htrace
      rw [htrace] at hmem
      rcases List.mem_append.1 hmem with hearly | hlate
      · exact hfront.subset (mem_starts.2 ⟨_, hearly⟩)
      · rcases List.mem_cons.1 hlate with hfailed | hlater
        · cases hfailed
        · exact absurd hlater (hquiet c _)

end Moments

/-! ## Runs with a stop -/

namespace Run

section Stops

variable {host : Host σ} {exit? : Handle → σ → Option Int} {statement : Statement}
  (run : Run host exit? statement) {m n : Nat}

/-- Somebody stops the group of the statement in front of a round. -/
def StoppedAt (n : Nat) : Prop :=
  ∃ x y, Elapsed exit? (run.state n) x ∧ Elapsed exit? (x.stopped host) y ∧
    run.state (n + 1) = y.poll host.traced

variable (hhost : host.Steady exit?) (hfits : statement.size ≤ ProcessError.limit)
include hhost hfits

/-- **A statement that is stopped goes on**, with all that was started told to exit.

    No command is started behind a moment of a run that ends, whether the group was stopped then or
    not, if and only if by that moment everything was to be started, or the next command cannot be
    started. -/
theorem stopped_goes_on (hstopped : run.StoppedAt n) (hends : (run.state m).answer?.isSome) :
    ((run.state n).phase.isRunning = true → ∃ state, Host.Later exit? (run.world n) state ∧
        Host.Later exit? (host.terminateAll (spawned (run.trace n)) state) (run.world (n + 1))) ∧
      ∀ before, before <+: run.trace m →
        ((∀ c ∈ (statement.number 0).commands, (∀ h, Asked.start c (.ok h) ∉ before) →
            ∀ h, Asked.start c (.ok h) ∉ run.trace m) ↔
          (∀ c ∈ (statement.number 0).commands, c ∈ starts before) ∨
            BreaksOff before (run.trace m)) := by
  constructor
  · intro hrunning
    obtain ⟨x, y, hbefore, hbehind, hstate⟩ := hstopped
    have hreaches := Execution.stopped_reaches host
      ((run.sound hhost hfits n).elapsed hbefore) (hbefore.phase ▸ hrunning)
    rw [hbefore.trace] at hreaches
    have hround := (kept_later hhost.traced y.group).round
    rw [← hstate] at hround
    exact ⟨x.session.host.1, hbefore.later, hreaches ▸ hbehind.later.trans hround⟩
  · intro before hbefore
    obtain ⟨answer, hanswer⟩ := Option.isSome_iff_exists.1 hends
    obtain ⟨failure, codes, hsettled, -⟩ := (run.finished hhost hfits hanswer).ending
    rw [← Statement.flatten_lanes]
    exact (hsettled.order.quiet_behind_iff hbefore).trans (hsettled.started_by_iff hbefore)

end Stops

/-! ## One stop -/

section Once

variable {host : Host σ} {exit? : Handle → σ → Option Int} (hhost : host.Steady exit?)
  {statement : Statement} {s : Session (σ × List Asked)} {x : Execution (σ × List Asked)}
  (hbegins : (s.begin statement).1 = .ok x) (huntraced : s.host.2 = [])
  (hfresh : s.table.group? x.group = none) (moment : Nat)

/-- The run of a statement that is stopped once, and nothing else happens. -/
def stoppedOnce : Run host exit? statement :=
  .disturbed host exit? hbegins huntraced hfresh
    (fun n y => if n = moment then y.stopped host else y) fun n y => by
      split
      · exact Execution.elapsed_stopped hhost y
      · exact .refl exit? y

theorem stoppedAt_stoppedOnce :
    (stoppedOnce hhost hbegins huntraced hfresh moment).StoppedAt moment := by
  refine ⟨_, _, .refl exit? _, .refl exit? _, ?_⟩
  show Execution.poll (if moment = moment then _ else _) host.traced = _
  rw [if_pos rfl]
  rfl

end Once

/-- A rehearsal of two commands that run until they are stopped, which happens in front of the
    second round. -/
def stoppedRehearsal (statement : Statement) :
    Run Rehearsal.host Rehearsal.exitCode? statement :=
  .stoppedOnce Rehearsal.steady_host
    (s := ⟨({ Rehearsal.State.empty with
      plans := [.run ⟨0, none, 137⟩, .run ⟨0, none, 137⟩] }, []), .empty, []⟩) rfl rfl rfl 1

/-- Two commands, one beside the other. -/
def twoBeside : Statement :=
  .pipeline { processes := [⟨[⟨.shell "a", {}, none⟩]⟩, ⟨[⟨.shell "b", {}, none⟩]⟩] }

/-- Two commands, one behind the other. -/
def twoInRow : Statement :=
  .process ⟨[⟨.shell "a", {}, none⟩, ⟨.shell "b", {}, none⟩]⟩

/-- Both were started before the stop, and it ends the statement. -/
theorem stopped_goes_on_beside :
    (stoppedRehearsal twoBeside).StoppedAt 1 ∧
      ((stoppedRehearsal twoBeside).state 2).answer? = some (.ok 137) ∧
      (∃ state, Host.Later Rehearsal.exitCode? (Rehearsal.host.terminateAll [0, 1] state)
        ((stoppedRehearsal twoBeside).world 2)) ∧
      ∀ c ∈ (twoBeside.number 0).commands,
        (∀ h, Asked.start c (.ok h) ∉ (stoppedRehearsal twoBeside).trace 1) →
          ∀ h, Asked.start c (.ok h) ∉ (stoppedRehearsal twoBeside).trace 2 := by
  have hstopped : (stoppedRehearsal twoBeside).StoppedAt 1 := stoppedAt_stoppedOnce _ _ _ _ 1
  obtain ⟨hreaches, hquiet⟩ := (stoppedRehearsal twoBeside).stopped_goes_on
    Rehearsal.steady_host (by decide) hstopped (m := 2) rfl
  obtain ⟨state, -, hstate⟩ := hreaches rfl
  have hall : starts ((stoppedRehearsal twoBeside).trace 1) = (twoBeside.number 0).commands := rfl
  refine ⟨hstopped, rfl, ⟨state, hstate⟩, ?_⟩
  exact (hquiet _ ((stoppedRehearsal twoBeside).trace_later (by decide))).2
    (Or.inl fun c hc => hall ▸ hc)

/-- **The second command is started behind the stop**, which made the first one exit. -/
theorem started_behind_stop :
    (stoppedRehearsal twoInRow).StoppedAt 1 ∧ ∃ c ∈ (twoInRow.number 0).commands,
      (∀ h, Asked.start c (.ok h) ∉ (stoppedRehearsal twoInRow).trace 1) ∧
        ∃ h, Asked.start c (.ok h) ∈ (stoppedRehearsal twoInRow).trace 2 := by
  have hfirst : (stoppedRehearsal twoInRow).trace 1 =
      [.start ⟨.shell "a", {}, some 0⟩ (.ok 0), .poll 0 none] := rfl
  have hsecond : (stoppedRehearsal twoInRow).trace 2 =
      (stoppedRehearsal twoInRow).trace 1 ++ [.poll 0 (some 137),
        .start ⟨.shell "b", {}, some 1⟩ (.ok 1), .poll 1 none] := rfl
  refine ⟨stoppedAt_stoppedOnce _ _ _ _ 1, ⟨.shell "b", {}, some 1⟩, ?_, ?_, 1, ?_⟩
  · exact List.mem_cons_of_mem _ List.mem_cons_self
  · intro h hmem
    rw [hfirst] at hmem
    simp at hmem
  · rw [hsecond]
    simp

end Run

end Promptline
