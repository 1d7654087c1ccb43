import Mathlib.Data.List.Induction
import Promptline.Proofs.Process.Runs

set_option autoImplicit false

/-! # Which failure comes first

A statement answers with the first exit code that is not zero, in the order in which its commands
were started. That order is open, but not wholly: in the first round each lane has a turn, from left
to right, and starts its first command then, with as many behind it as exit at once
(`Execution.first_round`). So a failure comes first only if it is the first one of its lane, and no
lane in front of that one begins with a failure (`Run.mayFailFirst`). -/

namespace Promptline

open Asked

variable {σ : Type}

/-! ## Exit codes -/

theorem firstFailure_eq_zero_iff {codes : List Int} :
    firstFailure codes = 0 ↔ ∀ code ∈ codes, code = 0 := by
  unfold firstFailure
  cases hfound : codes.find? (· != 0) with
  | none => simpa using hfound
  | some code =>
      have hcode : code ≠ 0 := by simpa using List.find?_some hfound
      refine iff_of_false hcode fun hall => hcode ?_
      exact hall code (List.mem_of_find?_eq_some hfound)

theorem firstFailure_append_of_eq_zero {codes : List Int} (h : firstFailure codes = 0)
    (more : List Int) : firstFailure (codes ++ more) = firstFailure more := by
  rw [firstFailure_append, GroupWait.combine, if_pos h]

theorem firstFailure_append_of_ne_zero {codes : List Int} (h : firstFailure codes ≠ 0)
    (more : List Int) : firstFailure (codes ++ more) = firstFailure codes := by
  rw [firstFailure_append, GroupWait.combine, if_neg h]

theorem firstFailure_cons_of_ne_zero {code : Int} (h : code ≠ 0) (more : List Int) :
    firstFailure (code :: more) = code := by
  simp [firstFailure, h]

/-- The first failure, and what is in front of it. -/
theorem exists_of_firstFailure_ne_zero {code : Command → Int} {commands : List Command}
    (h : firstFailure (commands.map code) ≠ 0) :
    ∃ front c back, commands = front ++ c :: back ∧ (∀ d ∈ front, code d = 0) ∧
      code c = firstFailure (commands.map code) := by
  induction commands with
  | nil => exact absurd rfl h
  | cons c rest ih =>
      by_cases hzero : code c = 0
      · have hc : firstFailure [code c] = 0 := firstFailure_eq_zero_iff.2 (by simpa using hzero)
        have hrest : firstFailure ((c :: rest).map code) = firstFailure (rest.map code) :=
          firstFailure_append_of_eq_zero hc _
        obtain ⟨front, d, back, rfl, hfront, hd⟩ := ih (hrest ▸ h)
        refine ⟨c :: front, d, back, rfl, ?_, hd.trans hrest.symm⟩
        exact List.forall_mem_cons.2 ⟨hzero, hfront⟩
      · refine ⟨[], c, rest, rfl, nofun, ?_⟩
        rw [List.map_cons, firstFailure_cons_of_ne_zero hzero]

/-- A failure may come first in lanes with such exit codes: it is the first of its lane, and no lane
    in front of that one begins with a failure. -/
def MayFailFirst (code : Command → Int) (plans : List (List Command)) (failure : Int) : Prop :=
  failure ≠ 0 ∧ ∃ pre plan post, plans = pre ++ plan :: post ∧
    (∀ p ∈ pre, ∀ c ∈ p.head?, code c = 0) ∧ firstFailure (plan.map code) = failure

/-- Without a failure none comes first. -/
theorem not_mayFailFirst {code : Command → Int} {plans : List (List Command)}
    (h : firstFailure (plans.flatten.map code) = 0) (failure : Int) :
    ¬ MayFailFirst code plans failure := by
  rintro ⟨hfailure, pre, plan, post, rfl, -, rfl⟩
  rw [firstFailure_eq_zero_iff] at h
  refine hfailure (firstFailure_eq_zero_iff.2 fun exit hexit => h exit ?_)
  obtain ⟨c, hc, rfl⟩ := List.mem_map.1 hexit
  exact List.mem_map_of_mem (by simp [hc])

/-- The first failure in the order of the stages may come first. -/
theorem mayFailFirst_flatten {code : Command → Int} {plans : List (List Command)}
    (h : firstFailure (plans.flatten.map code) ≠ 0) :
    MayFailFirst code plans (firstFailure (plans.flatten.map code)) := by
  refine ⟨h, ?_⟩
  induction plans with
  | nil => exact absurd rfl h
  | cons plan rest ih =>
      rw [List.flatten_cons, List.map_append] at h ⊢
      by_cases hplan : firstFailure (plan.map code) = 0
      · rw [firstFailure_append_of_eq_zero hplan] at h ⊢
        obtain ⟨pre, p, post, rfl, hpre, hp⟩ := ih h
        refine ⟨plan :: pre, p, post, rfl, List.forall_mem_cons.2 ⟨fun c hc => ?_, hpre⟩, hp⟩
        exact firstFailure_eq_zero_iff.1 hplan _ (List.mem_map_of_mem (List.mem_of_mem_head? hc))
      · rw [firstFailure_append_of_ne_zero hplan]
        exact ⟨[], plan, rest, rfl, nofun, rfl⟩

/-! ## The first round -/

/-- The first turn of a lane: the commands that were started, and the lane behind it. -/
structure Opening where
  started : List Command
  lane : Lane
  /-- If there are commands, one was started. -/
  opens : started = [] → lane.waiting = []

namespace Opening

/-- All commands of the lane. -/
def plan (x : Opening) : List Command :=
  x.started ++ x.lane.waiting

theorem mem_started_of_head? {x : Opening} {c : Command} (hc : c ∈ x.plan.head?) :
    c ∈ x.started := by
  unfold plan at hc
  cases hstarted : x.started with
  | nil =>
      rw [hstarted, x.opens hstarted] at hc
      cases hc
  | cons d rest =>
      rw [hstarted] at hc
      obtain rfl := Option.some.inj hc
      exact List.mem_cons_self

section Failures

variable {code : Command → Int} {openings : List Opening}

/-- A failure in the first round may come first. -/
theorem mayFailFirst (h : firstFailure ((openings.flatMap started).map code) ≠ 0) :
    MayFailFirst code (openings.map plan)
      (firstFailure ((openings.flatMap started).map code)) := by
  refine ⟨h, ?_⟩
  induction openings with
  | nil => exact absurd rfl h
  | cons x rest ih =>
      rw [List.flatMap_cons, List.map_append] at h ⊢
      by_cases hx : firstFailure (x.started.map code) = 0
      · rw [firstFailure_append_of_eq_zero hx] at h ⊢
        obtain ⟨pre, p, post, hrest, hpre, hp⟩ := ih h
        refine ⟨x.plan :: pre, p, post, by rw [List.map_cons, hrest]; rfl, ?_, hp⟩
        refine List.forall_mem_cons.2 ⟨fun c hc => ?_, hpre⟩
        exact firstFailure_eq_zero_iff.1 hx _ (List.mem_map_of_mem (mem_started_of_head? hc))
      · rw [firstFailure_append_of_ne_zero hx]
        refine ⟨[], x.plan, rest.map plan, rfl, nofun, ?_⟩
        rw [plan, List.map_append, firstFailure_append_of_ne_zero hx]

/-- If there is no failure in the first round, no lane begins with one. -/
theorem head_eq_zero (h : firstFailure ((openings.flatMap started).map code) = 0) :
    ∀ p ∈ openings.map plan, ∀ c ∈ p.head?, code c = 0 := by
  intro p hp c hc
  obtain ⟨x, hx, rfl⟩ := List.mem_map.1 hp
  refine firstFailure_eq_zero_iff.1 h _ (List.mem_map_of_mem ?_)
  exact List.mem_flatMap.2 ⟨x, hx, mem_started_of_head? hc⟩

end Failures

end Opening

section FirstRound

variable {host : Host σ} {group : UInt16} {s s' : Session (σ × List Asked)}

/-- **The first turn of a lane.** -/
theorem starts_advance {waiting : List Command} {lane : Lane}
    (h : Lane.advance host.traced group s waiting = (.ok lane, s')) :
    ∃ x : Opening, x.plan = waiting ∧ x.lane = lane ∧
      starts s'.host.2 = starts s.host.2 ++ x.started := by
  induction waiting generalizing s with
  | nil =>
      obtain ⟨hlane, rfl⟩ := Prod.mk.inj h
      obtain rfl := Except.ok.inj hlane
      exact ⟨⟨[], ⟨none, []⟩, fun _ => rfl⟩, rfl, rfl, (List.append_nil _).symm⟩
  | cons c rest ih =>
      obtain ⟨handle, s₁, hstart, hgoes⟩ := Lane.advance_cons_ok h
      have htrace := Host.asked_start (Session.startIn_ok hstart)
      rcases hgoes with ⟨state, hpoll, rfl, rfl⟩ | ⟨code, state, hpoll, hrest⟩
      · have hasked := Host.asked_poll hpoll
        refine ⟨⟨[c], ⟨some (c, handle), rest⟩, (absurd · (List.cons_ne_nil c []))⟩, rfl, rfl, ?_⟩
        rw [hasked, starts_append, starts_poll, List.append_nil, htrace, starts_append,
          starts_start]
      · have hasked := Host.asked_poll hpoll
        obtain ⟨x, rfl, rfl, hstarts⟩ := ih hrest
        refine ⟨⟨c :: x.started, x.lane, (absurd · (List.cons_ne_nil c x.started))⟩, rfl, rfl, ?_⟩
        rw [hstarts, Session.note, hasked, starts_append, starts_poll, List.append_nil, htrace,
          starts_append, starts_start, List.append_assoc]
        rfl

/-- **The first round**: a turn for each lane, from left to right. -/
theorem starts_pollAll {plans : List (List Command)} {lanes : List Lane}
    (h : Lane.pollAll host.traced group s (plans.map Lane.start) = (.ok lanes, s')) :
    ∃ openings : List Opening, openings.map Opening.plan = plans ∧
      openings.map Opening.lane = lanes ∧
      starts s'.host.2 = starts s.host.2 ++ openings.flatMap Opening.started := by
  induction plans generalizing s lanes with
  | nil =>
      obtain ⟨hlanes, rfl⟩ := Prod.mk.inj h
      obtain rfl := Except.ok.inj hlanes
      exact ⟨[], rfl, rfl, (List.append_nil _).symm⟩
  | cons plan rest ih =>
      obtain ⟨lane, s₁, others, hfirst, hothers, rfl⟩ := Lane.pollAll_cons_ok h
      obtain ⟨x, rfl, rfl, hx⟩ := starts_advance hfirst
      obtain ⟨openings, rfl, rfl, hopenings⟩ := ih hothers
      refine ⟨x :: openings, rfl, rfl, ?_⟩
      rw [hopenings, hx, List.flatMap_cons, List.append_assoc]

end FirstRound

/-- **The first round of a statement** whose commands all can be started. -/
theorem Execution.first_round {host : Host σ} {exit? : Handle → σ → Option Int}
    {plans : List (List Command)} {x : Execution (σ × List Asked)}
    (hdistinct : plans.flatten.Nodup) (hfits : plans.flatten.length ≤ ProcessError.limit)
    (hsound : x.Sound exit? plans) (hx : x.phase = .running (plans.map Lane.start))
    (huntraced : x.session.host.2 = []) (hall : AllStarted (x.poll host.traced).session.host.2) :
    ∃ (openings : List Opening) (s : _), openings.map Opening.plan = plans ∧
      Lane.pollAll host.traced x.group x.session (plans.map Lane.start) =
        (.ok (openings.map Opening.lane), s) ∧
      openings.flatMap Opening.started <+: starts (x.poll host.traced).session.host.2 := by
  have hbehind := (kept_trace host x.group).behind_lanes hx
  obtain ⟨-, hphase⟩ := hsound
  rw [hx] at hphase
  obtain ⟨courses, hlanes, hgoing⟩ := hphase
  have hround := leads_pollAll host hdistinct hfits
    (show Going plans x.group ([] ++ courses) x.session from hgoing)
  rw [hlanes] at hround
  rcases hpoll : Lane.pollAll host.traced x.group x.session (plans.map Lane.start) with
    ⟨e | lanes, s⟩
  · rw [hpoll] at hround hbehind
    obtain ⟨before, c, htrace, -⟩ := hround.failure
    refine absurd (hbehind.subset ?_) (hall c e)
    rw [htrace]
    exact List.mem_append_right _ List.mem_cons_self
  · rw [hpoll] at hbehind
    obtain ⟨openings, hplans, rfl, hstarts⟩ := starts_pollAll hpoll
    refine ⟨openings, s, hplans, rfl, ?_⟩
    rw [huntraced] at hstarts
    have hround : starts s.host.2 = openings.flatMap Opening.started := hstarts
    exact hround ▸ hbehind.filterMap _

/-! ## The order of failures -/

section Order

variable {plans : List (List Command)} {trace : List Asked}

/-- Where a command stands among those that were to be started. -/
theorem exists_start_of_starts {front back : List Command} {c : Command}
    (h : starts trace = front ++ c :: back) :
    ∃ before answer later, trace = before ++ start c answer :: later ∧ starts before = front := by
  obtain ⟨first, second, rfl, hfront, hback⟩ := List.filterMap_eq_append_iff.1 h
  obtain ⟨quiet, asked, later, rfl, hquiet, hasked, -⟩ := List.filterMap_eq_cons_iff.1 hback
  cases asked with
  | start c' answer =>
      obtain rfl := Option.some.inj hasked
      refine ⟨first ++ quiet, answer, later, by simp, ?_⟩
      have hnothing : starts quiet = [] := List.filterMap_eq_nil_iff.2 hquiet
      rw [starts_append, hnothing, List.append_nil]
      exact hfront
  | poll => cases hasked
  | terminate => cases hasked

/-- What stands in front of a command in its lane was started before it. -/
theorem StartsBehind.started (h : StartsBehind plans trace) {plan done rest : List Command}
    {c : Command} (hplan : plan ∈ plans) (hdivide : plan = done ++ c :: rest)
    {before later : List Asked} {answer : Except ProcessError Handle}
    (htrace : trace = before ++ start c answer :: later) : ∀ d ∈ done, d ∈ starts before := by
  induction done using List.reverseRecOn generalizing c rest before later answer with
  | nil => nofun
  | append_singleton done d ih =>
      have hpair : [d, c] <:+: plan := ⟨done, rest, by simp [hdivide]⟩
      obtain ⟨handle, code, hexited⟩ := h plan hplan d c hpair before answer later htrace
      have hstart : start d (.ok handle) ∈ before := hexited.subset List.mem_cons_self
      obtain ⟨before', later', rfl⟩ := List.append_of_mem hstart
      have hdivide' : plan = done ++ d :: c :: rest := by simp [hdivide]
      have htrace' : trace =
          before' ++ start d (.ok handle) :: (later' ++ start c answer :: later) := by
        rw [htrace, List.append_assoc]
        rfl
      have hdone := ih hdivide' htrace'
      intro b hb
      rcases List.mem_append.1 hb with hb | hb
      · rw [starts_append]
        exact List.mem_append_left _ (hdone b hb)
      · obtain rfl := List.mem_singleton.1 hb
        exact mem_starts.2 ⟨_, hstart⟩

/-- **The first failure may come first.** -/
theorem InOrder.mayFailFirst (h : InOrder plans trace) {openings : List Opening}
    (hplans : openings.map Opening.plan = plans)
    (hround : openings.flatMap Opening.started <+: starts trace) {code : Command → Int}
    (hfailure : firstFailure ((starts trace).map code) ≠ 0) :
    MayFailFirst code plans (firstFailure ((starts trace).map code)) := by
  by_cases hquiet : firstFailure ((openings.flatMap Opening.started).map code) = 0
  · -- no lane begins with a failure, so it is enough that the failure is the first of its lane
    obtain ⟨front, c, back, hstarts, hfront, hc⟩ := exists_of_firstFailure_ne_zero hfailure
    obtain ⟨before, answer, later, htrace, rfl⟩ := exists_start_of_starts hstarts
    have hmem : c ∈ starts trace := hstarts ▸ List.mem_append_right _ List.mem_cons_self
    obtain ⟨plan, hplan, hcplan⟩ := List.mem_flatten.1 (h.planned c hmem)
    obtain ⟨done, rest, hdivide⟩ := List.append_of_mem hcplan
    obtain ⟨pre, post, hsplit⟩ := List.append_of_mem hplan
    refine ⟨hfailure, pre, plan, post, hsplit, fun p hp => ?_, ?_⟩
    · refine Opening.head_eq_zero hquiet p ?_
      rw [hplans, hsplit]
      exact List.mem_append_left _ hp
    · have hdone : firstFailure (done.map code) = 0 := by
        refine firstFailure_eq_zero_iff.2 fun exit hexit => ?_
        obtain ⟨d, hd, rfl⟩ := List.mem_map.1 hexit
        exact hfront d (h.behind.started hplan hdivide htrace d hd)
      rw [hdivide, List.map_append, firstFailure_append_of_eq_zero hdone, List.map_cons,
        firstFailure_cons_of_ne_zero (hc ▸ hfailure), hc]
  · obtain ⟨more, hmore⟩ := hround
    rw [← hmore, List.map_append, firstFailure_append_of_ne_zero hquiet, ← hplans]
    exact Opening.mayFailFirst hquiet

end Order

/-! ## Answers -/

/-- What processes have exited with, if each exits with the code of its command. -/
theorem map_exit_spawned {exit? : Handle → σ → Option Int} {state : σ} {trace : List Asked}
    {code : Command → Int} (hall : AllStarted trace)
    (hcodes : ∀ c h, start c (.ok h) ∈ trace → exit? h state = some (code c)) :
    ExitedWith exit? state (spawned trace) ((starts trace).map code) := by
  unfold ExitedWith
  induction trace with
  | nil => rfl
  | cons asked rest ih =>
      have hrest := ih (fun c e hmem => hall c e (List.mem_cons_of_mem _ hmem))
        fun c h hmem => hcodes c h (List.mem_cons_of_mem _ hmem)
      match asked with
      | start c (.ok handle) =>
          show exit? handle state :: (spawned rest).map (exit? · state) =
            some (code c) :: ((starts rest).map code).map some
          rw [hcodes c handle List.mem_cons_self, hrest]
      | start c (.error e) => exact absurd List.mem_cons_self (hall c e)
      | poll _ _ => exact hrest
      | terminate _ => exact hrest

namespace Run

section Answers

variable {host : Host σ} {exit? : Handle → σ → Option Int} {statement : Statement}
  {run : Run host exit? statement} {code : Command → Int} {n : Nat} {answer : Int}

/-- The statement has ended with an exit code, and every process with the code of its command. -/
structure EndsWith (run : Run host exit? statement) (code : Command → Int) (n : Nat)
    (answer : Int) : Prop where
  answer : (run.state n).answer? = some (.ok answer)
  codes : ∀ c h, Asked.start c (.ok h) ∈ run.trace n → exit? h (run.world n) = some (code c)

/-- A statement begins with all its lanes before it, and nothing asked. -/
theorem begins_running (run : Run host exit? statement) :
    (run.state 0).phase = .running ((statement.number 0).lanes.map Lane.start) ∧
      run.trace 0 = [] := by
  obtain ⟨hhost, -, -, hphase⟩ := Execution.begin_ok run.begins
  exact ⟨hphase, (congrArg Prod.snd hhost).trans run.untraced⟩

theorem pos_of_answer (h : (run.state n).answer?.isSome) : 0 < n := by
  refine Nat.pos_of_ne_zero ?_
  rintro rfl
  rw [Execution.answer?, run.begins_running.1] at h
  cases h

variable (hhost : host.Steady exit?) (hfits : statement.size ≤ ProcessError.limit)
include hhost hfits

/-- The answer is the first failure in the order of the starts, of which none was left out. -/
theorem EndsWith.starts (h : run.EndsWith code n answer) :
    AllStarted (run.trace n) ∧ InOrder (statement.number 0).lanes (run.trace n) ∧
      (starts (run.trace n)).Perm (statement.number 0).commands ∧
      answer = firstFailure ((starts (run.trace n)).map code) := by
  obtain ⟨failure, codes, hsettled, hexited, hanswer⟩ :=
    (run.finished hhost hfits h.answer).ending
  cases failure with
  | some e => cases hanswer
  | none =>
      obtain ⟨hall, hperm⟩ := hsettled.complete rfl
      obtain rfl := Except.ok.inj hanswer
      have hcodes : codes.map some = ((Asked.starts (run.trace n)).map code).map some :=
        hexited.symm.trans (map_exit_spawned hall h.codes)
      rw [List.map_inj_right fun _ _ => Option.some.inj] at hcodes
      rw [Statement.flatten_lanes] at hperm
      exact ⟨hall, hsettled.order, hperm, congrArg firstFailure hcodes⟩

/-- The commands that are started first. -/
theorem first_round (run : Run host exit? statement) (hall : AllStarted (run.trace n))
    (hn : 0 < n) :
    ∃ openings : List Opening, openings.map Opening.plan = (statement.number 0).lanes ∧
      openings.flatMap Opening.started <+: Asked.starts (run.trace n) := by
  obtain ⟨x, helapsed, hstate⟩ := run.round 0
  obtain ⟨hrunning, huntraced⟩ := run.begins_running
  have hlater : (x.poll host.traced).session.host.2 <+: run.trace n :=
    hstate ▸ run.trace_later hn
  obtain ⟨openings, -, hplans, -, hround⟩ := Execution.first_round
    (statement.nodup_lanes_number 0) ((statement.length_lanes_number 0).symm ▸ hfits)
    ((run.sound hhost hfits 0).elapsed helapsed) (helapsed.phase.trans hrunning)
    (helapsed.trace.trans huntraced) fun c e hmem => hall c e (hlater.subset hmem)
  exact ⟨openings, hplans, hround.trans (hlater.filterMap _)⟩

/-- **The answer is a failure that may come first**, unless there is no such failure. -/
theorem EndsWith.mayFailFirst (h : run.EndsWith code n answer) :
    MayFailFirst code (statement.number 0).lanes answer ∨
      answer = 0 ∧ ∀ failure, ¬ MayFailFirst code (statement.number 0).lanes failure := by
  obtain ⟨hall, horder, hperm, hanswer⟩ := h.starts hhost hfits
  by_cases hzero : answer = 0
  · refine Or.inr ⟨hzero, not_mayFailFirst (firstFailure_eq_zero_iff.2 fun exit hexit => ?_)⟩
    rw [Statement.flatten_lanes] at hexit
    obtain ⟨c, hc, rfl⟩ := List.mem_map.1 hexit
    exact firstFailure_eq_zero_iff.1 (hanswer.symm.trans hzero) _
      (List.mem_map_of_mem (hperm.mem_iff.2 hc))
  · obtain ⟨openings, hplans, hround⟩ := run.first_round hhost hfits hall
      (pos_of_answer (Option.isSome_of_eq_some h.answer))
    rw [hanswer] at hzero ⊢
    exact Or.inl (horder.mayFailFirst hplans hround hzero)

end Answers

end Run

end Promptline
