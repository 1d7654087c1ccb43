import Mathlib.Data.List.Nodup
import Mathlib.Data.List.Pairwise
import Mathlib.Data.List.Perm.Subperm
import Promptline.Proofs.Process.Trace

set_option autoImplicit false

/-! # The order in which commands are started

Each lane of a statement has a plan: the commands of the lane, in order. While lanes are under way,
every command of a plan has exited, or is the one that runs, or waits (`Course.Follows`), and what
was to be started, with what waits, is all that is planned (`Underway`). Three things can happen to
a lane: a process is found to run still, a process is found to have exited, and a command is started
behind one that has exited. All of them keep lanes under way, and none starts a command out of order
(`InOrder`). -/

namespace Promptline

open Asked

/-! ## Traces in order -/

/-- No command of a plan is started unless the one in front of it was found to have exited. -/
def StartsBehind (plans : List (List Command)) (trace : List Asked) : Prop :=
  ∀ plan ∈ plans, ∀ c d, [c, d] <:+: plan →
    ∀ before answer later, trace = before ++ start d answer :: later → Exited c before

/-- Nothing but what is planned is started, none of it twice, and each command behind the one in
    front of it. -/
structure InOrder (plans : List (List Command)) (trace : List Asked) : Prop where
  once : (starts trace).Nodup
  planned : ∀ c ∈ starts trace, c ∈ plans.flatten
  behind : StartsBehind plans trace

/-- No command is started behind one that could not be. -/
def StopsAtFailure (trace : List Asked) : Prop :=
  ∀ before c e later, trace = before ++ start c (.error e) :: later → NoStarts later

section Traces

variable {plans : List (List Command)} {trace more : List Asked}

/-- Where a start stands in a longer trace. -/
theorem start_append {c : Command} {answer : Except ProcessError Handle}
    {before later : List Asked} (h : trace ++ more = before ++ start c answer :: later) :
    (∃ later', trace = before ++ start c answer :: later') ∨
      ∃ before', before = trace ++ before' ∧ more = before' ++ start c answer :: later := by
  rcases List.append_eq_append_iff.1 h with ⟨before', hbefore, hmore⟩ | ⟨tail, htrace, htail⟩
  · exact Or.inr ⟨before', hbefore, hmore⟩
  · cases tail with
    | nil => exact Or.inr ⟨[], by simpa using htrace.symm, htail.symm⟩
    | cons asked rest =>
        obtain ⟨rfl, -⟩ := List.cons.inj htail
        exact Or.inl ⟨rest, htrace⟩

theorem StartsBehind.append (h : StartsBehind plans trace) (hmore : NoStarts more) :
    StartsBehind plans (trace ++ more) := by
  intro plan hplan c d hpair before answer later heq
  rcases start_append heq with ⟨later', htrace⟩ | ⟨before', -, hstart⟩
  · exact h plan hplan c d hpair before answer later' htrace
  · have hmem : start d answer ∈ more := hstart ▸ List.mem_append_right _ List.mem_cons_self
    exact absurd hmem (hmore d answer)

/-- Whatever else is asked, what was started was started in order. -/
theorem InOrder.append (h : InOrder plans trace) (hmore : NoStarts more) :
    InOrder plans (trace ++ more) := by
  have hstarts : starts (trace ++ more) = starts trace := by
    rw [starts_append, hmore.starts, List.append_nil]
  refine ⟨?_, fun c hc => ?_, h.behind.append hmore⟩
  · rw [hstarts]
    exact h.once
  · rw [hstarts] at hc
    exact h.planned c hc

theorem Asked.AllStarted.stopsAtFailure (h : AllStarted trace) : StopsAtFailure trace := by
  rintro before c e later rfl
  exact absurd (List.mem_append_right before List.mem_cons_self) (h c e)

/-- There are no more starts than planned. -/
theorem InOrder.length_starts_le (h : InOrder plans trace) :
    (starts trace).length ≤ plans.flatten.length :=
  (List.subperm_of_subset h.once h.planned).length_le

end Traces

/-! ## Lanes under way -/

/-- A lane, and all commands of it. -/
structure Course where
  plan : List Command
  lane : Lane

namespace Course

/-- What was planned is what has exited, what runs, and what waits, in this order. -/
def Follows (trace : List Asked) (x : Course) : Prop :=
  ∃ done, x.plan = done ++ (x.lane.running.map Prod.fst).toList ++ x.lane.waiting ∧
    (∀ c ∈ done, Exited c trace) ∧
    ∀ c h, x.lane.running = some (c, h) → start c (.ok h) ∈ trace

variable {x : Course} {trace : List Asked}

theorem Follows.append (h : x.Follows trace) (more : List Asked) : x.Follows (trace ++ more) := by
  obtain ⟨done, hplan, hdone, hrunning⟩ := h
  refine ⟨done, hplan, fun c hc => (hdone c hc).append more, fun c h hlane => ?_⟩
  exact List.mem_append_left more (hrunning c h hlane)

end Course

/-- Lanes go through plans: all that could not yet be started waits. -/
structure Underway (plans : List (List Command)) (courses : List Course) (trace : List Asked) :
    Prop where
  planned : courses.map Course.plan = plans
  follows : ∀ x ∈ courses, x.Follows trace
  each : (starts trace ++ courses.flatMap (·.lane.waiting)).Perm plans.flatten
  behind : StartsBehind plans trace
  allStarted : AllStarted trace

/-- Lanes before their first command. -/
def Course.ofPlan (plan : List Command) : Course :=
  ⟨plan, .start plan⟩

theorem underway_start (plans : List (List Command)) :
    Underway plans (plans.map Course.ofPlan) [] := by
  refine ⟨?_, ?_, ?_, ?_, allStarted_nil⟩
  · rw [List.map_map]
    exact List.map_id plans
  · intro x hx
    obtain ⟨plan, -, rfl⟩ := List.mem_map.1 hx
    exact ⟨[], rfl, fun _ => (absurd · List.not_mem_nil), nofun⟩
  · rw [List.flatMap_map]
    exact .of_eq List.flatMap_id
  · intro plan _ c d _ before answer later htrace
    exact absurd htrace (by simp)

namespace Underway

variable {plans : List (List Command)} {courses pre post : List Course} {trace : List Asked}
  {plan waiting : List Command} {c : Command} {h : Handle}

/-- Asking for a process changes nothing while it runs. -/
theorem polled (hunder : Underway plans courses trace) (answer : Option Int) :
    Underway plans courses (trace ++ [poll h answer]) := by
  have hquiet := noStarts_poll h answer
  refine ⟨hunder.planned, fun x hx => (hunder.follows x hx).append _, ?_,
    hunder.behind.append hquiet, hunder.allStarted.append hquiet.allStarted⟩
  rw [starts_append, starts_poll, List.append_nil]
  exact hunder.each

/-- What a lane does is no matter to the others. -/
theorem follows_update {lane lane' : Lane} {more : List Asked}
    (hunder : Underway plans (pre ++ ⟨plan, lane⟩ :: post) trace)
    (hlane : Course.Follows (trace ++ more) ⟨plan, lane'⟩) :
    ∀ x ∈ pre ++ ⟨plan, lane'⟩ :: post, x.Follows (trace ++ more) := by
  intro x hx
  rcases List.mem_append.1 hx with hx | hx
  · exact (hunder.follows x (List.mem_append_left _ hx)).append more
  · rcases List.mem_cons.1 hx with rfl | hx
    · exact hlane
    · exact (hunder.follows x (List.mem_append_right _ (List.mem_cons_of_mem _ hx))).append more

/-- **The process of a lane is found to have exited.** -/
theorem exited (hunder : Underway plans (pre ++ ⟨plan, ⟨some (c, h), waiting⟩⟩ :: post) trace)
    (code : Int) :
    Underway plans (pre ++ ⟨plan, ⟨none, waiting⟩⟩ :: post) (trace ++ [poll h (some code)]) := by
  obtain ⟨done, hdivide, hdone, hrunning⟩ := hunder.follows ⟨plan, ⟨some (c, h), waiting⟩⟩
    (List.mem_append_right _ List.mem_cons_self)
  have hpolled := hunder.polled (h := h) (some code)
  refine ⟨?_, hunder.follows_update ?_, ?_, hpolled.behind, hpolled.allStarted⟩
  · rw [← hunder.planned, List.map_append, List.map_append]
    rfl
  · refine ⟨done ++ [c], ?_, ?_, nofun⟩
    · simpa using hdivide
    · intro b hb
      rcases List.mem_append.1 hb with hb | hb
      · exact (hdone b hb).append _
      · obtain rfl := List.mem_singleton.1 hb
        exact exited_of_poll (hrunning b h rfl) code
  · simpa using hpolled.each

section Distinct

variable (hdistinct : plans.flatten.Nodup)
include hdistinct

theorem inOrder (hunder : Underway plans courses trace) : InOrder plans trace := by
  have hall : (starts trace ++ courses.flatMap (·.lane.waiting)).Nodup :=
    hunder.each.nodup_iff.2 hdistinct
  refine ⟨hall.of_append_left, fun c hc => ?_, hunder.behind⟩
  exact hunder.each.mem_iff.1 (List.mem_append_left _ hc)

/-- A command is part of one plan only. -/
theorem plan_eq {p q : List Command} {c : Command} (hp : p ∈ plans) (hq : q ∈ plans) (hcp : c ∈ p)
    (hcq : c ∈ q) : p = q := by
  by_contra hne
  have hsymm : Std.Symm (@List.Disjoint Command) :=
    ⟨fun _ _ hpq c hc hc' => hpq hc' hc⟩
  have hdisjoint : p.Disjoint q := (List.nodup_flatten.1 hdistinct).2.forall hp hq hne
  exact hdisjoint hcp hcq

/-- What stands in front of a command of a plan is among all that does, however the plan is
    divided at the command. -/
theorem mem_of_pair {p done rest : List Command} {b : Command} (hplan : plan ∈ plans)
    (hp : p ∈ plans) (hdivide : plan = done ++ c :: rest) (hpair : [b, c] <:+: p) : b ∈ done := by
  obtain ⟨front, back, hfront⟩ := hpair
  obtain rfl : p = plan := by
    refine plan_eq hdistinct hp hplan (c := c) ?_ ?_
    · rw [← hfront]
      simp
    · rw [hdivide]
      simp
  have hnodup : (done ++ c :: rest).Nodup := hdivide ▸ (List.nodup_flatten.1 hdistinct).1 p hp
  obtain ⟨-, hback, hapart⟩ := List.nodup_append.1 hnodup
  have heq : done ++ c :: rest = (front ++ [b]) ++ c :: back := by
    rw [← hdivide, ← hfront]
    simp
  have hdone : c ∉ done := fun hmem => hapart c hmem c List.mem_cons_self rfl
  have hsplit :=
    (List.append_cons_inj_of_notMem hdone (List.nodup_cons.1 hback).1).1 heq
  rw [hsplit.1]
  simp

/-- **The next command of a lane is started in order**, whether or not it can be started. -/
theorem inOrder_start
    (hunder : Underway plans (pre ++ ⟨plan, ⟨none, c :: waiting⟩⟩ :: post) trace)
    (answer : Except ProcessError Handle) : InOrder plans (trace ++ [start c answer]) := by
  have hcourse : (⟨plan, ⟨none, c :: waiting⟩⟩ : Course) ∈
      pre ++ ⟨plan, ⟨none, c :: waiting⟩⟩ :: post :=
    List.mem_append_right _ List.mem_cons_self
  obtain ⟨done, hdivide, hdone, -⟩ := hunder.follows _ hcourse
  have hplan : plan ∈ plans := hunder.planned ▸ List.mem_map.2 ⟨_, hcourse, rfl⟩
  have hnext : (starts trace ++ [c]).Sublist (starts trace ++
      (pre ++ ⟨plan, ⟨none, c :: waiting⟩⟩ :: post).flatMap (·.lane.waiting)) := by
    refine (List.Sublist.refl _).append (List.singleton_sublist.2 ?_)
    exact List.mem_flatMap.2 ⟨_, hcourse, List.mem_cons_self⟩
  refine ⟨?_, fun b hb => ?_, ?_⟩
  · rw [starts_append, starts_start]
    exact (hunder.each.nodup_iff.2 hdistinct).sublist hnext
  · rw [starts_append, starts_start] at hb
    exact hunder.each.mem_iff.1 (hnext.subset hb)
  intro p hp b d hpair before answer' later heq
  rcases start_append heq with ⟨later', htrace⟩ | ⟨before', hbefore, hstart⟩
  · exact hunder.behind p hp b d hpair before answer' later' htrace
  · obtain ⟨rfl, hasked⟩ : before' = [] ∧ start c answer = start d answer' := by
      cases before' with
      | nil => exact ⟨rfl, (List.cons.inj hstart).1⟩
      | cons asked rest => exact absurd (List.cons.inj hstart).2 (by simp)
    obtain ⟨rfl, -⟩ := Asked.start.inj hasked
    rw [hbefore, List.append_nil]
    have hnext : plan = done ++ c :: waiting := by simpa using hdivide
    exact hdone b (mem_of_pair hdistinct hplan hp hnext hpair)

/-- **The next command of a lane is started.** -/
theorem started (hunder : Underway plans (pre ++ ⟨plan, ⟨none, c :: waiting⟩⟩ :: post) trace)
    (h : Handle) :
    Underway plans (pre ++ ⟨plan, ⟨some (c, h), waiting⟩⟩ :: post)
      (trace ++ [start c (.ok h)]) := by
  obtain ⟨done, hdivide, hdone, -⟩ := hunder.follows ⟨plan, ⟨none, c :: waiting⟩⟩
    (List.mem_append_right _ List.mem_cons_self)
  refine ⟨?_, hunder.follows_update ?_, ?_, (hunder.inOrder_start hdistinct _).behind,
    hunder.allStarted.append (by simp [AllStarted])⟩
  · rw [← hunder.planned, List.map_append, List.map_append]
    rfl
  · refine ⟨done, ?_, fun b hb => (hdone b hb).append _, ?_⟩
    · simpa using hdivide
    · rintro b h' heq
      obtain ⟨rfl, rfl⟩ := Prod.mk.inj (Option.some.inj heq)
      exact List.mem_append_right _ List.mem_cons_self
  · refine List.Perm.trans ?_ hunder.each
    simp only [starts_append, starts_start, List.flatMap_append, List.flatMap_cons,
      List.append_assoc, List.cons_append, List.nil_append]
    exact List.perm_middle.symm.append_left _

end Distinct

end Underway

end Promptline
