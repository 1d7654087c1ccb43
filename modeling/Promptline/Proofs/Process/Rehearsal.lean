import Promptline.Process.Rehearsal
import Promptline.Proofs.Process.Trace

set_option autoImplicit false

/-! # Rehearsals are steady

What a process of a rehearsal has exited with, it has exited with for good: to be polled again, or
stopped, is nothing to it. So whatever is proved of hosts holds in rehearsals
(`steady_host`). -/

namespace Promptline.Rehearsal

/-! ## Processes -/

namespace Actor

theorem exited_poll {a : Actor} {code : Int} (h : a.exited = some code) :
    a.poll.2.exited = some code := by
  unfold Actor.poll
  rw [h]
  exact h

theorem exited_stop {a : Actor} {code : Int} (h : a.exited = some code) :
    a.stop.exited = some code := by
  unfold Actor.stop
  rw [h]
  exact h

/-- A process tells that it has exited as soon as it has. -/
theorem poll_eq_exited (a : Actor) : a.poll.1 = a.poll.2.exited := by
  unfold Actor.poll
  split
  · next code _ hexited => exact hexited.symm
  · next hexited _ => exact hexited.symm
  · rfl
  · next hexited _ => exact hexited.symm

end Actor

/-! ## Hosts -/

/-- The code that a process of a rehearsal has exited with. -/
def exitCode? (h : Handle) (s : State) : Option Int :=
  s.exited? h

section Later

variable {s s' : State} {h : Handle} {stage : Option Nat}

theorem later_of_actors_eq (heq : s'.actors = s.actors) : Host.Later exitCode? s s' := by
  intro h code hcode
  unfold exitCode? State.exited? at hcode ⊢
  rw [heq]
  exact hcode

theorem actors_recordStage (happening : Nat → Happening) :
    (s.recordStage stage happening).actors = s.actors := by
  cases stage <;> rfl

/-- A process that takes the place of another is no less far than that one was. -/
theorem later_setIfInBounds {a a' : Actor} (ha : s.actors[h]? = some (stage, a))
    (hexited : ∀ code, a.exited = some code → a'.exited = some code) :
    Host.Later exitCode? s { s with actors := s.actors.setIfInBounds h (stage, a') } := by
  intro other code hcode
  unfold exitCode? State.exited? at hcode ⊢
  by_cases hother : h = other
  · subst hother
    have hinside : h < s.actors.size := (Array.getElem?_eq_some_iff.1 ha).1
    rw [ha] at hcode
    rw [Array.getElem?_setIfInBounds_self_of_lt hinside]
    exact hexited code hcode
  · rw [Array.getElem?_setIfInBounds_ne hother]
    exact hcode

/-- One more process is no matter to the others. -/
theorem later_enlist (part : Part) : Host.Later exitCode? s (s.enlist stage part).2 := by
  intro other code hcode
  unfold exitCode? State.exited? at hcode ⊢
  obtain ⟨process, hprocess, hexited⟩ := Option.bind_eq_some_iff.1 hcode
  refine Option.bind_eq_some_iff.2 ⟨process, ?_, hexited⟩
  have hinside : other < s.actors.size := (Array.getElem?_eq_some_iff.1 hprocess).1
  show (s.actors.push (stage, .start part))[other]? = some process
  rw [Array.getElem?_push_lt hinside, ← hprocess, Array.getElem?_eq_getElem hinside]

theorem later_start (c : Command) (t : ProcessTable Handle) :
    Host.Later exitCode? s (s.start c t).2 := by
  unfold State.start
  dsimp only
  split
  · split
    · exact (later_of_actors_eq rfl).trans (later_enlist _)
    · exact later_of_actors_eq rfl
    · exact later_of_actors_eq rfl
  · exact later_of_actors_eq rfl

theorem later_poll : Host.Later exitCode? s (s.poll h).2 := by
  unfold State.poll
  cases ha : s.actors[h]? with
  | none => exact .refl _
  | some process =>
      obtain ⟨stage, a⟩ := process
      have hlater := later_setIfInBounds ha fun _ => Actor.exited_poll
      dsimp only
      split
      · exact hlater.trans (later_of_actors_eq (actors_recordStage _))
      · exact hlater

theorem later_stop : Host.Later exitCode? s (s.stop h) := by
  unfold State.stop
  cases ha : s.actors[h]? with
  | none => exact .refl _
  | some process =>
      obtain ⟨stage, a⟩ := process
      have hlater := later_setIfInBounds ha fun _ => Actor.exited_stop
      dsimp only
      split
      · exact later_of_actors_eq (actors_recordStage _)
      · exact hlater.trans (later_of_actors_eq (actors_recordStage _))

/-- To be polled tells whether a process has exited. -/
theorem poll_eq_exitCode? : (s.poll h).1 = exitCode? h (s.poll h).2 := by
  unfold State.poll
  cases ha : s.actors[h]? with
  | none =>
      unfold exitCode? State.exited?
      rw [ha]
      rfl
  | some process =>
      obtain ⟨stage, a⟩ := process
      have hinside : h < s.actors.size := (Array.getElem?_eq_some_iff.1 ha).1
      have hactor : ∀ s' : State, s'.actors = s.actors.setIfInBounds h (stage, a.poll.2) →
          a.poll.1 = exitCode? h s' := by
        intro s' hactors
        unfold exitCode? State.exited?
        rw [hactors, Array.getElem?_setIfInBounds_self_of_lt hinside]
        exact a.poll_eq_exited
      dsimp only
      split
      · next code _ hcode => exact hcode ▸ hactor _ (actors_recordStage _)
      · exact hactor _ rfl

end Later

/-- **Rehearsals are steady.** -/
theorem steady_host : host.Steady exitCode? where
  start c t _ := later_start c t
  poll _ _ := later_poll
  terminate _ _ := later_stop
  answer _ _ := poll_eq_exitCode?

end Promptline.Rehearsal
