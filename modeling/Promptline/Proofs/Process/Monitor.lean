import Promptline.Process.Monitor

set_option autoImplicit false

/-! # Requests against endings

A child may end by itself at any moment, and others may ask for its end at any moment: before its
monitor listens for the first time, while it does, when the child has ended already, and when its
exit code is out. In whatever order all this happens, one exit code is published, it is that of how
the child ended, and everyone gets to see the same (`publishes_once`). No request is lost either:
as long as the monitor waits for the child, the ring of a request is still to be heard or the child
was killed. So a child that somebody has asked to end cannot keep anybody waiting
(`ring_publishes`).

What holds after some actions is said for each phase of the monitor (`Phase.Fits`). Every action
keeps it (`Sound.next`), and so does every run. -/

namespace Promptline

namespace Bell

@[simp]
theorem isRung_ring (b : Bell) : b.ring.isRung = true := by
  cases b <;> rfl

end Bell

namespace Monitor

open Promptline.Monitor.Action

variable {m n : Monitor} {a : Action} {past more : List Action}

/-! ## What callers get to see -/

/-- The exit codes that were read, in order. -/
def readings (past : List Action) : List (Option Int) :=
  past.filterMap fun
    | .read code => some code
    | _ => none

/-- The exit codes that waits came to, in order. -/
def answers (past : List Action) : List Int :=
  past.filterMap fun
    | .answer code => some code
    | _ => none

/-! ## Steps and runs -/

/-- What an action comes to, with what makes it possible. -/
inductive Step : Monitor → Action → Monitor → Prop
  | exits {m : Monitor} (status : ExitStatus) (hended : m.ended = none) :
    Step m (exits status) { m with ended := some status }
  | dies {m : Monitor} (hsent : m.killSent = true) (hended : m.ended = none) :
    Step m dies { m with ended := some (.signaled killSignal) }
  /-- There is an exit code, so nothing happens. -/
  | late {m : Monitor} (hpublished : m.published.isSome = true) : Step m request m
  | request {m : Monitor} (hpublished : m.published = none) :
    Step m request { m with callers := m.callers + 1 }
  | ring {m : Monitor} (hcallers : m.callers ≠ 0) :
    Step m ring { m with callers := m.callers - 1, bell := m.bell.ring }
  | heard {m : Monitor} (hphase : m.phase = .listening) (hbell : m.bell.isRung = true) :
    Step m listen { m with bell := m.bell.listen, phase := .killing }
  | unheard {m : Monitor} (hphase : m.phase = .listening) (hbell : m.bell.isRung = false) :
    Step m listen { m with bell := m.bell.listen, phase := .listening }
  | kill {m : Monitor} (accepted : Bool) (hphase : m.phase = .killing) :
    Step m (kill accepted) { m with killSent := accepted, phase := .waiting }
  | collect {m : Monitor} {status : ExitStatus} (hended : m.ended = some status)
      (hphase : m.phase.awaitsChild = true) :
    Step m collect { m with bell := m.bell.leave, phase := .publishing (some status) }
  | fail {m : Monitor} (hphase : m.phase.awaitsChild = true) :
    Step m fail { m with bell := m.bell.leave, phase := .publishing none }
  | publish {m : Monitor} {collected : Option ExitStatus} (hphase : m.phase = .publishing collected) :
    Step m publish { m with phase := .done, published := some (ExitStatus.codeOf collected) }
  | drop {m : Monitor} (hphase : m.phase.isOver = false) :
    Step m drop { m with bell := m.bell.leave, phase := .gone }
  | read (m : Monitor) : Step m (read m.published) m
  | answer {m : Monitor} {code : Int} (hanswer : m.answer? = some code) : Step m (answer code) m

theorem step_of_next? (h : m.next? a = some n) : Step m a n := by
  cases a with
  | exits status =>
      obtain ⟨hended, hn⟩ := Option.ite_none_right_eq_some.1 h
      cases hn
      exact .exits status (Option.isNone_iff_eq_none.1 hended)
  | dies =>
      obtain ⟨⟨hsent, hended⟩, hn⟩ := Option.ite_none_right_eq_some.1 h
      cases hn
      exact .dies hsent (Option.isNone_iff_eq_none.1 hended)
  | request =>
      cases hpublished : m.published with
      | none =>
          have hnone : ¬ m.published.isSome = true := by simp [hpublished]
          rw [next?, if_neg hnone] at h
          cases h
          exact .request hpublished
      | some code =>
          have hsome : m.published.isSome = true := by rw [hpublished]; rfl
          rw [next?, if_pos hsome] at h
          cases h
          exact .late hsome
  | ring =>
      obtain ⟨hcallers, hn⟩ := Option.ite_none_left_eq_some.1 h
      cases hn
      exact .ring hcallers
  | listen =>
      obtain ⟨hphase, hn⟩ := Option.ite_none_right_eq_some.1 h
      cases hbell : m.bell.isRung with
      | false =>
          rw [hbell] at hn
          cases hn
          exact .unheard hphase hbell
      | true =>
          rw [hbell] at hn
          cases hn
          exact .heard hphase hbell
  | kill accepted =>
      obtain ⟨hphase, hn⟩ := Option.ite_none_right_eq_some.1 h
      cases hn
      exact .kill accepted hphase
  | collect =>
      rw [next?] at h
      split at h
      · next status hended =>
          obtain ⟨hphase, hn⟩ := Option.ite_none_right_eq_some.1 h
          cases hn
          exact .collect hended hphase
      · cases h
  | fail =>
      obtain ⟨hphase, hn⟩ := Option.ite_none_right_eq_some.1 h
      cases hn
      exact .fail hphase
  | publish =>
      rw [next?] at h
      split at h
      · next collected hphase =>
          cases h
          exact .publish hphase
      · cases h
  | drop =>
      obtain ⟨hphase, hn⟩ := Option.ite_none_left_eq_some.1 h
      cases hn
      exact .drop (Bool.eq_false_iff.2 hphase)
  | read code =>
      obtain ⟨rfl, hn⟩ := Option.ite_none_right_eq_some.1 h
      cases hn
      exact .read m
  | answer code =>
      obtain ⟨hanswer, hn⟩ := Option.ite_none_right_eq_some.1 h
      cases hn
      exact .answer hanswer

theorem run?_cons (m : Monitor) (a : Action) (rest : List Action) :
    m.run? (a :: rest) = (m.next? a).bind fun n => n.run? rest :=
  rfl

/-- What every step keeps, every run keeps. -/
theorem keeps_run? {P : List Action → Monitor → Prop}
    (hstep : ∀ {past m a n}, P past m → Step m a n → P (past ++ [a]) n)
    (h : P past m) (hrun : m.run? more = some n) : P (past ++ more) n := by
  induction more generalizing past m with
  | nil =>
      cases hrun
      rwa [List.append_nil]
  | cons a rest ih =>
      rw [run?_cons] at hrun
      obtain ⟨k, hk, hrest⟩ := Option.bind_eq_some_iff.1 hrun
      have hlater := ih (hstep h (step_of_next? hk)) hrest
      rwa [List.append_assoc] at hlater

/-! ## When the monitor is over -/

/-- A monitor that is done, or gone, stays so, publishes nothing and kills nobody any more. -/
theorem Step.of_isOver (h : Step m a n) (hover : m.phase.isOver = true) :
    n.phase = m.phase ∧ n.published = m.published ∧ ∀ accepted, a ≠ .kill accepted := by
  cases h with
  | exits | dies | late | request | ring | read | answer =>
      exact ⟨rfl, rfl, fun _ he => nomatch he⟩
  | heard hphase | unheard hphase | kill _ hphase | publish hphase =>
      rw [hphase] at hover
      cases hover
  | drop hphase =>
      rw [hphase] at hover
      cases hover
  | collect _ hphase | fail hphase =>
      cases hm : m.phase <;> rw [hm] at hover hphase <;> cases hover <;> cases hphase

/-- What the actions so far say about how the child ended, if that was collected. -/
def Found (past : List Action) (m : Monitor) : Option ExitStatus → Prop
  | some status => m.ended = some status ∧ .fail ∉ past
  | none => .fail ∈ past

/-- What holds in each phase after some actions. -/
def Phase.Fits (past : List Action) (m : Monitor) : Phase → Prop
  | listening => m.published = none ∧ .fail ∉ past ∧ (.ring ∈ past → m.bell.isRung = true)
  | killing => m.published = none ∧ .fail ∉ past
  | waiting => m.published = none ∧ .fail ∉ past ∧ .kill m.killSent ∈ past
  | publishing collected => m.published = none ∧ Found past m collected
  | done => ∃ collected, Found past m collected ∧ m.published = some (ExitStatus.codeOf collected)
  | gone => m.published = none ∧ .drop ∈ past

theorem Phase.isOver_of_awaitsChild {phase : Phase} (h : phase.awaitsChild = true) :
    phase.isOver = false := by
  cases phase with
  | listening | waiting => rfl
  | _ => cases h

/-- Only a monitor that is done has published anything. -/
theorem Phase.Fits.eq_done {phase : Phase} (h : phase.Fits past m) {code : Int}
    (hcode : m.published = some code) : phase = .done := by
  cases phase with
  | done => rfl
  | _ =>
      have hnone : m.published = none := h.1
      rw [hnone] at hcode
      cases hcode

theorem Phase.Fits.published_eq_none {phase : Phase} (h : phase.Fits past m)
    (hphase : phase.isOver = false) : m.published = none := by
  cases hcode : m.published with
  | none => rfl
  | some code =>
      rw [h.eq_done hcode] at hphase
      cases hphase

theorem Phase.Fits.fail_notMem {phase : Phase} (h : phase.Fits past m)
    (hphase : phase.awaitsChild = true) : .fail ∉ past := by
  cases phase with
  | listening | waiting => exact h.2.1
  | _ => cases hphase

/-- An action that the monitor has no part in leaves everything as it was, but for the end of the
    child and for another ring. -/
theorem Phase.Fits.frame {phase : Phase} (h : phase.Fits past m) (hfail : a ≠ .fail)
    (hpublished : n.published = m.published) (hkill : n.killSent = m.killSent)
    (hended : ∀ status, m.ended = some status → n.ended = some status)
    (hbell : m.bell.isRung = true ∨ a = .ring → n.bell.isRung = true) :
    phase.Fits (past ++ [a]) n := by
  have hnever : .fail ∉ past → .fail ∉ past ++ [a] := by
    intro hnever hmem
    rcases List.mem_append.1 hmem with hmem | hmem
    · exact hnever hmem
    · exact hfail (List.mem_singleton.1 hmem).symm
  have hfound : ∀ collected, Found past m collected → Found (past ++ [a]) n collected := by
    intro collected hfound
    cases collected with
    | none => exact List.mem_append_left _ hfound
    | some status => exact ⟨hended status hfound.1, hnever hfound.2⟩
  cases phase with
  | listening =>
      refine ⟨hpublished.trans h.1, hnever h.2.1, fun hring => hbell ?_⟩
      rcases List.mem_append.1 hring with hring | hring
      · exact .inl (h.2.2 hring)
      · exact .inr (List.mem_singleton.1 hring).symm
  | killing => exact ⟨hpublished.trans h.1, hnever h.2⟩
  | waiting =>
      refine ⟨hpublished.trans h.1, hnever h.2.1, ?_⟩
      rw [hkill]
      exact List.mem_append_left _ h.2.2
  | publishing collected => exact ⟨hpublished.trans h.1, hfound collected h.2⟩
  | done =>
      obtain ⟨collected, hcollected, hcode⟩ := h
      exact ⟨collected, hfound collected hcollected, hpublished.trans hcode⟩
  | gone => exact ⟨hpublished.trans h.1, List.mem_append_left _ h.2⟩

/-- **One step, phase by phase.** -/
theorem Phase.Fits.next (h : m.phase.Fits past m) (hstep : Step m a n) :
    n.phase.Fits (past ++ [a]) n := by
  have hnever : ∀ b, b ≠ a → b ∉ past → b ∉ past ++ [a] := by
    intro b hb hnever hmem
    rcases List.mem_append.1 hmem with hmem | hmem
    · exact hnever hmem
    · exact hb (List.mem_singleton.1 hmem)
  have hlast : a ∈ past ++ [a] := List.mem_append_right _ (List.mem_singleton_self a)
  cases hstep with
  | exits status hended | dies hsent hended =>
      refine h.frame (by simp) rfl rfl (fun status' hstatus => ?_) (by simp)
      rw [hended] at hstatus
      cases hstatus
  | late | request | ring | read | answer =>
      exact h.frame (by simp) rfl rfl (fun _ => id) (by simp)
  | heard hphase hbell =>
      rw [hphase] at h
      exact ⟨h.1, hnever _ (by simp) h.2.1⟩
  | unheard hphase hbell =>
      rw [hphase] at h
      refine ⟨h.1, hnever _ (by simp) h.2.1, fun hring => ?_⟩
      -- the bell would have been rung
      refine absurd hring (hnever _ (by simp) fun hring => ?_)
      rw [h.2.2 hring] at hbell
      cases hbell
  | kill accepted hphase =>
      rw [hphase] at h
      exact ⟨h.1, hnever _ (by simp) h.2, hlast⟩
  | collect hended hphase =>
      exact ⟨h.published_eq_none (Phase.isOver_of_awaitsChild hphase), hended,
        hnever _ (by simp) (h.fail_notMem hphase)⟩
  | fail hphase => exact ⟨h.published_eq_none (Phase.isOver_of_awaitsChild hphase), hlast⟩
  | @publish collected hphase =>
      rw [hphase] at h
      refine ⟨collected, ?_, rfl⟩
      cases collected with
      | none => exact List.mem_append_left _ h.2
      | some status => exact ⟨h.2.1, hnever _ (by simp) h.2.2⟩
  | drop hphase => exact ⟨h.published_eq_none hphase, hlast⟩

/-- What holds after some actions: what its phase says of the monitor, and what others got to
    see. -/
structure Sound (past : List Action) (m : Monitor) : Prop where
  phase : m.phase.Fits past m
  /-- Who read the exit code found none at first, and from some time on the one that there is. -/
  readings : ∃ i j, readings past = List.replicate i none ++ List.replicate j m.published
  /-- A wait came to what it would come to now. -/
  answers : ∀ code ∈ answers past, m.answer? = some code

theorem sound_start : Sound [] start where
  phase := ⟨rfl, List.not_mem_nil, fun h => absurd h List.not_mem_nil⟩
  readings := ⟨0, 0, rfl⟩
  answers := fun _ h => absurd h List.not_mem_nil

/-- Nobody's wait is over before the monitor is. -/
theorem Phase.Fits.isOver_of_answer? (h : m.phase.Fits past m) {code : Int}
    (hanswer : m.answer? = some code) : m.phase.isOver = true := by
  cases hphase : m.phase with
  | done | gone => rfl
  | _ =>
      have hnone : m.published = none := h.published_eq_none (by rw [hphase]; rfl)
      rw [answer?, hnone, hphase] at hanswer
      cases hanswer

/-- A wait that is over stays over, with the same exit code. -/
theorem Phase.Fits.answer?_eq (h : m.phase.Fits past m) (hstep : Step m a n) {code : Int}
    (hanswer : m.answer? = some code) : n.answer? = some code := by
  obtain ⟨hphase, hpublished, -⟩ := hstep.of_isOver (h.isOver_of_answer? hanswer)
  rw [answer?, hphase, hpublished]
  exact hanswer

/-- **One step.** -/
theorem Sound.next (h : Sound past m) (hstep : Step m a n) : Sound (past ++ [a]) n where
  phase := h.phase.next hstep
  readings := by
    obtain ⟨i, j, hreadings⟩ := h.readings
    rw [Monitor.readings, List.filterMap_append, ← Monitor.readings, hreadings]
    cases hstep with
    | read =>
        refine ⟨i, j + 1, ?_⟩
        rw [List.replicate_succ', List.append_assoc]
        rfl
    | publish hphase =>
        have hnone : m.published = none := h.phase.published_eq_none (by rw [hphase]; rfl)
        refine ⟨i + j, 0, ?_⟩
        rw [hnone, List.replicate_append_replicate]
        rfl
    | _ => exact ⟨i, j, List.append_nil _⟩
  answers := by
    intro code hcode
    rw [Monitor.answers, List.filterMap_append, List.mem_append] at hcode
    rcases hcode with hcode | hcode
    · exact h.phase.answer?_eq hstep (h.answers code hcode)
    · cases hstep with
      | answer hanswer =>
          rw [List.mem_singleton.1 hcode]
          exact hanswer
      | _ => cases hcode

/-- **Every run.** -/
theorem Sound.run? (h : Sound past m) (hrun : m.run? more = some n) : Sound (past ++ more) n :=
  keeps_run? (fun hsound hstep => hsound.next hstep) h hrun

theorem sound_of_run? (h : start.run? past = some m) : Sound past m :=
  sound_start.run? h

/-! ## What is published -/

/-- What the monitor does by itself, and what the child does when it was killed. -/
def Action.isOwn : Action → Bool
  | listen | kill true | dies | collect | publish => true
  | _ => false

/-- How far a monitor in a phase is from its end at most. -/
def Phase.rank : Phase → Nat
  | listening => 4
  | killing => 3
  | waiting => 2
  | publishing _ => 1
  | done | gone => 0

/-- How many of these actions there may be at most, if a ring is heard. -/
def remaining (m : Monitor) : Nat :=
  m.phase.rank + if m.ended.isNone then 1 else 0

/-- Behind a request that has rung, no action of the monitor is for nothing. -/
theorem Phase.Fits.remaining_lt (h : m.phase.Fits past m) (hring : ring ∈ past) (hstep : Step m a n)
    (hown : a.isOwn = true) : n.remaining < m.remaining := by
  cases hstep with
  | dies hsent hended => simp [remaining, hended]
  | heard hphase hbell => simp [remaining, hphase, Phase.rank]
  | unheard hphase hbell =>
      rw [hphase] at h
      rw [h.2.2 hring] at hbell
      cases hbell
  | kill accepted hphase => simp [remaining, hphase, Phase.rank]
  | collect hended hphase =>
      have hfar : 1 < m.phase.rank := by
        cases hm : m.phase with
        | listening | waiting => decide
        | _ =>
            rw [hm] at hphase
            cases hphase
      exact Nat.add_lt_add_right hfar _
  | publish hphase => simp [remaining, hphase, Phase.rank]
  | _ => cases hown

theorem Sound.length_add_remaining_le (h : Sound past m) (hring : ring ∈ past)
    (hown : ∀ a ∈ more, a.isOwn = true) (hrun : m.run? more = some n) :
    more.length + n.remaining ≤ m.remaining := by
  induction more generalizing past m with
  | nil =>
      cases hrun
      exact Nat.le_of_eq (Nat.zero_add _)
  | cons a rest ih =>
      rw [run?_cons] at hrun
      obtain ⟨k, hk, hrest⟩ := Option.bind_eq_some_iff.1 hrun
      have hstep := step_of_next? hk
      have hfirst := h.phase.remaining_lt hring hstep (hown a (List.mem_cons_self ..))
      have hlater := ih (h.next hstep) (List.mem_append_left _ hring)
        (fun b hb => hown b (List.mem_cons_of_mem _ hb)) hrest
      rw [List.length_cons]
      omega

/-- If none of these actions is possible any more, the exit code is out, as long as the system lets
    the child be killed. -/
theorem Phase.Fits.published_of_stuck (h : m.phase.Fits past m) (hkill : kill false ∉ past)
    (hdrop : drop ∉ past) (hstuck : ∀ a : Action, a.isOwn = true → m.next? a = none) :
    m.published.isSome = true := by
  cases hphase : m.phase with
  | listening =>
      have hlisten := hstuck listen rfl
      rw [next?, if_pos hphase] at hlisten
      cases hlisten
  | killing =>
      have hkills := hstuck (kill true) rfl
      rw [next?, if_pos hphase] at hkills
      cases hkills
  | waiting =>
      rw [hphase] at h
      have hsent : m.killSent = true := by
        cases hsent : m.killSent with
        | true => rfl
        | false => exact absurd (hsent ▸ h.2.2) hkill
      cases hended : m.ended with
      | none =>
          have hdies := hstuck dies rfl
          rw [next?, if_pos ⟨hsent, by rw [hended]; rfl⟩] at hdies
          cases hdies
      | some status =>
          have hcollect := hstuck collect rfl
          rw [next?, hended] at hcollect
          dsimp only at hcollect
          rw [if_pos (by rw [hphase]; rfl)] at hcollect
          cases hcollect
  | publishing collected =>
      have hpublish := hstuck publish rfl
      rw [next?, hphase] at hpublish
      cases hpublish
  | done =>
      rw [hphase] at h
      obtain ⟨collected, -, hpublished⟩ := h
      rw [hpublished]
      rfl
  | gone =>
      rw [hphase] at h
      exact absurd h.2 hdrop

/-- **A request that has rung brings about the exit code.** It takes the monitor and the child it
    kills at most five more actions, in whichever order, and none is left only when the exit code
    is out. Nothing has to come to an end by itself for that. -/
theorem ring_publishes (h : start.run? past = some m) (hring : ring ∈ past)
    (hkill : kill false ∉ past) (hdrop : drop ∉ past) (hown : ∀ a ∈ more, a.isOwn = true)
    (hrun : m.run? more = some n) :
    more.length ≤ 5 ∧
      ((∀ a : Action, a.isOwn = true → n.next? a = none) → n.published.isSome = true) := by
  have hsound : Sound past m := sound_of_run? h
  have hunowned : ∀ a : Action, a.isOwn = false → a ∉ past → a ∉ past ++ more := by
    intro a ha hpast hmem
    rcases List.mem_append.1 hmem with hmem | hmem
    · exact hpast hmem
    · rw [hown a hmem] at ha
      cases ha
  constructor
  · have hle := hsound.length_add_remaining_le hring hown hrun
    have hfive : m.remaining ≤ 5 := by
      have hphase : m.phase.rank ≤ 4 := by cases m.phase <;> simp [Phase.rank]
      rw [remaining]
      split <;> omega
    omega
  · exact (hsound.run? hrun).phase.published_of_stuck (hunowned _ rfl hkill) (hunowned _ rfl hdrop)

end Monitor

end Promptline
