import Promptline.Proofs.Process.Ending

set_option autoImplicit false

/-! # Statements come to their end

A statement that goes on has less before it than it had. It does not go on only if it waits for a
process that runs still (`Execution.progress`). -/

namespace Promptline

open Asked

variable {σ : Type}

/-- The processes that a phase waits for. -/
def Phase.awaited : Phase → List Handle
  | .running lanes => lanes.filterMap fun lane => lane.running.map Prod.snd
  | .waiting wait _ => wait.pending
  | .finished _ => []

/-- Whether commands are being started. -/
def Phase.isRunning : Phase → Bool
  | .running _ => true
  | _ => false

namespace Execution

/-- How much a statement has before it. -/
def rank (x : Execution σ) : Nat :=
  match x.phase with
  | .running lanes => (lanes.map Lane.rank).sum + (x.stages + 1)
  | .waiting wait _ => wait.pending.length
  | .finished _ => 0

section Phases

variable (host : Host σ) (x : Execution σ) (failure : Option ProcessError)

theorem isRunning_finish (code : Int) : (x.finish code failure).phase.isRunning = false := by
  cases failure <;> rfl

theorem isRunning_pollWait (wait : GroupWait) :
    (x.pollWait host wait failure).phase.isRunning = false := by
  unfold Execution.pollWait
  dsimp only
  split
  · exact isRunning_finish _ failure _
  · rfl

theorem isRunning_startWait : (x.startWait host failure).phase.isRunning = false := by
  unfold Execution.startWait
  rcases x.session.startWait x.group with ⟨_ | wait, session⟩
  · exact isRunning_finish _ failure _
  · exact isRunning_pollWait host _ failure wait

end Phases

/-- Behind the last start, what is before a statement is to wait for its processes. -/
theorem Sound.rank_le {exit? : Handle → σ → Option Int} {plans : List (List Command)}
    {x : Execution (σ × List Asked)} (h : x.Sound exit? plans)
    (hphase : x.phase.isRunning = false) : x.rank ≤ plans.flatten.length := by
  obtain ⟨hstages, hsound⟩ := h
  unfold Execution.rank
  cases hx : x.phase with
  | running lanes =>
      rw [hx] at hphase
      cases hphase
  | finished answer => exact Nat.zero_le _
  | waiting wait failure =>
      rw [hx] at hsound
      obtain ⟨waited, codes, hhandles, -⟩ := hsound.gathers
      calc wait.pending.length ≤ (spawned x.session.host.2).length := by
            rw [hhandles, List.length_append]
            exact Nat.le_add_left _ _
        _ ≤ (starts x.session.host.2).length := length_spawned_le _
        _ ≤ plans.flatten.length := hsound.settled.order.length_starts_le

/-- A statement waits for nothing but what it has started. -/
theorem Sound.spawned_of_awaited {exit? : Handle → σ → Option Int} {plans : List (List Command)}
    {x : Execution (σ × List Asked)} (h : x.Sound exit? plans) {handle : Handle}
    (hawaited : handle ∈ x.phase.awaited) : handle ∈ spawned x.session.host.2 := by
  obtain ⟨-, hphase⟩ := h
  cases hx : x.phase with
  | running lanes =>
      rw [hx] at hphase hawaited
      obtain ⟨courses, rfl, hgoing⟩ := hphase
      obtain ⟨lane, hlane, hrunning⟩ := List.mem_filterMap.1 hawaited
      obtain ⟨course, hcourse, rfl⟩ := List.mem_map.1 hlane
      obtain ⟨process, hprocess, rfl⟩ := Option.map_eq_some_iff.1 hrunning
      obtain ⟨done, -, -, hstarted⟩ := hgoing.underway.follows course hcourse
      exact mem_spawned.2 ⟨process.1, hstarted process.1 process.2 hprocess⟩
  | waiting wait failure =>
      rw [hx] at hphase hawaited
      obtain ⟨waited, codes, hhandles, -⟩ := hphase.gathers
      rw [hhandles]
      exact List.mem_append_right waited hawaited
  | finished answer =>
      rw [hx] at hawaited
      cases hawaited

section Progress

variable {host : Host σ} {exit? : Handle → σ → Option Int} (hhost : host.Steady exit?)
  {plans : List (List Command)} {x : Execution (σ × List Asked)}
include hhost

theorem progress_waiting {wait : GroupWait} {failure : Option ProcessError}
    (hx : x.phase = .waiting wait failure) :
    let y := x.pollWait host.traced wait failure
    y.answer?.isSome ∨ y.rank < x.rank ∨
      y.phase = x.phase ∧ ∃ h ∈ x.phase.awaited, exit? h x.session.host.1 = none := by
  have hrank := rank_pollFrom hhost.traced wait.code x.session.host wait.pending
  unfold Execution.rank
  rw [hx]
  unfold Execution.pollWait GroupWait.poll
  generalize GroupWait.pollFrom host.traced wait.code x.session.host wait.pending = result
    at hrank ⊢
  obtain ⟨wait', state⟩ := result
  dsimp only at hrank ⊢
  by_cases hdone : wait'.pending.isEmpty
  · refine Or.inl ?_
    rw [GroupWait.result?, if_pos hdone]
    cases failure <;> rfl
  · refine Or.inr ?_
    rw [GroupWait.result?, if_neg hdone]
    rcases hrank with hless | ⟨rfl, hnothing | hruns⟩
    · exact Or.inl hless
    · exact absurd (List.isEmpty_iff.2 hnothing) hdone
    · exact Or.inr ⟨rfl, hruns⟩

omit hhost in
theorem stages_lt_rank {lanes : List Lane} (hx : x.phase = .running lanes) : x.stages < x.rank := by
  unfold Execution.rank
  rw [hx]
  exact Nat.lt_of_lt_of_le (Nat.lt_succ_self _) (Nat.le_add_left _ _)

omit hhost in
/-- If all lanes are held and not all are done, a process runs still. -/
theorem exists_awaited {lanes : List Lane} {state : σ} (hdone : lanes.all Lane.isDone = false)
    (hheld : ∀ lane ∈ lanes, lane.Held exit? state) :
    ∃ h ∈ (Phase.running lanes).awaited, exit? h state = none := by
  obtain ⟨lane, hlane, hbusy⟩ := List.all_eq_false.1 hdone
  have hlaneheld := hheld lane hlane
  obtain ⟨running, waiting⟩ := lane
  cases running with
  | none =>
      obtain rfl : waiting = [] := hlaneheld
      exact absurd rfl hbusy
  | some process =>
      refine ⟨process.2, List.mem_filterMap.2 ⟨_, hlane, rfl⟩, hlaneheld⟩

theorem progress_running {lanes : List Lane} (hx : x.phase = .running lanes) :
    let y := x.poll host.traced
    y.phase.isRunning = false ∨ y.rank < x.rank ∨
      y.phase = x.phase ∧ ∃ h ∈ x.phase.awaited, exit? h x.session.host.1 = none := by
  have hround := @rank_pollAll _ host.traced _ x.group x.session hhost.traced lanes
  unfold Execution.poll Execution.rank
  rw [hx]
  dsimp only
  generalize Lane.pollAll host.traced x.group x.session lanes = result at hround ⊢
  obtain ⟨_ | lanes', s⟩ := result
  · exact Or.inl (isRunning_startWait _ _ _)
  · dsimp only
    split
    · refine Or.inl ?_
      split
      · exact isRunning_finish _ _ _
      · exact isRunning_startWait _ _ _
    · next hdone =>
        refine Or.inr ?_
        rcases hround rfl with hless | ⟨rfl, hheld⟩
        · exact Or.inl (Nat.add_lt_add_right hless _)
        · exact Or.inr ⟨rfl, exists_awaited (Bool.eq_false_iff.2 hdone) hheld⟩

/-- **A statement gets on**, unless it waits for a process that runs still. -/
theorem progress (hdistinct : plans.flatten.Nodup)
    (hfits : plans.flatten.length ≤ ProcessError.limit) (h : x.Sound exit? plans) :
    let y := x.poll host.traced
    y.answer?.isSome ∨ y.rank < x.rank ∨
      y.phase = x.phase ∧ ∃ h ∈ x.phase.awaited, exit? h x.session.host.1 = none := by
  intro y
  cases hx : x.phase with
  | finished answer =>
      have hy : y = x := by
        show x.poll host.traced = x
        rw [Execution.poll, hx]
      refine Or.inl ?_
      rw [hy, Execution.answer?, hx]
      rfl
  | waiting wait failure =>
      have hy : y = x.pollWait host.traced wait failure := by
        show x.poll host.traced = _
        rw [Execution.poll, hx]
      rw [hy, ← hx]
      exact progress_waiting hhost hx
  | running lanes =>
      rw [← hx]
      rcases progress_running hhost hx with hbehind | hrunning
      · -- behind the last start there is less to do than there was before it
        refine Or.inr (Or.inl ?_)
        have hsound : y.Sound exit? plans := sound_poll hhost hdistinct hfits h
        have hrank := hsound.rank_le hbehind
        rw [← h.stages] at hrank
        exact Nat.lt_of_le_of_lt hrank (stages_lt_rank hx)
      · exact Or.inr hrunning

end Progress

end Execution

end Promptline
