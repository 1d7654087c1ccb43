import Mathlib.Algebra.GroupWithZero.Nat
import Mathlib.Data.List.Nodup
import Promptline.Statement

set_option autoImplicit false

/-! # The stages of a statement

Numbering a statement gives its commands the numbers from the first on, in the order in which the
statement is read. So no two commands of a numbered statement are the same, whatever they consist of
(`nodup_commands_number`), and each is in exactly one place of one lane (`flatten_lanes`).

Numbers are handed on from command to command and from process to process, and the one that is free
in the end is as many behind the first as there are commands. Apart from the numbers nothing
changes, and it makes no difference which numbers there were before (`assign_exact`). -/

namespace Promptline

theorem map_stage_numberCommands (start : Nat) (cs : List Command) :
    (numberCommands start cs).map Command.stage = (List.range' start cs.length).map some := by
  induction cs generalizing start with
  | nil => rfl
  | cons c rest ih =>
      rw [numberCommands, List.map_cons, ih, List.length_cons, List.range'_succ, List.map_cons]

theorem map_stage_numberProcesses (start : Nat) (ps : List CommandSequence) :
    ((numberProcesses start ps).flatMap CommandSequence.commands).map Command.stage =
      (List.range' start (ps.flatMap CommandSequence.commands).length).map some := by
  induction ps generalizing start with
  | nil => rfl
  | cons p rest ih =>
      rw [numberProcesses, List.flatMap_cons, List.map_append, ih, List.flatMap_cons,
        List.length_append, ← List.range'_append_1, List.map_append]
      congr 1
      exact map_stage_numberCommands start p.commands

namespace Statement

/-- **Stages are numbered in order.** -/
theorem map_stage_commands_number (s : Statement) (start : Nat) :
    (s.number start).commands.map Command.stage = (List.range' start s.size).map some := by
  cases s with
  | command c => rfl
  | process p => exact map_stage_numberCommands start p.commands
  | pipeline p => exact map_stage_numberProcesses start p.processes

/-- Numbering takes no command away and adds none. -/
theorem size_number (s : Statement) (start : Nat) : (s.number start).size = s.size := by
  have h := congrArg List.length (map_stage_commands_number s start)
  rw [List.length_map, List.length_map, List.length_range'] at h
  exact h

/-- No two commands of a numbered statement are the same. -/
theorem nodup_commands_number (s : Statement) (start : Nat) :
    (s.number start).commands.Nodup := by
  refine List.Nodup.of_map Command.stage ?_
  rw [map_stage_commands_number]
  exact List.Nodup.map (fun _ _ => Option.some.inj) (List.nodup_range' 1)

/-- The lanes hold every command, in the order of the stages. -/
theorem flatten_lanes (s : Statement) : s.lanes.flatten = s.commands := by
  cases s with
  | command c => rfl
  | process p => exact List.append_nil _
  | pipeline p => exact (List.flatMap_def ..).symm

/-- No command of a numbered statement is in two places. -/
theorem nodup_lanes_number (s : Statement) (start : Nat) :
    (s.number start).lanes.flatten.Nodup := by
  rw [flatten_lanes]
  exact s.nodup_commands_number start

theorem length_lanes_number (s : Statement) (start : Nat) :
    (s.number start).lanes.flatten.length = s.size := by
  rw [flatten_lanes]
  exact s.size_number start

end Statement

/-! ## Handing numbers on -/

/-- Things that each take as many numbers as they have commands take as many as all of them have. -/
theorem assignEach_eq {α : Type} {assign : α → Nat → Nat × α} {size : α → Nat}
    {number : Nat → List α → List α} (hnil : ∀ start, number start [] = [])
    (hcons : ∀ start a rest,
      number start (a :: rest) = (assign a start).2 :: number (start + size a) rest)
    (hnext : ∀ start a, (assign a start).1 = start + size a) (start : Nat) (as : List α) :
    assignEach assign as start = (start + (as.map size).sum, number start as) := by
  induction as generalizing start with
  | nil => rw [hnil]; rfl
  | cons a rest ih =>
      rw [assignEach]
      dsimp only
      rw [hnext, ih, hcons, List.map_cons, List.sum_cons, Nat.add_assoc]

theorem CommandSequence.assign_eq (p : CommandSequence) (start : Nat) :
    p.assign start = (start + p.size, p.number start) := by
  have heach : assignEach Command.assign p.commands start =
      (start + (p.commands.map fun _ => 1).sum, numberCommands start p.commands) :=
    assignEach_eq (fun _ => rfl) (fun _ _ _ => rfl) (fun _ _ => rfl) start p.commands
  rw [CommandSequence.assign, heach, List.map_const', List.sum_replicate_nat, Nat.mul_one]
  rfl

theorem Pipeline.assign_eq (p : Pipeline) (start : Nat) :
    p.assign start = (start + p.commands.length, p.number start) := by
  have heach : assignEach CommandSequence.assign p.processes start =
      (start + (p.processes.map CommandSequence.size).sum, numberProcesses start p.processes) := by
    refine assignEach_eq (fun _ => rfl) (fun start q rest => ?_) (fun start q => ?_) start
      p.processes
    · rw [q.assign_eq]
      rfl
    · rw [q.assign_eq]
  rw [Pipeline.assign, heach, Pipeline.commands, List.length_flatMap]
  rfl

/-- **Handing numbers on** from command to command numbers a statement, and leads to the number that
    is as many behind the first as there are commands. -/
theorem Statement.assign_eq (s : Statement) (start : Nat) :
    s.assign start = (start + s.size, s.number start) := by
  cases s with
  | command c => rfl
  | process p => simp only [Statement.assign, p.assign_eq]; rfl
  | pipeline p => simp only [Statement.assign, p.assign_eq]; rfl

/-! ## What numbers leave alone -/

/-- The command without a number. -/
def Command.unnumbered (c : Command) : Command :=
  { c with stage := none }

/-- The process with no number left in it. -/
def CommandSequence.unnumbered (p : CommandSequence) : CommandSequence :=
  { commands := p.commands.map Command.unnumbered }

/-- The pipeline with no number left in it. -/
def Pipeline.unnumbered (p : Pipeline) : Pipeline :=
  { p with processes := p.processes.map CommandSequence.unnumbered }

/-- The statement with no number left in it. -/
def Statement.unnumbered : Statement → Statement
  | command c => .command c.unnumbered
  | process p => .process p.unnumbered
  | pipeline p => .pipeline p.unnumbered

theorem map_unnumbered_numberCommands (start : Nat) (cs : List Command) :
    (numberCommands start cs).map Command.unnumbered = cs.map Command.unnumbered := by
  induction cs generalizing start with
  | nil => rfl
  | cons c rest ih =>
      rw [numberCommands, List.map_cons, ih, List.map_cons]
      rfl

theorem map_unnumbered_numberProcesses (start : Nat) (ps : List CommandSequence) :
    (numberProcesses start ps).map CommandSequence.unnumbered =
      ps.map CommandSequence.unnumbered := by
  induction ps generalizing start with
  | nil => rfl
  | cons p rest ih =>
      rw [numberProcesses, List.map_cons, ih, List.map_cons]
      congr 1
      exact congrArg CommandSequence.mk (map_unnumbered_numberCommands start p.commands)

theorem Pipeline.unnumbered_number (p : Pipeline) (start : Nat) :
    (p.number start).unnumbered = p.unnumbered := by
  unfold unnumbered number
  rw [map_unnumbered_numberProcesses]

/-- Numbering changes numbers only. -/
theorem Statement.unnumbered_number (s : Statement) (start : Nat) :
    (s.number start).unnumbered = s.unnumbered := by
  cases s with
  | command c => rfl
  | process p =>
      show Statement.process ⟨(numberCommands start p.commands).map Command.unnumbered⟩ = _
      rw [map_unnumbered_numberCommands]
      rfl
  | pipeline p => exact congrArg Statement.pipeline (p.unnumbered_number start)

/-! ## Pipelines that are put together -/

/-- A pipeline's commands have the numbers from zero on as soon as a process was added, whatever
    numbers there were before. -/
theorem Pipeline.map_stage_push (q : Pipeline) (p : CommandSequence) :
    (q.push p).commands.map Command.stage =
      (List.range (q.push p).commands.length).map some := by
  have hstages : (q.push p).commands.map Command.stage =
      (List.range' 0 ((q.processes ++ [p]).flatMap CommandSequence.commands).length).map some :=
    map_stage_numberProcesses 0 (q.processes ++ [p])
  have hlength := congrArg List.length hstages
  rw [List.length_map, List.length_map, List.length_range'] at hlength
  rw [hstages, hlength, List.range_eq_range']

theorem Pipeline.unnumbered_push (q : Pipeline) (p : CommandSequence) :
    (q.push p).unnumbered =
      { q with processes := (q.processes ++ [p]).map CommandSequence.unnumbered } :=
  unnumbered_number { q with processes := q.processes ++ [p] } 0

/-- A pipeline is put together of the processes that were added, in order. -/
theorem Pipeline.unnumbered_foldl_push (q : Pipeline) (ps : List CommandSequence) :
    (ps.foldl push q).unnumbered = unnumbered { q with processes := q.processes ++ ps } := by
  induction ps generalizing q with
  | nil => rw [List.append_nil]; rfl
  | cons p rest ih =>
      have hfirst := congrArg Pipeline.processes (q.unnumbered_push p)
      rw [List.foldl_cons, ih]
      unfold unnumbered at hfirst ⊢
      dsimp only at hfirst ⊢
      rw [List.map_append, hfirst, ← List.map_append, List.append_assoc]
      rfl

namespace Statement

/-- **Stages are numbered from the first on, without gaps, in the order of the commands.**

    Numbering a statement leads to the number behind the last, gives its commands those in between,
    in order, and changes nothing else, whatever numbers were there. In a pipeline to which one
    process was added after another the commands are numbered from zero on after each of them, and
    it consists of those processes. -/
theorem assign_exact :
    (∀ (s : Statement) (start : Nat),
      (s.assign start).1 = start + s.commands.length ∧
      (s.assign start).2.commands.map Command.stage =
        (List.range' start s.commands.length).map some ∧
      (s.assign start).2.unnumbered = s.unnumbered) ∧
    ∀ processes : List CommandSequence,
      let q := processes.foldl Pipeline.push {}
      q.commands.map Command.stage = (List.range q.commands.length).map some ∧
        q.unnumbered = Pipeline.unnumbered { processes } := by
  constructor
  · intro s start
    rw [s.assign_eq]
    exact ⟨rfl, s.map_stage_commands_number start, s.unnumbered_number start⟩
  · intro processes
    refine ⟨?_, Pipeline.unnumbered_foldl_push {} processes⟩
    rcases List.eq_nil_or_concat processes with rfl | ⟨earlier, last, rfl⟩
    · rfl
    · rw [List.concat_eq_append, List.foldl_append]
      exact Pipeline.map_stage_push _ last

end Statement

end Promptline
