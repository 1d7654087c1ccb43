import Promptline.Proofs.Process.Headstart

set_option autoImplicit false

/-! # Exit codes and timing

Two runs of a statement may differ in nothing but how long its commands take, and still answer with
different exit codes: which failure comes first depends on it. What a statement may answer is known
all the same (`Statement.yields_iff`), and so is when timing makes no difference
(`Statement.answers_agree_iff`). -/

namespace Promptline

open Asked

namespace Statement

/-- Some run of a statement ends with an exit code, while each command has its own. -/
def Yields (statement : Statement) (code : Command → Int) (answer : Int) : Prop :=
  ∃ (σ : Type) (host : Host σ) (exit? : Handle → σ → Option Int) (run : Run host exit? statement)
    (n : Nat), host.Steady exit? ∧ run.EndsWith code n answer

section Timing

variable {statement : Statement} (hfits : statement.size ≤ ProcessError.limit)
  (code : Command → Int)
include hfits

/-- **What a statement may answer**: the failures that may come first, or zero if there are none. -/
theorem yields_iff (answer : Int) :
    statement.Yields code answer ↔ MayFailFirst code (statement.number 0).lanes answer ∨
      answer = 0 ∧ ∀ failure, ¬ MayFailFirst code (statement.number 0).lanes failure := by
  constructor
  · rintro ⟨σ, host, exit?, run, n, hhost, hends⟩
    exact hends.mayFailFirst hhost hfits
  · rintro (hfirst | ⟨rfl, hnone⟩)
    · obtain ⟨quick, n, hends⟩ := Headstart.endsWith_failure hfits hfirst
      exact ⟨_, _, _, _, n, Headstart.steady_host, hends⟩
    · obtain ⟨n, answer, hends⟩ := Headstart.exists_endsWith code (fun _ => true) hfits
      obtain hfirst | ⟨rfl, -⟩ := hends.mayFailFirst Headstart.steady_host hfits
      · exact absurd hfirst (hnone answer)
      · exact ⟨_, _, _, _, n, Headstart.steady_host, hends⟩

/-- The first failure in the order of the stages is always an answer. -/
theorem yields_firstFailure :
    statement.Yields code (firstFailure ((statement.number 0).commands.map code)) := by
  rw [yields_iff hfits, ← flatten_lanes]
  by_cases hzero : firstFailure ((statement.number 0).lanes.flatten.map code) = 0
  · exact Or.inr ⟨hzero, not_mayFailFirst hzero⟩
  · exact Or.inl (mayFailFirst_flatten hzero)

/-- **When timing makes no difference.** A statement may always answer with the first failure in the
    order of its stages. All its runs in which the commands have the same exit codes answer so if
    and only if every failure that may come first is that one: each lane fails with its code, or not
    at all, unless a lane in front of it begins with a failure. -/
theorem answers_agree_iff :
    statement.Yields code (firstFailure ((statement.number 0).commands.map code)) ∧
      ((∀ answer answer', statement.Yields code answer → statement.Yields code answer' →
          answer = answer') ↔
        ∀ failure, MayFailFirst code (statement.number 0).lanes failure →
          failure = firstFailure ((statement.number 0).commands.map code)) := by
  refine ⟨yields_firstFailure hfits code, ?_⟩
  constructor
  · intro hagree failure hfirst
    exact hagree failure _ ((yields_iff hfits code failure).2 (Or.inl hfirst))
      (yields_firstFailure hfits code)
  · intro hfirst answer answer' hanswer hanswer'
    rcases (yields_iff hfits code answer).1 hanswer with h | ⟨rfl, hnone⟩
    · rcases (yields_iff hfits code answer').1 hanswer' with h' | ⟨-, hnone⟩
      · exact (hfirst answer h).trans (hfirst answer' h').symm
      · exact absurd h (hnone answer)
    · rcases (yields_iff hfits code answer').1 hanswer' with h' | ⟨rfl, -⟩
      · exact absurd h' (hnone answer')
      · rfl

end Timing

/-- Exit codes by stage: the second command of the first process fails, and so does the other
    process. -/
def codesOf (second other : Int) (c : Command) : Int :=
  match c.stage with
  | some 1 => second
  | some 2 => other
  | _ => 0

/-- If both fail with the same code, it does not matter which failure comes first. -/
theorem answers_agree_same_code :
    Run.twoLanes.size ≤ ProcessError.limit ∧ Run.twoLanes.Yields (codesOf 3 3) 3 ∧
      ∀ answer answer', Run.twoLanes.Yields (codesOf 3 3) answer →
        Run.twoLanes.Yields (codesOf 3 3) answer' → answer = answer' := by
  have hsize : Run.twoLanes.size ≤ ProcessError.limit := by decide
  obtain ⟨hyields, hagree⟩ := answers_agree_iff hsize (codesOf 3 3)
  refine ⟨hsize, hyields, hagree.2 ?_⟩
  rintro failure ⟨-, pre, plan, post, hlanes, -, rfl⟩
  have hplan : plan ∈ (Run.twoLanes.number 0).lanes :=
    hlanes ▸ List.mem_append_right _ List.mem_cons_self
  rcases List.mem_cons.1 hplan with rfl | hplan
  · rfl
  · obtain rfl := List.mem_singleton.1 hplan
    rfl

/-- A rehearsal in which the first command takes some time, and the others take none. -/
def timed (delay : Nat) : Run Rehearsal.host Rehearsal.exitCode? Run.twoLanes :=
  .alone Rehearsal.host Rehearsal.exitCode?
    (s := ⟨({ Rehearsal.State.empty with
      plans := [.run ⟨0, some delay, 9⟩, .run ⟨2, some 0, 9⟩, .run ⟨3, some 0, 9⟩] }, []),
      .empty, []⟩)
    rfl rfl rfl

/-- **Timing makes a difference**: if the first command takes any time, the other process fails
    before the command behind it is started. -/
theorem answers_differ_delay :
    (timed 0).EndsWith (codesOf 2 3) 1 2 ∧ (timed 1).EndsWith (codesOf 2 3) 2 3 := by
  have hquick : (timed 0).trace 1 = [.start ⟨.shell "a", {}, some 0⟩ (.ok 0), .poll 0 (some 0),
      .start ⟨.shell "b", {}, some 1⟩ (.ok 1), .poll 1 (some 2),
      .start ⟨.shell "c", {}, some 2⟩ (.ok 2), .poll 2 (some 3),
      .poll 0 (some 0), .poll 1 (some 2), .poll 2 (some 3)] := rfl
  have hslow : (timed 1).trace 2 = [.start ⟨.shell "a", {}, some 0⟩ (.ok 0), .poll 0 none,
      .start ⟨.shell "c", {}, some 2⟩ (.ok 1), .poll 1 (some 3), .poll 0 (some 0),
      .start ⟨.shell "b", {}, some 1⟩ (.ok 2), .poll 2 (some 2),
      .poll 0 (some 0), .poll 1 (some 3), .poll 2 (some 2)] := rfl
  constructor
  · refine ⟨rfl, fun c h hmem => ?_⟩
    rw [hquick] at hmem
    simp only [List.mem_cons, start.injEq, Except.ok.injEq, reduceCtorEq, List.not_mem_nil,
      or_false, false_or] at hmem
    rcases hmem with ⟨rfl, rfl⟩ | ⟨rfl, rfl⟩ | ⟨rfl, rfl⟩ <;> rfl
  · refine ⟨rfl, fun c h hmem => ?_⟩
    rw [hslow] at hmem
    simp only [List.mem_cons, start.injEq, Except.ok.injEq, reduceCtorEq, List.not_mem_nil,
      or_false, false_or] at hmem
    rcases hmem with ⟨rfl, rfl⟩ | ⟨rfl, rfl⟩ | ⟨rfl, rfl⟩ <;> rfl

end Statement

end Promptline
