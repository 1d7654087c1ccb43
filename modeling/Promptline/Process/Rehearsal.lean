import Promptline.Process.Execution

set_option autoImplicit false

/-! # Rehearsals

A host whose processes follow a plan: whether a command can be started, after how many polls it
exits, and with what code. Every order and timing of exits is the rehearsal of some plan. The host
keeps a trace of what it was asked for and what happened. -/

namespace Promptline.Rehearsal

/-- What a process does. -/
structure Part where
  /-- The code that it exits with by itself. -/
  exit : Int
  /-- After how many polls it exits; `none` if it never does by itself. -/
  delay : Option Nat
  /-- The code that it exits with when it is stopped. -/
  stopCode : Int
  deriving DecidableEq, Repr

/-- A process of a rehearsal: its part, and the code that it has exited with. -/
structure Actor where
  part : Part
  exited : Option Int
  deriving DecidableEq, Repr

namespace Actor

/-- The process before it is polled. -/
def start (part : Part) : Actor :=
  { part, exited := none }

/-- Asks once whether the process has exited. -/
def poll (a : Actor) : Option Int × Actor :=
  match a.exited, a.part.delay with
  | some code, _ => (some code, a)
  | none, none => (none, a)
  | none, some 0 => (some a.part.exit, { a with exited := some a.part.exit })
  | none, some (n + 1) => (none, { a with part := { a.part with delay := some n } })

/-- Stops the process, if it still runs. -/
def stop (a : Actor) : Actor :=
  match a.exited with
  | some _ => a
  | none => { a with exited := some a.part.stopCode }

end Actor

/-- What is planned for a command. -/
inductive Plan where
  | run (part : Part)
  | fail (e : ProcessError)
  deriving DecidableEq, Repr

/-- What happened in a rehearsal. -/
inductive Happening where
  /-- A stage was to be started while there were groups of some sizes. -/
  | asked (stage : Nat) (groups : List (UInt16 × Nat))
  | exited (stage : Nat) (code : Int)
  | stopped (stage : Nat) (code : Int)
  | stoppedAfterExit (stage : Nat) (code : Int)
  deriving DecidableEq, Repr

/-- Processes by handle; each knows its stage, if what happens to it is to be traced. -/
structure State where
  actors : Array (Option Nat × Actor)
  plans : List Plan
  trace : List Happening

namespace State

/-- The state before any process. -/
def empty : State :=
  { actors := #[], plans := [], trace := [] }

/-- Adds something to the trace. -/
def record (s : State) (h : Happening) : State :=
  { s with trace := s.trace ++ [h] }

/-- Adds to the trace what happened to a stage, for a process that has one. -/
def recordStage (s : State) (stage : Option Nat) (h : Nat → Happening) : State :=
  match stage with
  | some n => s.record (h n)
  | none => s

/-- Adds a process. -/
def enlist (s : State) (stage : Option Nat) (part : Part) : Handle × State :=
  (s.actors.size, { s with actors := s.actors.push (stage, .start part) })

/-- The code that a process has exited with. -/
def exited? (s : State) (h : Handle) : Option Int :=
  (s.actors[h]?).bind fun (_, a) => a.exited

/-- Asks once whether a process has exited. -/
def poll (h : Handle) (s : State) : Option Int × State :=
  match s.actors[h]? with
  | none => (none, s)
  | some (stage, a) =>
    let (code?, a') := a.poll
    let s' := { s with actors := s.actors.setIfInBounds h (stage, a') }
    match a.exited, code? with
    | none, some code => (some code, s'.recordStage stage (.exited · code))
    | _, _ => (code?, s')

/-- Stops a process. -/
def stop (h : Handle) (s : State) : State :=
  match s.actors[h]? with
  | none => s
  | some (stage, a) =>
    match a.exited with
    | some code => s.recordStage stage (.stoppedAfterExit · code)
    | none =>
      { s with actors := s.actors.setIfInBounds h (stage, a.stop) }.recordStage stage
        (.stopped · a.part.stopCode)

/-- The groups of a table and their sizes. -/
def groupSizes (t : ProcessTable Handle) : List (UInt16 × Nat) :=
  t.groups.map fun (id, g) => (id, g.size)

/-- Starts a command as it is planned for its stage. Only commands for the system's shell are ever
    started. -/
def start (c : Command) (t : ProcessTable Handle) (s : State) :
    Except ProcessError Handle × State :=
  let stage := c.stage.getD 0
  let s := s.record (.asked stage (groupSizes t))
  match c.payload with
  | .shell _ =>
    match s.plans[stage]? with
    | some (.run part) =>
      let (handle, s) := s.enlist (some stage) part
      (.ok handle, s)
    | some (.fail e) => (.error e, s)
    | none => (.error (.unsupportedPayload c.payload.kind), s)
  | other => (.error (.unsupportedPayload other.kind), s)

end State

/-- The host that follows the plans of its state. -/
def host : Host State where
  start := State.start
  poll := State.poll
  terminate := State.stop

/-- How many rounds a statement takes at most that follows the plans, if no process runs for
    ever. -/
def rounds (plans : List Plan) : Nat :=
  plans.foldl (fun n plan =>
    match plan with
    | .run part => n + part.delay.getD 0 + 1
    | .fail _ => n + 1) 2

end Promptline.Rehearsal
