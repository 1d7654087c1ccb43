import Promptline.Process.Host

set_option autoImplicit false

/-! # Running statements

A statement runs in a process group of its own. The commands of a lane run one after another, the
lanes at the same time: in one round, each lane goes on as far as it can, from left to right. When
a command cannot be started, no other is started after it; those that run are stopped and waited
for. The group is gone before the statement ends. -/

namespace Promptline

/-- The host, the process table, and the records so far. -/
structure Session (σ : Type) where
  host : σ
  table : ProcessTable Handle
  notes : List Log.Record := []

namespace Session

variable {σ : Type}

/-- Adds a record. -/
def note (s : Session σ) (r : Log.Record) : Session σ :=
  { s with notes := s.notes ++ [r] }

/-- Stops the processes of a group: how many they are. -/
def terminateGroup (s : Session σ) (calls : Host σ) (group : UInt16) : Nat × Session σ :=
  let handles := (s.table.handles? group).getD []
  let s := { s with host := calls.terminateAll handles s.host }
  (handles.length,
    s.note { level := .debug, message := "terminated process group"
             fields := [("group_id", toString group.toNat), ("count", toString handles.length)] })

/-- Begins to wait for the processes that a group holds now, if there is such a group. -/
def startWait (s : Session σ) (group : UInt16) : Option GroupWait × Session σ :=
  match s.table.handles? group with
  | some handles => (some (.start handles), s)
  | none => (none, s.note (GroupWait.unknownNote group))

/-- Takes a group out of the table. -/
def removeGroup (s : Session σ) (group : UInt16) : Session σ :=
  { s with table := (s.table.removeGroup group).2 }

/-- How a stage is shown in a log. -/
def stageShown (stage : Option Nat) : String :=
  match stage with
  | none => "None"
  | some n => "Some(" ++ toString n ++ ")"

/-- Starts a command and puts it in a group. A process that finds no place there is stopped. -/
def startIn (s : Session σ) (calls : Host σ) (group : UInt16) (c : Command) :
    Except ProcessError Handle × Session σ :=
  match calls.start c s.table s.host with
  | (.error e, host) => (.error e, { s with host })
  | (.ok handle, host) =>
    match s.table.add group handle with
    | .error e => (.error e, { s with host := calls.terminate handle host })
    | .ok (id, table) =>
      (.ok handle, ({ s with host, table }).note
        { level := .debug, message := "spawned stage"
          fields := [("stage_id", stageShown c.stage), ("packed_id", id.shown)] })

end Session

/-! ## Lanes -/

/-- Commands that run one after another: the one that runs, and those behind it. -/
structure Lane where
  running : Option (Command × Handle)
  waiting : List Command
  deriving DecidableEq, Repr

namespace Lane

variable {σ : Type}

/-- The lane before its first command. -/
def start (commands : List Command) : Lane :=
  { running := none, waiting := commands }

/-- Whether every command has exited. -/
def isDone (l : Lane) : Bool :=
  l.running.isNone && l.waiting.isEmpty

/-- The record about a stage that has exited. -/
def exitNote (c : Command) (code : Int) : Log.Record where
  level := .debug
  message := "stage exited"
  fields := [("stage_id", Session.stageShown c.stage), ("exit_code", toString code)]

/-- Starts commands one after another as long as each has exited at once. -/
def advance (calls : Host σ) (group : UInt16) (s : Session σ) :
    List Command → Except ProcessError Lane × Session σ
  | [] => (.ok { running := none, waiting := [] }, s)
  | c :: rest =>
    match s.startIn calls group c with
    | (.error e, s) => (.error e, s)
    | (.ok handle, s) =>
      match calls.poll handle s.host with
      | (none, host) => (.ok { running := some (c, handle), waiting := rest }, { s with host })
      | (some code, host) =>
        advance calls group (({ s with host }).note (exitNote c code)) rest

/-- Goes on with the lane as far as it can. -/
def poll (calls : Host σ) (group : UInt16) (s : Session σ) (l : Lane) :
    Except ProcessError Lane × Session σ :=
  match l.running with
  | none => advance calls group s l.waiting
  | some (c, handle) =>
    match calls.poll handle s.host with
    | (none, host) => (.ok l, { s with host })
    | (some code, host) =>
      advance calls group (({ s with host }).note (exitNote c code)) l.waiting

/-- One round: every lane in turn, up to the first error. -/
def pollAll (calls : Host σ) (group : UInt16) (s : Session σ) :
    List Lane → Except ProcessError (List Lane) × Session σ
  | [] => (.ok [], s)
  | l :: rest =>
    match l.poll calls group s with
    | (.error e, s) => (.error e, s)
    | (.ok l', s) =>
      match pollAll calls group s rest with
      | (.error e, s) => (.error e, s)
      | (.ok rest', s) => (.ok (l' :: rest'), s)

end Lane

/-! ## Statements -/

/-- How far a statement is. -/
inductive Phase where
  | running (lanes : List Lane)
  /-- Every command was started, or one could not be: the group is waited for. -/
  | waiting (wait : GroupWait) (failure : Option ProcessError)
  | finished (answer : Except ProcessError Int)

/-- A statement that runs. -/
structure Execution (σ : Type) where
  session : Session σ
  group : UInt16
  /-- How many stages the statement has. -/
  stages : Nat
  phase : Phase

namespace Execution

variable {σ : Type}

/-- The record about a statement whose commands all were started. -/
def finishNote (x : Execution σ) (code : Int) : Log.Record where
  level := .info
  message := "statement finished"
  fields := [("group_id", toString x.group.toNat), ("stage_count", toString x.stages),
    ("exit_code", toString code)]

/-- The record about a statement with a command that could not be started. -/
def failNote (x : Execution σ) (e : ProcessError) : Log.Record where
  level := .warn
  message := "statement failed to start"
  fields := [("group_id", toString x.group.toNat), ("error", e.diagnostic.message)]

/-- Takes the group out of the table and ends the statement. -/
def finish (x : Execution σ) (code : Int) (failure : Option ProcessError) : Execution σ :=
  let session := x.session.removeGroup x.group
  match failure with
  | some e => { x with session, phase := .finished (.error e) }
  | none => { x with session := session.note (x.finishNote code), phase := .finished (.ok code) }

/-- Waits for the group as long as its processes have exited already. -/
def pollWait (x : Execution σ) (calls : Host σ) (wait : GroupWait)
    (failure : Option ProcessError) : Execution σ :=
  let (wait, host) := wait.poll calls x.session.host
  let x := { x with session := { x.session with host } }
  match wait.result? with
  | some code => x.finish code failure
  | none => { x with phase := .waiting wait failure }

/-- Begins to wait for the group. Without such a group there is nothing to wait for. -/
def startWait (x : Execution σ) (calls : Host σ) (failure : Option ProcessError) : Execution σ :=
  match x.session.startWait x.group with
  | (some wait, session) => { x with session }.pollWait calls wait failure
  | (none, session) => { x with session }.finish GroupWait.unknownGroupCode failure

/-- Ends a statement with a command that could not be started. -/
def fail (x : Execution σ) (calls : Host σ) (e : ProcessError) : Execution σ :=
  let session := x.session.note (x.failNote e)
  let (_, session) := session.terminateGroup calls x.group
  { x with session }.startWait calls (some e)

/-- Goes on with the statement as far as it can. -/
def poll (x : Execution σ) (calls : Host σ) : Execution σ :=
  match x.phase with
  | .finished _ => x
  | .waiting wait failure => x.pollWait calls wait failure
  | .running lanes =>
    match Lane.pollAll calls x.group x.session lanes with
    | (.error e, session) => { x with session }.fail calls e
    | (.ok lanes, session) =>
      if lanes.all Lane.isDone then
        if x.stages = 0 then { x with session }.finish 0 none
        else { x with session }.startWait calls none
      else { x with session, phase := .running lanes }

/-- Whether the statement has ended, and how. -/
def answer? (x : Execution σ) : Option (Except ProcessError Int) :=
  match x.phase with
  | .finished answer => some answer
  | _ => none

/-- Goes on with the statement in at most `rounds` rounds. -/
def pollTimes (x : Execution σ) (calls : Host σ) : Nat → Execution σ
  | 0 => x
  | rounds + 1 => if x.answer?.isSome then x else (x.poll calls).pollTimes calls rounds

end Execution

/-- What running a statement comes to. -/
structure Ran (σ : Type) where
  /-- The exit code, or what went wrong; none if a process still runs after all rounds. -/
  answer : Option (Except ProcessError Int)
  /-- The statement with its stages numbered and its group noted. -/
  statement : Statement
  session : Session σ

namespace Session

variable {σ : Type}

/-- Numbers a statement and takes a fresh group for it. -/
def begin (s : Session σ) (statement : Statement) : Except ProcessError (Execution σ) × Statement :=
  let statement := statement.number 0
  match s.table.newGroup with
  | .error e => (.error e, statement)
  | .ok (group, table) =>
    (.ok { session := { s with table }
           group
           stages := statement.size
           phase := .running (statement.lanes.map Lane.start) },
      statement.inGroup group)

/-- Runs a statement in at most `rounds` rounds. -/
def execute (s : Session σ) (calls : Host σ) (rounds : Nat) (statement : Statement) : Ran σ :=
  match s.begin statement with
  | (.error e, statement) => { answer := some (.error e), statement, session := s }
  | (.ok x, statement) =>
    let x := x.pollTimes calls rounds
    { answer := x.answer?, statement, session := x.session }

end Session

end Promptline
