set_option autoImplicit false

/-! # Statements

What the shell is asked to run: one command; a process, whose commands run one after another; or a
pipeline, whose processes run at the same time. Each command is a *stage*, and stages are numbered
in the order in which the statement is read. -/

namespace Promptline

/-- The names of the streams that a command reads from and writes to, where it has some. -/
structure Streams where
  input : Option String := none
  output : Option String := none
  error : Option String := none
  deriving DecidableEq, Repr

namespace Streams

/-- The name to read from. -/
def inputName (s : Streams) : String :=
  s.input.getD "stdin"

/-- The name to write to. -/
def outputName (s : Streams) : String :=
  s.output.getD "stdout"

/-- The name to write errors to. -/
def errorName (s : Streams) : String :=
  s.error.getD "stderr"

end Streams

/-- What a command consists of. -/
inductive Payload where
  /-- A text for the system's shell. -/
  | shell (text : String)
  /-- A script in a file; without one, the script is read from the input. -/
  | script (path : Option String)
  /-- A script that comes with the shell. -/
  | builtin (script : String)
  deriving DecidableEq, Repr

/-- The name of the kind of payload. -/
def Payload.kind : Payload → String
  | shell _ => "shell"
  | script _ => "script"
  | builtin _ => "builtin"

structure Command where
  payload : Payload
  streams : Streams := {}
  /-- The number of the stage, once it has one. -/
  stage : Option Nat := none
  deriving DecidableEq, Repr

/-- Numbers commands from `start` on. -/
def numberCommands (start : Nat) : List Command → List Command
  | [] => []
  | c :: rest => { c with stage := some start } :: numberCommands (start + 1) rest

/-- Numbers a command. Behind it, the next number is free. -/
def Command.assign (c : Command) (start : Nat) : Nat × Command :=
  (start + 1, { c with stage := some start })

/-- Numbers things one after another, each from the number on that is free behind the one before
    it: the number that is free behind the last, and the things. -/
def assignEach {α : Type} (assign : α → Nat → Nat × α) : List α → Nat → Nat × List α
  | [], next => (next, [])
  | a :: rest, next =>
    let (next, a) := assign a next
    let (next, rest) := assignEach assign rest next
    (next, a :: rest)

/-- Commands that run one after another. -/
structure CommandSequence where
  commands : List Command := []
  deriving DecidableEq, Repr

namespace CommandSequence

/-- Adds a command at the end. -/
def push (p : CommandSequence) (c : Command) : CommandSequence :=
  { commands := p.commands ++ [c] }

/-- The stage of the last command. -/
def stage (p : CommandSequence) : Option Nat :=
  p.commands.getLast?.bind Command.stage

/-- The streams of the first command. -/
def streams (p : CommandSequence) : Option Streams :=
  p.commands.head?.map Command.streams

/-- Gives every command the same streams. -/
def setStreams (p : CommandSequence) (s : Streams) : CommandSequence :=
  { commands := p.commands.map fun c => { c with streams := s } }

/-- Numbers the commands from `start` on. -/
def number (p : CommandSequence) (start : Nat) : CommandSequence :=
  { commands := numberCommands start p.commands }

/-- How many commands there are. -/
def size (p : CommandSequence) : Nat :=
  p.commands.length

/-- Numbers the commands from `start` on, and tells which number is free behind them. -/
def assign (p : CommandSequence) (start : Nat) : Nat × CommandSequence :=
  let (next, commands) := assignEach Command.assign p.commands start
  (next, { commands })

end CommandSequence

/-- Numbers the commands of processes from `start` on. -/
def numberProcesses (start : Nat) : List CommandSequence → List CommandSequence
  | [] => []
  | p :: rest => p.number start :: numberProcesses (start + p.size) rest

/-- Processes that run at the same time. -/
structure Pipeline where
  processes : List CommandSequence := []
  streams : Streams := {}
  /-- The process group that the pipeline was run in. -/
  group : Option UInt16 := none
  /-- Where the exit code is reported, if anywhere. -/
  exitName : Option String := none
  deriving DecidableEq, Repr

namespace Pipeline

/-- Every command, in the order of the stages. -/
def commands (p : Pipeline) : List Command :=
  p.processes.flatMap CommandSequence.commands

/-- Numbers the commands from `start` on, process by process. -/
def number (p : Pipeline) (start : Nat) : Pipeline :=
  { p with processes := numberProcesses start p.processes }

/-- Numbers the commands from `start` on, and tells which number is free behind them. The pipeline
    itself takes none. -/
def assign (p : Pipeline) (start : Nat) : Nat × Pipeline :=
  let (next, processes) := assignEach CommandSequence.assign p.processes start
  (next, { p with processes })

/-- Adds a process at the end, and numbers all commands anew. -/
def push (p : Pipeline) (process : CommandSequence) : Pipeline :=
  ({ p with processes := p.processes ++ [process] }).number 0

end Pipeline

inductive Statement where
  | command (c : Command)
  | process (p : CommandSequence)
  | pipeline (p : Pipeline)
  deriving DecidableEq, Repr

namespace Statement

/-- Every command, in the order of the stages. -/
def commands : Statement → List Command
  | command c => [c]
  | process p => p.commands
  | pipeline p => p.commands

/-- Numbers the commands from `start` on. -/
def number (s : Statement) (start : Nat) : Statement :=
  match s with
  | command c => .command { c with stage := some start }
  | process p => .process (p.number start)
  | pipeline p => .pipeline (p.number start)

/-- Numbers the commands from `start` on, and tells which number is free behind them. -/
def assign (s : Statement) (start : Nat) : Nat × Statement :=
  match s with
  | command c => let (next, c) := c.assign start; (next, .command c)
  | process p => let (next, p) := p.assign start; (next, .process p)
  | pipeline p => let (next, p) := p.assign start; (next, .pipeline p)

/-- How many stages there are. -/
def size (s : Statement) : Nat :=
  s.commands.length

/-- The stretches of commands that run one after another; the stretches run at the same time. -/
def lanes : Statement → List (List Command)
  | command c => [[c]]
  | process p => [p.commands]
  | pipeline p => p.processes.map CommandSequence.commands

/-- Notes in a pipeline which process group it runs in. -/
def inGroup (s : Statement) (group : UInt16) : Statement :=
  match s with
  | pipeline p => .pipeline { p with group := some group }
  | s => s

end Statement

end Promptline
