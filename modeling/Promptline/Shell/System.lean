import Promptline.Process.Execution
import Promptline.Shell.Run

set_option autoImplicit false

/-! # The system's shell as a host

Commands are texts for the system's shell, which runs in a directory and reads and writes files. -/

namespace Promptline.Shell

/-- The shell to start, where it starts, the files, and the processes by handle. -/
structure System where
  program : List Char
  directory : Path
  files : FileTree
  processes : Array Life

namespace System

/-- The system before any process. -/
def start (program : List Char) (directory : Path) (files : FileTree) : System :=
  { program, directory, files, processes := #[] }

/-- Starts a command. Only commands for the shell can be started. -/
def launch (c : Command) (_ : ProcessTable Handle) (s : System) :
    Except ProcessError Handle × System :=
  match c.payload with
  | .shell text =>
    match startProgram s.files s.directory s.program [['-', 'c'], text.toList] with
    | .error e => (.error (.spawnFailure (String.ofList s.program) e), s)
    | .ok (life, files) =>
      (.ok s.processes.size, { s with files, processes := s.processes.push life })
  | other => (.error (.unsupportedPayload other.kind), s)

/-- Asks once whether a process has ended. A process that sleeps goes on with its script when its
    time is over. -/
def poll (h : Handle) (s : System) : Option Int × System :=
  match s.processes[h]? with
  | none => (none, s)
  | some (.ended status) => (some status.code, s)
  | some (.asleep (ticks + 1) resume) =>
    (none, { s with processes := s.processes.setIfInBounds h (.asleep ticks resume) })
  | some (.asleep 0 resume) =>
    let (life, files) := resume s.files
    let s := { s with files, processes := s.processes.setIfInBounds h life }
    match life with
    | .ended status => (some status.code, s)
    | .asleep .. => (none, s)

/-- Kills a process, if it still runs. -/
def kill (h : Handle) (s : System) : System :=
  match s.processes[h]? with
  | some (.asleep ..) =>
    { s with processes := s.processes.setIfInBounds h (.ended (.signaled killSignal)) }
  | _ => s

end System

/-- The host that hands commands to the system's shell. -/
def host : Host System where
  start := System.launch
  poll := System.poll
  terminate := System.kill

end Promptline.Shell
