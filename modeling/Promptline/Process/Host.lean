import Promptline.Log
import Promptline.Process.Table
import Promptline.Statement

set_option autoImplicit false

/-! # Hosts

What runs the processes. A host starts a command, says whether a process has exited, and stops a
process; between these calls its processes go on by themselves. A handle is a number that the host
gives a process when it starts it. -/

namespace Promptline

/-- The numbers that a host gives to processes. -/
abbrev Handle := Nat

/-- The calls of a host whose state is a `σ`. -/
structure Host (σ : Type) where
  /-- Starts a command; the host is shown the process table. -/
  start : Command → ProcessTable Handle → σ → Except ProcessError Handle × σ
  /-- Asks once whether a process has exited, and with what code. -/
  poll : Handle → σ → Option Int × σ
  /-- Stops a process, if it still runs. -/
  terminate : Handle → σ → σ

namespace Host

variable {σ : Type}

/-- Stops processes one after another. -/
def terminateAll (host : Host σ) (handles : List Handle) (state : σ) : σ :=
  handles.foldl (fun s h => host.terminate h s) state

end Host

/-! ## Waiting for a group -/

/-- A wait for some processes, one after another. The processes are those that a group held when
    the wait began. -/
structure GroupWait where
  pending : List Handle
  /-- The first exit code so far that is not zero. -/
  code : Int
  deriving DecidableEq, Repr

namespace GroupWait

/-- What waiting for a group comes to that holds no process and never did. -/
def unknownGroupCode : Int := -1

/-- The wait for processes that begins now. -/
def start (handles : List Handle) : GroupWait :=
  { pending := handles, code := 0 }

/-- The code of processes so far, after one more has exited. -/
def combine (code exit : Int) : Int :=
  if code = 0 then exit else code

/-- Asks for the processes in turn, up to the first that still runs. -/
def pollFrom {σ : Type} (host : Host σ) (code : Int) (state : σ) :
    List Handle → GroupWait × σ
  | [] => ({ pending := [], code }, state)
  | h :: rest =>
    match host.poll h state with
    | (none, state') => ({ pending := h :: rest, code }, state')
    | (some exit, state') => pollFrom host (combine code exit) state' rest

/-- Goes on with the wait as far as it can. -/
def poll {σ : Type} (host : Host σ) (w : GroupWait) (state : σ) : GroupWait × σ :=
  pollFrom host w.code state w.pending

/-- The exit code of all processes, once all have exited. -/
def result? (w : GroupWait) : Option Int :=
  if w.pending.isEmpty then some w.code else none

/-- The record about a wait for a group that does not exist. -/
def unknownNote (group : UInt16) : Log.Record where
  level := .debug
  message := "wait on unknown process group"
  fields := [("group_id", toString group.toNat)]

end GroupWait

end Promptline
