set_option autoImplicit false

/-! # Monitored processes

A child process ends by itself, or is killed on request, whichever comes first. A monitor waits
for either, collects how the child ended, and publishes its exit code once. Who wants the child to
end rings a bell, to which the monitor may be listening, or not yet, or no longer.

The child, its monitor and those who ask go on side by side. Whatever one of them does that another
may notice is an action of its own (`Action`), and the actions come in any order in which each is
possible when its turn comes (`next?`, `run?`). -/

namespace Promptline

/-- How a process ended. -/
inductive ExitStatus where
  | exited (code : Nat)
  | signaled (signal : Nat)
  /-- The system names neither a code nor a signal. -/
  | unexplained
  deriving DecidableEq, Repr

namespace ExitStatus

/-- What counts as exit code if it is not known how a process ended. -/
def unknownCode : Int := 1

/-- The exit code of an ended process; one that a signal ended counts from 128. -/
def code : ExitStatus → Int
  | exited code => code
  | signaled signal => 128 + signal
  | unexplained => unknownCode

/-- The exit code of a process whose end was collected, unless that failed. -/
def codeOf : Option ExitStatus → Int
  | some status => status.code
  | none => unknownCode

end ExitStatus

/-- The signal that a process cannot refuse. -/
def killSignal : Nat := 9

/-! ## The bell -/

/-- A bell to which one party may listen. A ring that nobody hears is kept, but never more than
    one. -/
inductive Bell where
  /-- Nobody listens. -/
  | unattended (kept : Bool)
  /-- Somebody listens, and it has not rung since. -/
  | attended
  /-- It has rung for the one who listens, and who has not noticed yet. -/
  | called (kept : Bool)
  deriving DecidableEq, Repr

namespace Bell

/-- Whether there is a ring, which who listens next will hear. -/
def isRung : Bell → Bool
  | unattended kept => kept
  | attended => false
  | called _ => true

def ring : Bell → Bell
  | unattended _ => unattended true
  | attended => called false
  | called _ => called true

/-- Listens once. A ring is heard and used up; without one, somebody listens from now on. -/
def listen : Bell → Bell
  | unattended true => unattended false
  | unattended false | attended => attended
  | called kept => unattended kept

/-- Listens no longer. A ring that was not noticed is kept. -/
def leave : Bell → Bell
  | unattended kept => unattended kept
  | attended => unattended false
  | called _ => unattended true

end Bell

/-! ## The monitor -/

namespace Monitor

/-- How far the monitor is. -/
inductive Phase where
  /-- It waits for the end of the child and for a ring, and may see either of them first. -/
  | listening
  /-- It has heard a ring, and is about to kill the child. -/
  | killing
  /-- It waits for the end of the child alone. -/
  | waiting
  /-- It has collected how the child ended, unless that failed, and is about to publish it. -/
  | publishing (collected : Option ExitStatus)
  /-- It has published the exit code. -/
  | done
  /-- It was dropped before it published anything. -/
  | gone
  deriving DecidableEq, Repr

/-- Whether the monitor waits for the end of the child. -/
def Phase.awaitsChild : Phase → Bool
  | listening | waiting => true
  | _ => false

/-- Whether nothing more comes of the monitor. -/
def Phase.isOver : Phase → Bool
  | done | gone => true
  | _ => false

end Monitor

/-- A child process, its monitor, and those who ask for its end. -/
structure Monitor where
  /-- How the child ended, once it has. -/
  ended : Option ExitStatus
  /-- Whether the child was killed, as far as the system has let it. -/
  killSent : Bool
  /-- How many have found no exit code, and are about to ring. -/
  callers : Nat
  bell : Bell
  phase : Monitor.Phase
  /-- The exit code that everyone sees. -/
  published : Option Int
  deriving DecidableEq, Repr

namespace Monitor

/-- A child that was just started; its monitor has not looked at anything yet. -/
def start : Monitor :=
  { ended := none, killSent := false, callers := 0, bell := .unattended false
    phase := .listening, published := none }

/-- What a wait for the exit code has come to, if it is over. A monitor that is gone publishes
    nothing any more. -/
def answer? (m : Monitor) : Option Int :=
  match m.published, m.phase with
  | some code, _ => some code
  | none, .gone => some ExitStatus.unknownCode
  | none, _ => none

/-! ## Actions -/

/-- One thing that may happen. -/
inductive Action where
  /-- The child ends by itself. -/
  | exits (status : ExitStatus)
  /-- The child ends because it was killed. -/
  | dies
  /-- Somebody asks for the end of the child. Who finds an exit code leaves it at that. -/
  | request
  /-- Who has found no exit code rings the bell, and leaves it at that. -/
  | ring
  /-- The monitor listens once. -/
  | listen
  /-- The monitor kills the child, which the system may not let it do. -/
  | kill (accepted : Bool)
  /-- The monitor collects how the child ended. -/
  | collect
  /-- The monitor fails to collect how the child ended. -/
  | fail
  | publish
  /-- The monitor is dropped. -/
  | drop
  /-- Somebody reads the exit code. -/
  | read (code : Option Int)
  /-- Somebody's wait for the exit code is over. -/
  | answer (code : Int)
  deriving DecidableEq, Repr

/-- What an action comes to, if it is possible. -/
def next? (m : Monitor) : Action → Option Monitor
  | .exits status => if m.ended.isNone then some { m with ended := some status } else none
  | .dies =>
    if m.killSent ∧ m.ended.isNone then some { m with ended := some (.signaled killSignal) }
    else none
  | .request => some (if m.published.isSome then m else { m with callers := m.callers + 1 })
  | .ring =>
    if m.callers = 0 then none
    else some { m with callers := m.callers - 1, bell := m.bell.ring }
  | .listen =>
    if m.phase = .listening then
      some { m with bell := m.bell.listen
                    phase := if m.bell.isRung then .killing else .listening }
    else none
  | .kill accepted =>
    if m.phase = .killing then some { m with killSent := accepted, phase := .waiting } else none
  | .collect =>
    match m.ended with
    | some status =>
      if m.phase.awaitsChild then
        some { m with bell := m.bell.leave, phase := .publishing (some status) }
      else none
    | none => none
  | .fail =>
    if m.phase.awaitsChild then some { m with bell := m.bell.leave, phase := .publishing none }
    else none
  | .publish =>
    match m.phase with
    | .publishing collected =>
      some { m with phase := .done, published := some (ExitStatus.codeOf collected) }
    | _ => none
  | .drop =>
    if m.phase.isOver then none else some { m with bell := m.bell.leave, phase := .gone }
  | .read code => if m.published = code then some m else none
  | .answer code => if m.answer? = some code then some m else none

/-- What actions come to one after another, if each is possible when its turn comes. -/
def run? (m : Monitor) (actions : List Action) : Option Monitor :=
  actions.foldlM next? m

/-! ## Whole calls -/

/-- Asks for the end of the child, and is not interrupted meanwhile. -/
def terminate (m : Monitor) : Monitor :=
  (m.run? (if m.published.isSome then [.request] else [.request, .ring])).getD m

/-- Lets the child come to its end, which it reaches by itself with a status, and at once unless it
    is slow. A slow child is killed if that was asked for. -/
def settle (m : Monitor) (status : ExitStatus) (slow : Bool) : Monitor :=
  if m.published.isSome then m
  else
    let actions :=
      if slow ∧ m.bell.isRung then [.listen, .kill true, .dies, .collect, .publish]
      else [.exits status, .collect, .publish]
    (m.run? actions).getD m

end Monitor

end Promptline
