import Promptline.Diagnostic
import Promptline.Files.Tree

set_option autoImplicit false

/-! # Errors of running commands -/

namespace Promptline

inductive ProcessError where
  /-- The program could not be started. -/
  | spawnFailure (program : String) (reason : FileError)
  /-- A payload that only other means of starting commands can run. -/
  | unsupportedPayload (kind : String)
  /-- Every number of a process group was handed out. -/
  | groupIdsExhausted
  /-- Every place in the process group was handed out. -/
  | groupFull (group : UInt16)
  deriving DecidableEq, Repr

namespace ProcessError

/-- How many process groups there can be, and how many processes in each. -/
def limit : Nat := 65536

def diagnostic : ProcessError → Diagnostic
  | spawnFailure program _ =>
    { message := "Failed to spawn `" ++ program ++ "`"
      code := "r3bl_shell::process::spawn_failure"
      help := some "Check that the program exists and is executable" }
  | unsupportedPayload kind =>
    { message := kind ++ " payloads can't be run by this spawner"
      code := "r3bl_shell::process::unsupported_payload"
      help := some "Use a spawner that knows how to run this kind of command" }
  | groupIdsExhausted =>
    { message := "All " ++ toString limit ++ " process group ids are in use"
      code := "r3bl_shell::process::group_ids_exhausted" }
  | groupFull group =>
    { message := "Process group " ++ toString group.toNat ++ " already holds " ++ toString limit
        ++ " processes"
      code := "r3bl_shell::process::group_full" }

end ProcessError

end Promptline
