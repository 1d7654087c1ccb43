import Promptline.Config
import Promptline.Log

set_option autoImplicit false

/-! # The command line

What the program is told when it is started. -/

namespace Promptline

/-- What the command line asks for. -/
structure Options where
  /-- The prompt, if it is not the one that is shown by default. -/
  prompt : Option String := none
  mode : CompletionMode := .pipelineAware
  /-- The file to write the log to. -/
  logFile : Option String := none
  logLevel : Log.Level := .info
  deriving DecidableEq, Repr

/-- Why a command line cannot be followed. -/
inductive UsageError where
  | unknownOption (text : String)
  | missingValue (option : String)
  | invalidValue (option value : String)
  deriving DecidableEq, Repr

namespace UsageError

def message : UsageError → String
  | unknownOption text => "unexpected argument '" ++ text ++ "' found"
  | missingValue option => "a value is required for '" ++ option ++ "' but none was supplied"
  | invalidValue option value => "invalid value '" ++ value ++ "' for '" ++ option ++ "'"

end UsageError

namespace Options

def completionMode? : String → Option CompletionMode
  | "table-only" => some .tableOnly
  | "pipeline-aware" => some .pipelineAware
  | _ => none

def logLevel? : String → Option Log.Level
  | "error" => some .error
  | "warn" => some .warn
  | "info" => some .info
  | "debug" => some .debug
  | "trace" => some .trace
  | _ => none

/-- The options with one more, which has a value. -/
def set (o : Options) (option value : String) : Except UsageError Options :=
  match option with
  | "-p" | "--prompt" => .ok { o with prompt := some value }
  | "-l" | "--log-file" => .ok { o with logFile := some value }
  | "-c" | "--completion-mode" =>
    match completionMode? value with
    | some mode => .ok { o with mode }
    | none => .error (.invalidValue option value)
  | "--log-level" =>
    match logLevel? value with
    | some logLevel => .ok { o with logLevel }
    | none => .error (.invalidValue option value)
  | _ => .error (.unknownOption option)

/-- Whether an option is known; each of them has a value. -/
def isKnown (option : String) : Bool :=
  ["-p", "--prompt", "-l", "--log-file", "-c", "--completion-mode", "--log-level"].contains option

/-- The options that arguments add to those before them. -/
def parseFrom (o : Options) : List String → Except UsageError Options
  | [] => .ok o
  | [option] =>
    .error (if isKnown option then .missingValue option else .unknownOption option)
  | option :: value :: rest =>
    match o.set option value with
    | .error e => .error e
    | .ok o => parseFrom o rest

/-- The options that arguments ask for. -/
def parse (arguments : List String) : Except UsageError Options :=
  parseFrom {} arguments

/-- A configuration with what the command line asks for. -/
def configure (o : Options) (c : Config) : Config :=
  { c with prompt := (o.prompt.map String.toList).getD c.prompt, mode := o.mode }

end Options

end Promptline
