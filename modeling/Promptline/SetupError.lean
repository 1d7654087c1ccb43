import Promptline.Text.Quoted

set_option autoImplicit false

/-! # Errors before anything runs

Failures of preparing the shell that deserve no type of their own. -/

namespace Promptline

/-- What kind of thing failed. -/
inductive SetupError.Kind where
  /-- Reading or writing. -/
  | io
  deriving DecidableEq, Repr

/-- The name of a kind. -/
def SetupError.Kind.name : SetupError.Kind → String
  | io => "IOError"

structure SetupError where
  kind : SetupError.Kind
  message : Option String
  deriving DecidableEq, Repr

namespace SetupError

/-- A failure with an account of it. -/
def ofMessage (kind : Kind) (message : String) : SetupError :=
  { kind, message := some message }

/-- How a message that may be missing is shown. -/
def messageShown : Option String → String
  | none => "None"
  | some s => "Some(" ++ String.ofList (Quoted.text s.toList) ++ ")"

/-- How the error is shown: kind and message by name. -/
def shown (e : SetupError) : String :=
  "CommonError \x7b error_type: " ++ e.kind.name ++ ", error_message: " ++ messageShown e.message
    ++ " \x7d"

end SetupError

end Promptline
