set_option autoImplicit false

/-! # Diagnostics

What a user is told about an error. -/

namespace Promptline

/-- An error as it is shown: what went wrong, a stable code to look it up by, and advice. -/
structure Diagnostic where
  message : String
  code : String
  help : Option String := none
  deriving DecidableEq, Repr

end Promptline
