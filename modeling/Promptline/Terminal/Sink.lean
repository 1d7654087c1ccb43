set_option autoImplicit false

/-! # The way to the terminal

What is written may not arrive: the terminal can be gone. Nothing depends on what it answers but
whether a write succeeds. -/

namespace Promptline.Terminal

/-- A terminal to write to. -/
structure Sink where
  /-- How many more writes succeed that are not empty; `none` if all do. -/
  remaining : Option Nat
  /-- What is wrong when one fails. -/
  failure : String
  deriving DecidableEq, Repr

namespace Sink

/-- A terminal that takes every write. -/
def working : Sink :=
  { remaining := none, failure := "" }

/-- A terminal that takes `n` more writes, and then fails for the reason given. -/
def failingAfter (n : Nat) (failure : String) : Sink :=
  { remaining := some n, failure }

/-- The terminal after a write, if the write succeeds. Writing nothing always does. -/
def accept? (p : Sink) (s : List Char) : Option Sink :=
  if s.isEmpty then some p
  else match p.remaining with
    | none => some p
    | some 0 => none
    | some (n + 1) => some { p with remaining := some n }

end Sink

end Promptline.Terminal
