import Promptline.Editor.State

set_option autoImplicit false

/-! # Configuration

Everything that the editor takes from its surroundings. -/

namespace Promptline

structure Config where
  prompt : List Char := "rsh> ".toList
  searchPaths : List Path := []
  currentDirectory : Path := Path.here
  mode : CompletionMode := .pipelineAware
  historyMaxSize : Nat := History.defaultMaxSize
  /-- How long completion may take. -/
  completionTimeoutMs : Nat := 2000
  /-- Columns and rows of the terminal. -/
  size : UInt16 × UInt16 := (80, 24)
  deriving DecidableEq, Repr

namespace Config

/-- The byte of `:`. -/
def pathSeparator : UInt8 := 0x3A

/-- The search paths in the value of a variable: what stands between colons. -/
def splitSearchPath (value : List UInt8) : List Path :=
  value.splitOn pathSeparator

/-- The configuration with the search paths of a variable that may be missing. -/
def ofSearchPath (value? : Option (List UInt8)) : Config where
  searchPaths := (value?.map splitSearchPath).getD []

/-- The part that completion depends on. -/
def completionSettings (c : Config) : CompletionSettings where
  searchPaths := c.searchPaths
  currentDirectory := c.currentDirectory
  mode := c.mode

/-- A fresh editor with an empty history. -/
def editor (c : Config) : Editor :=
  .start c.prompt c.completionSettings (.empty c.historyMaxSize) c.size

end Config

end Promptline
