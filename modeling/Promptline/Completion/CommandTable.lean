import Promptline.Diagnostic
import Promptline.Files.Tree
import Promptline.Log
import Promptline.Text.Quoted

set_option autoImplicit false

/-! # The command table

The names of the programs that lie in the directories commands are searched in, each with the
place it was found at. The table is a memory of those directories and goes stale; whoever needs it
rebuilds it. -/

namespace Promptline

/-- Names of commands in increasing order, with the path of each. -/
structure CommandTable where
  commands : List (List Char × Path)
  isLoaded : Bool
  deriving DecidableEq, Repr

/-- A search path that cannot be listed. -/
structure ListingError where
  path : Path
  reason : FileError
  deriving DecidableEq, Repr

def ListingError.diagnostic (e : ListingError) : Diagnostic where
  message := "Can't list directory " ++ String.ofList (Quoted.bytes e.path)
  code := "r3bl_shell::completion::io"
  help := some "Check that the directory exists and is readable"

namespace CommandTable

/-- The table before it is loaded. -/
def empty : CommandTable :=
  { commands := [], isLoaded := false }

def size (t : CommandTable) : Nat :=
  t.commands.length

/-- Marks the table as stale; it keeps what it holds until it is rebuilt. -/
def invalidate (t : CommandTable) : CommandTable :=
  { t with isLoaded := false }

/-- Puts a command in its place by name, instead of one of the same name. -/
def insert (name : List Char) (path : Path) :
    List (List Char × Path) → List (List Char × Path)
  | [] => [(name, path)]
  | (other, p) :: rest =>
    if name < other then (name, path) :: (other, p) :: rest
    else if other < name then (other, p) :: insert name path rest
    else (name, path) :: rest

/-- The commands in a directory: files that may be executed, under names that are texts. -/
def commandsIn (files : FileTree) (directory : Path) (names : List Path) :
    List (List Char × Path) :=
  names.filterMap fun name =>
    let path := directory.join name
    if files.isExecutable path then (Utf8.decodeAll? name).map (·, path) else none

/-- Adds the commands of a search path, if it can be listed. -/
def scan (files : FileTree) (commands : List (List Char × Path)) (directory : Path) :
    Except ListingError (List (List Char × Path)) :=
  match files.list directory with
  | .error reason => .error { path := directory, reason }
  | .ok names =>
    .ok ((commandsIn files directory names).foldl (fun cs (name, path) => insert name path cs)
      commands)

/-- Adds the commands of search paths in order; the later of two commands of one name stays.
    Search paths that cannot be listed are skipped and reported. -/
def scanAll (files : FileTree) (commands : List (List Char × Path)) :
    List Path → List ListingError × List (List Char × Path)
  | [] => ([], commands)
  | directory :: rest =>
    match scan files commands directory with
    | .ok commands' => scanAll files commands' rest
    | .error e =>
      let (errors, commands') := scanAll files commands rest
      (e :: errors, commands')

/-- Rebuilds a table: what it held is cleared before the search paths are looked through. Those that
    cannot be listed are given back. -/
def rebuild (t : CommandTable) (files : FileTree) (searchPaths : List Path) :
    List ListingError × CommandTable :=
  let cleared := { t with commands := [] }
  let (errors, commands) := scanAll files cleared.commands searchPaths
  (errors, { cleared with commands, isLoaded := true })

/-- The record about a search path that is skipped. -/
def skipNote (e : ListingError) : Log.Record where
  level := .debug
  message := "skipping search path"
  fields := [("path", String.ofList (Quoted.bytes e.path)), ("error", e.diagnostic.message)]

/-- The records about a rebuilt table. -/
def refreshNotes (files : FileTree) (searchPaths : List Path) : List Log.Record :=
  let (errors, commands) := scanAll files [] searchPaths
  errors.map skipNote ++
    [{ level := .debug, message := "command table refreshed"
       fields := [("commands", toString commands.length),
         ("search_paths", toString searchPaths.length)] }]

/-- The names of all commands, in increasing order. -/
def names (t : CommandTable) : List (List Char) :=
  t.commands.map (·.1)

/-- The names that begin with `partial`, in increasing order. -/
def matching (t : CommandTable) (beginning : List Char) : List (List Char) :=
  t.names.filter beginning.isPrefixOf

/-- Where a command was found. -/
def pathOf? (t : CommandTable) (name : List Char) : Option Path :=
  t.commands.lookup name

end CommandTable

end Promptline
