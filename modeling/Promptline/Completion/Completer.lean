import Promptline.Completion.CommandTable
import Promptline.Completion.Grid
import Promptline.Unicode.Whitespace

set_option autoImplicit false

/-! # Completion

What the word that ends at the cursor can be completed to: the name of a command where a command
is expected, else the name of a file. -/

namespace Promptline

open Unicode

/-- Which words are completed. -/
inductive CompletionMode where
  /-- The first word only, as a command. -/
  | tableOnly
  /-- The first word and each word behind a bar as commands, all others as files. -/
  | pipelineAware
  deriving DecidableEq, Repr

/-- What completion depends on besides the line: where commands are searched, where relative
    paths start, and which words are completed. -/
structure CompletionSettings where
  searchPaths : List Path
  currentDirectory : Path
  mode : CompletionMode
  deriving DecidableEq, Repr

/-- What a word can be completed to. -/
inductive Completion where
  | none
  /-- The one text to put in the place of the word. -/
  | single (replacement : List Char)
  | candidates (grid : Grid)
  deriving DecidableEq, Repr

namespace Completion

/-- How a completion is shown in a log. -/
def shown : Completion → String
  | none => "None"
  | single s => "SingleMatch(" ++ String.ofList (Quoted.text s) ++ ")"
  | candidates g => "Candidates(" ++ g.shown ++ ")"

/-- Two names or more, for a terminal of some width. -/
def ofNames (names : List (List Char)) (width : Nat) : Completion :=
  match Grid.layout names width with
  | some grid => .candidates grid
  | Option.none => .none

end Completion

/-- A line with a cursor, and the width of the terminal that candidates are shown on. -/
structure CompletionRequest where
  line : List Char
  cursor : Nat
  width : Nat
  deriving DecidableEq, Repr

namespace CompletionRequest

/-- The text in front of the cursor. -/
def before (r : CompletionRequest) : List Char :=
  ((clusters r.line).take r.cursor).flatten

/-- The word that ends at the cursor; empty behind a blank. -/
def word (r : CompletionRequest) : List Char :=
  (splitAtBlanks r.before).getLast?.getD []

/-- The last word in front of that. -/
def previousWord? (r : CompletionRequest) : Option (List Char) :=
  (splitAtBlanks r.before).dropLast.reverse.find? fun w => !w.isEmpty

/-- The token behind which a command is expected again. -/
def bar : List Char := ['|']

/-- Whether the word stands where a command is expected. -/
def expectsCommand (r : CompletionRequest) (mode : CompletionMode) : Bool :=
  match r.previousWord?, mode with
  | none, _ => true
  | some w, .pipelineAware => w == bar
  | some _, .tableOnly => false

end CompletionRequest

/-- The part of a word up to its last slash, and the rest. -/
def splitAtLastSlash (word : List Char) : List Char × List Char :=
  let name := (word.reverse.takeWhile (· != '/')).reverse
  (word.take (word.length - name.length), name)

namespace CompletionSettings

/-- The directory that the directory part of a word names. -/
def directoryOf (s : CompletionSettings) (part : List Char) : Path :=
  if part.isEmpty then s.currentDirectory else s.currentDirectory.join (Utf8.encode part)

/-- The names in a directory that begin with a text, each with whether it is a directory, in
    increasing order. -/
def entriesMatching (files : FileTree) (directory : Path) (beginning : List Char)
    (names : List Path) : List (List Char × Bool) :=
  (names.filterMap fun name =>
    match Utf8.decodeAll? name with
    | none => none
    | some text =>
      if beginning.isPrefixOf text then some (text, files.isDirectory (directory.join name))
      else none).mergeSort fun a b => !decide (b.1 < a.1)

/-- Completes a word as the name of a file. -/
def completeFile (s : CompletionSettings) (files : FileTree) (word : List Char) (width : Nat) :
    Completion × List Log.Record :=
  let (part, beginning) := splitAtLastSlash word
  let directory := s.directoryOf part
  match files.list directory with
  | .error reason =>
    let e : ListingError := { path := directory, reason }
    (.none, [{ level := .debug, message := "path completion found no directory"
               fields := [("error", e.diagnostic.message)] }])
  | .ok names =>
    (match entriesMatching files directory beginning names with
      | [] => .none
      | [(name, isDirectory)] => .single (part ++ name ++ if isDirectory then ['/'] else [])
      | entries => Completion.ofNames (entries.map (·.1)) width, [])

/-- The table, rebuilt if it is stale, and the records about that. -/
def loaded (s : CompletionSettings) (files : FileTree) (table : CommandTable) :
    CommandTable × List Log.Record :=
  if table.isLoaded then (table, [])
  else ((table.rebuild files s.searchPaths).2, CommandTable.refreshNotes files s.searchPaths)

/-- Completes a word as the name of a command of the table. -/
def completeCommand (table : CommandTable) (word : List Char) (width : Nat) : Completion :=
  match table.matching word with
  | [] => .none
  | [name] => .single (name ++ [' '])
  | names => Completion.ofNames names width

/-- What the word at the cursor can be completed to, the command table after looking it up, and
    the records about it. -/
def complete (s : CompletionSettings) (files : FileTree) (table : CommandTable)
    (r : CompletionRequest) : Completion × CommandTable × List Log.Record :=
  let word := r.word
  if word.isEmpty then (.none, table, [])
  else
    let (answer, table', notes) : Completion × CommandTable × List Log.Record :=
      if r.expectsCommand s.mode then
        let (table', notes) := s.loaded files table
        (completeCommand table' word r.width, table', notes)
      else if s.mode = .pipelineAware then
        let (answer, notes) := s.completeFile files word r.width
        (answer, table, notes)
      else (.none, table, [])
    (answer, table', notes ++
      [{ level := .debug, message := "completion"
         fields := [("partial", String.ofList (Quoted.text word)),
           ("result", answer.shown)] }])

end CompletionSettings

end Promptline
