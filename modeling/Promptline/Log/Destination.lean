import Promptline.Files.Tree
import Promptline.Log
import Promptline.Text.Quoted

set_option autoImplicit false

/-! # Where a log goes

Lines of a log are shown, written to a file, both, or neither. A log file is only ever added to; it
and the directories above it are made when the log is opened. -/

namespace Promptline.Log

/-- Where the lines of a log go. -/
inductive Destination where
  | nowhere
  | display
  | file (path : Path)
  | displayAndFile (path : Path)
  deriving DecidableEq, Repr

/-- Why a log file cannot be opened. -/
inductive OpenError where
  /-- The path names no directory that the file could be in. -/
  | noDirectory (path : Path)
  /-- The path does not end in a name. -/
  | noFileName (path : Path)
  /-- The file cannot be made. -/
  | notCreated (path : Path) (reason : FileError)
  deriving DecidableEq, Repr

namespace OpenError

/-- What a user is told about a part of a path. -/
def complaint (part : String) (path : Path) : String :=
  "Can't access " ++ part ++ " " ++ String.ofList (Utf8.decodeLossy path)
    ++ ". It might not exist, or don't have required permissions."

def message : OpenError → String
  | noDirectory path => complaint "current folder" path
  | noFileName path => complaint "file name" path
  | notCreated .. => "log file can't be created"

end OpenError

/-- The directory of a log file, and the path that the file is opened at. -/
def filePath (path : Path) : Except OpenError (Path × Path) :=
  match path.parent? with
  | none => .error (.noDirectory path)
  | some parent =>
    match path.fileName? with
    | none => .error (.noFileName path)
    | some name =>
      let directory := if parent.isEmpty then Path.here else parent
      .ok (directory, directory.join name)

/-- Makes a log file, and first the directories above it if it takes that. A file that is there
    already stays as it is. -/
def openFile (files : FileTree) (path : Path) : Except OpenError (Path × FileTree) :=
  match filePath path with
  | .error e => .error e
  | .ok (directory, target) =>
    match files.write target true [] with
    | .ok files => .ok (target, files)
    | .error _ =>
      match (files.makeDirectory directory).1.write target true [] with
      | .ok files => .ok (target, files)
      | .error reason => .error (.notCreated path reason)

namespace Destination

/-- Whether lines are shown. -/
def isDisplayed : Destination → Bool
  | display | displayAndFile _ => true
  | nowhere | file _ => false

/-- The file that lines are written to. -/
def path? : Destination → Option Path
  | file path | displayAndFile path => some path
  | nowhere | display => none

/-- How a destination is shown. -/
def shown : Destination → String
  | nowhere => "None"
  | display => "Display(Writer)"
  | file path => "File(" ++ String.ofList (Quoted.bytes path) ++ ")"
  | displayAndFile path => "DisplayAndFile(Writer, " ++ String.ofList (Quoted.bytes path) ++ ")"

/-- Opens a log and writes records to it: the text that is shown, and the files after it. -/
def write (d : Destination) (files : FileTree) (v : Verbosity) (records : List Record) :
    Except OpenError (String × FileTree) :=
  let written := text v records
  let displayed := if d.isDisplayed then written else ""
  match d.path? with
  | none => .ok (displayed, files)
  | some path =>
    match openFile files path with
    | .error e => .error e
    | .ok (target, files) =>
      match files.write target true written.toUTF8.toList with
      | .ok files => .ok (displayed, files)
      | .error reason => .error (.notCreated path reason)

end Destination

end Promptline.Log
