import Promptline.Files.Tree
import Promptline.Text.Utf8

set_option autoImplicit false

/-! # Programs

What the programs do that scripts are made of, as far as it can be seen from outside: what they
write, the files they change, the time they take, and the status they end with. -/

namespace Promptline.Shell

/-- What a program comes to. -/
structure Result where
  status : Nat := 0
  /-- What it writes. -/
  written : List UInt8 := []
  files : FileTree
  /-- How long it sleeps before it ends. -/
  ticks : Nat := 0

/-! ## Words and numbers -/

/-- The number that decimal digits spell. -/
def number? (s : List Char) : Option Nat :=
  if s.isEmpty || !s.all Char.isDigit then none
  else some (Nat.ofDigitChars 10 s 0)

/-- The number that digits spell, with or without a sign. -/
def integer? : List Char → Option Int
  | '-' :: s => (number? s).map fun n => -(n : Int)
  | s => (number? s).map Int.ofNat

/-- How many ticks a second has. -/
def ticksPerSecond : Nat := 100

/-- A time in seconds as ticks; digits behind the point beyond hundredths are dropped. -/
def ticks? (s : List Char) : Option Nat :=
  let whole := s.takeWhile (· != '.')
  let fraction := (s.dropWhile (· != '.')).drop 1
  match number? (if whole.isEmpty then ['0'] else whole),
      number? ((fraction ++ ['0', '0']).take 2) with
  | some n, some k => some (n * ticksPerSecond + k)
  | _, _ => none

/-- The number of a signal by name or number. -/
def signal? (name : List Char) : Option Nat :=
  match String.ofList name with
  | "HUP" => some 1
  | "INT" => some 2
  | "QUIT" => some 3
  | "ILL" => some 4
  | "ABRT" => some 6
  | "FPE" => some 8
  | "KILL" => some 9
  | "USR1" => some 10
  | "SEGV" => some 11
  | "USR2" => some 12
  | "PIPE" => some 13
  | "ALRM" => some 14
  | "TERM" => some 15
  | _ => number? name

/-! ## Text -/

/-- Text with the escapes of a printing command. -/
def unescape : List Char → List Char
  | '\\' :: 'n' :: r => '\n' :: unescape r
  | '\\' :: 't' :: r => '\t' :: unescape r
  | '\\' :: 'r' :: r => '\r' :: unescape r
  | '\\' :: '\\' :: r => '\\' :: unescape r
  | c :: r => c :: unescape r
  | [] => []

/-- One pass over a format: what is printed, and the arguments that are left. -/
def formatOnce : List Char → List (List Char) → List Char × List (List Char)
  | '%' :: '%' :: r, args => let (s, left) := formatOnce r args; ('%' :: s, left)
  | '%' :: 's' :: r, args =>
    let (s, left) := formatOnce r args.tail
    (args.headD [] ++ s, left)
  | '%' :: 'd' :: r, args =>
    let (s, left) := formatOnce r args.tail
    (args.headD ['0'] ++ s, left)
  | c :: r, args => let (s, left) := formatOnce r args; (c :: s, left)
  | [], args => ([], args)

/-- A format, used again as long as it takes up arguments; `fuel` bounds how often. -/
def formatAll (format : List Char) : Nat → List (List Char) → List Char
  | 0, _ => []
  | fuel + 1, args =>
    let (s, left) := formatOnce format args
    if left.isEmpty || left.length = args.length then s else s ++ formatAll format fuel left

/-- Words with a blank between each two. -/
def spaced (words : List (List Char)) : List Char :=
  [' '].intercalate words

/-- The part of text behind its last slash. -/
def baseName (s : List Char) : List Char :=
  (s.reverse.takeWhile (· != '/')).reverse

/-! ## Files -/

/-- The path of a word in a directory. -/
def pathIn (directory : Path) (word : List Char) : Path :=
  directory.join (Utf8.encode word)

/-- Compares two numbers as an operator of a test says. -/
def compare? (operator : List Char) (a b : Int) : Option Bool :=
  match String.ofList operator with
  | "-eq" => some (a == b)
  | "-ne" => some (a != b)
  | "-lt" => some (decide (a < b))
  | "-le" => some (decide (a ≤ b))
  | "-gt" => some (decide (b < a))
  | "-ge" => some (decide (b ≤ a))
  | _ => none

/-- Whether a test of one word holds. -/
def testWord (files : FileTree) (directory : Path) (operator word : List Char) : Option Bool :=
  let path := pathIn directory word
  match String.ofList operator with
  | "-e" => some (files.stat? path).isSome
  | "-f" => some (files.content? path).isSome
  | "-d" => some (files.isDirectory path)
  | "-x" => some (files.isExecutable path || files.isDirectory path)
  | "-r" | "-w" => some (files.stat? path).isSome
  | "-s" => some ((files.content? path).any fun content => !content.isEmpty)
  | "-n" => some !word.isEmpty
  | "-z" => some word.isEmpty
  | "!" => some word.isEmpty
  | _ => none

/-- The status of a test that is wrongly put. -/
def testFault : Nat := 2

/-- A status for whether something went well. -/
def statusOf (fine : Bool) : Nat :=
  if fine then 0 else 1

/-- The status of a test. -/
def test (files : FileTree) (directory : Path) : List (List Char) → Nat
  | [] => 1
  | [s] => statusOf !s.isEmpty
  | [['!'], operator, word] =>
    match testWord files directory operator word with
    | some holds => statusOf !holds
    | none => testFault
  | [operator, word] => ((testWord files directory operator word).map statusOf).getD testFault
  | [a, ['='], b] => statusOf (a == b)
  | [a, ['!', '='], b] => statusOf (a != b)
  | [a, operator, b] =>
    match integer? a, integer? b with
    | some m, some n => ((compare? operator m n).map statusOf).getD testFault
    | _, _ => testFault
  | _ => testFault

/-- What the named files hold, one behind the other, and whether all could be read. -/
def readAll (files : FileTree) (directory : Path) (names : List (List Char)) :
    List UInt8 × Bool :=
  names.foldl (fun (bytes, fine) name =>
    match files.content? (pathIn directory name) with
    | some more => (bytes ++ more, fine)
    | none => (bytes, false)) ([], true)

/-- Does something to files one after another, and notes whether it always went well. -/
def forAll (change : FileTree → Path → Option FileTree) (files : FileTree) (directory : Path)
    (names : List (List Char)) : Result :=
  let (files, fine) := names.foldl (fun (files, fine) name =>
    match change files (pathIn directory name) with
    | some files => (files, fine)
    | none => (files, false)) (files, true)
  { status := statusOf fine, files }

def touch (files : FileTree) (path : Path) : Option FileTree :=
  (files.write path true []).toOption

/-- Removes a file; with force, nothing is wrong if there is none. -/
def remove (force : Bool) (files : FileTree) (path : Path) : Option FileTree :=
  match files.stat? path with
  | some (.directory _) => none
  | some _ => some (files.remove path)
  | none => if force then some files else none

/-- Makes a directory; with those above it, nothing is wrong if it is there. -/
def makeDirectory (parents : Bool) (files : FileTree) (path : Path) : Option FileTree :=
  if parents then some (files.makeDirectory path).1
  else if (files.stat? path).isSome then none
  else if path.parent?.any fun p => p.isEmpty || files.isDirectory p then
    some (files.makeDirectory path).1
  else none

/-- Where a file comes to stand that is put at a path: in the directory that is there, else at the
    path itself. -/
def targetPath (files : FileTree) (directory : Path) (source target : List Char) : Path :=
  let path := pathIn directory target
  if files.isDirectory path then path.join (Utf8.encode (baseName source)) else path

/-- Copies a file, or moves it. -/
def transfer (keep : Bool) (files : FileTree) (directory : Path) (source target : List Char) :
    Result :=
  let path := pathIn directory source
  match files.content? path with
  | none => { status := 1, files }
  | some content =>
    match files.write (targetPath files directory source target) false content with
    | .ok files => { files := if keep then files else files.remove path }
    | .error _ => { status := 1, files }

/-- The names in a directory, one a line, in order; those that begin with a dot are left out. -/
def listing (files : FileTree) (path : Path) : Option (List UInt8) :=
  match files.list path with
  | .error _ => none
  | .ok names =>
    let texts := (names.map Utf8.decodeLossy).filter fun s => s.head? != some '.'
    some (Utf8.encode ((texts.mergeSort fun a b => !decide (b < a)).flatMap (· ++ ['\n'])))

/-! ## By name -/

/-- The programs that are found by name alone. -/
def known : List String :=
  ["sh", "dash", "bash", "true", "false", "echo", "printf", "cat", "sleep", "test", "[", "kill",
    "touch", "rm", "mkdir", "mv", "cp", "ls", "env", "basename", "seq"]

/-- What a program does that is started in a directory; none for a name that is not known. -/
def program? (files : FileTree) (directory : Path) (input : List UInt8) (name : List Char)
    (args : List (List Char)) : Option Result :=
  match String.ofList name, args with
  | "true", _ | "env", _ => some { files }
  | "false", _ => some { status := 1, files }
  | "echo", ['-', 'n'] :: args =>
    some { written := Utf8.encode (unescape (spaced args)), files }
  | "echo", args => some { written := Utf8.encode (unescape (spaced args) ++ ['\n']), files }
  | "printf", [] => some { status := 2, files }
  | "printf", format :: args =>
    some { written := Utf8.encode (formatAll (unescape format) (args.length + 1) args), files }
  | "cat", [] => some { written := input, files }
  | "cat", args =>
    let (written, fine) := readAll files directory args
    some { status := statusOf fine, written, files }
  | "sleep", [t] =>
    match ticks? t with
    | some ticks => some { ticks, files }
    | none => some { status := 1, files }
  | "sleep", _ => some { status := 1, files }
  | "test", args => some { status := test files directory args, files }
  | "[", args =>
    if args.getLast? = some [']'] then
      some { status := test files directory args.dropLast, files }
    else some { status := testFault, files }
  | "touch", args => some (forAll touch files directory args)
  | "rm", ['-', 'f'] :: args => some (forAll (remove true) files directory args)
  | "rm", args => some (forAll (remove false) files directory args)
  | "mkdir", ['-', 'p'] :: args => some (forAll (makeDirectory true) files directory args)
  | "mkdir", args => some (forAll (makeDirectory false) files directory args)
  | "mv", [source, target] => some (transfer false files directory source target)
  | "cp", [source, target] => some (transfer true files directory source target)
  | "ls", args =>
    match listing files (pathIn directory (args.headD ['.'])) with
    | some written => some { written, files }
    | none => some { status := 2, files }
  | "basename", s :: _ => some { written := Utf8.encode (baseName s ++ ['\n']), files }
  | "seq", [n] =>
    let numbers := (List.range ((number? n).getD 0)).map (· + 1)
    some { written := Utf8.encode (numbers.flatMap fun k => Nat.toDigits 10 k ++ ['\n']), files }
  | _, _ => none

end Promptline.Shell
