import Promptline.Process.Monitor
import Promptline.Shell.Parser
import Promptline.Shell.Program

set_option autoImplicit false

/-! # Running scripts

A script runs up to its end or until it sleeps. Each step of it is told what to do next: what to go
on with, what to do when the shell exits, and what to do when it is killed. So a sleep in the midst
of a script needs no more than what to go on with. -/

namespace Promptline.Shell

/-- How far a process is. -/
inductive Life where
  | ended (status : ExitStatus)
  /-- It sleeps, and goes on with the files as they are then. -/
  | asleep (ticks : Nat) (resume : FileTree → Life × FileTree)

/-- A process, and the files that it leaves for now. -/
abbrev Stage := Life × FileTree

/-- Where what a command writes goes. -/
inductive Sink where
  | discarded
  /-- It is kept for the next command. -/
  | kept
  | file (path : Path)
  deriving DecidableEq, Repr

structure Variable where
  name : List Char
  value : List Char
  /-- Whether the programs see it that the shell starts. -/
  exported : Bool
  deriving DecidableEq, Repr

/-- A shell between two commands. -/
structure Interpreter where
  files : FileTree
  directory : Path
  /-- The status of the last command. -/
  status : Nat := 0
  environment : List Variable := []
  /-- What is there to read. -/
  input : List UInt8 := []
  output : Sink := .discarded
  /-- What was written for the next command. -/
  kept : List UInt8 := []

/-- What is done next. -/
abbrev Next := Interpreter → Stage

/-- What is done when a shell ends before its script does. -/
structure Endings where
  exit : Next
  kill : Nat → Next

namespace Interpreter

/-- A shell that has just started. -/
def start (files : FileTree) (directory : Path) : Interpreter :=
  { files, directory
    environment :=
      [{ name := ['#'], value := ['0'], exported := false },
        { name := ['0'], value := ['s', 'h'], exported := false }] }

def withStatus (sh : Interpreter) (status : Nat) : Interpreter :=
  { sh with status }

/-- The shell after another that ran in a copy of it. -/
def after (sh done : Interpreter) : Interpreter :=
  { sh with files := done.files, status := done.status, kept := done.kept }

/-- The shell after another that it ran as a program of its own. -/
def child (sh : Interpreter) : Interpreter :=
  let fresh := start sh.files sh.directory
  { sh with status := 0, environment := fresh.environment ++ sh.environment.filter (·.exported) }

/-- The value of a variable; empty if it was never set. -/
def variableValue (sh : Interpreter) (name : List Char) : List Char :=
  ((sh.environment.find? fun v => v.name == name).map (·.value)).getD []

/-- Sets a variable. It stays exported. -/
def set (sh : Interpreter) (name value : List Char) (exported : Bool) : Interpreter :=
  let was := (sh.environment.find? fun v => v.name == name).any (·.exported)
  { sh with environment :=
      { name, value, exported := was || exported } :: sh.environment.filter (·.name != name) }

/-- Writes to where output goes. -/
def write (sh : Interpreter) (bytes : List UInt8) : Interpreter :=
  match sh.output with
  | .discarded => sh
  | .kept => { sh with kept := sh.kept ++ bytes }
  | .file path =>
    match sh.files.write path true bytes with
    | .ok files => { sh with files }
    | .error _ => sh

/-! ## Words -/

/-- A word that stands for the number of the shell's own process. -/
def ownProcessText : List Char := "self".toList

/-- The text of a value. -/
def valueText (sh : Interpreter) : Value → List Char
  | .lastStatus => Nat.toDigits 10 sh.status
  | .ownProcess => ownProcessText
  | .named name => sh.variableValue name

/-- The text of a word that is not split. -/
def text (sh : Interpreter) (w : Word) : List Char :=
  w.flatMap fun
    | .plain s | .quoted s => s
    | .value v _ => sh.valueText v

def isSpace (c : Char) : Bool :=
  c == ' ' || c == '\t' || c == '\n'

/-- Adds text to fields, the latest first, of which the latest may be open; blanks divide it. -/
def addSplit : List Char → List (List Char) → Option (List Char) →
    List (List Char) × Option (List Char)
  | [], closed, current => (closed, current)
  | c :: r, closed, current =>
    if isSpace c then addSplit r (current.toList ++ closed) none
    else addSplit r closed (some (current.getD [] ++ [c]))

/-- The fields that a word comes to. -/
def fields (sh : Interpreter) (w : Word) : List (List Char) :=
  let (closed, current) := w.foldl (fun (closed, current) part =>
    match part with
    | .plain s | .quoted s => (closed, some (current.getD [] ++ s))
    | .value v false => (closed, some (current.getD [] ++ sh.valueText v))
    | .value v true => addSplit (sh.valueText v) closed current) ([], none)
  (current.toList ++ closed).reverse

/-! ## Redirections -/

/-- Opens one file, or changes where a stream goes. -/
def redirect? (sh : Interpreter) : Redirection → Option Interpreter
  | .input w =>
    (sh.files.content? (pathIn sh.directory (sh.text w))).map fun input => { sh with input }
  | .output stream w append =>
    let path := pathIn sh.directory (sh.text w)
    if path = Path.ofString "/dev/null" then
      some (if stream = 1 then { sh with output := .discarded } else sh)
    else match sh.files.write path append [] with
      | .ok files =>
        some (if stream = 1 then { sh with files, output := .file path } else { sh with files })
      | .error _ => none
  | .duplicate stream target =>
    some (if stream = 1 ∧ target ≠ 1 then { sh with output := .discarded } else sh)

/-- Does all redirections, up to the first that fails. -/
def redirectAll (sh : Interpreter) : List Redirection → Except Interpreter Interpreter
  | [] => .ok sh
  | r :: rest =>
    match sh.redirect? r with
    | some sh => redirectAll sh rest
    | none => .error sh

/-- Streams go again where they went in a shell before. -/
def restore (sh before : Interpreter) : Interpreter :=
  { sh with input := before.input, output := before.output }

end Interpreter

/-! ## Commands by name -/

/-- The status for a name that is no program, and for a file that may not be executed. -/
def notFoundStatus : Nat := 127
def notExecutableStatus : Nat := 126

/-- The status of a command that cannot be run as it is written. -/
def faultStatus : Nat := 2

/-- Sleeps for some time. -/
def sleep (ticks : Nat) (sh : Interpreter) (next : Next) : Stage :=
  if ticks = 0 then next sh
  else (.asleep ticks fun files => next { sh with files }, sh.files)

/-- Runs a program and goes on. -/
def runProgram (sh : Interpreter) (name : List Char) (args : List (List Char)) (next : Next) :
    Stage :=
  match program? sh.files sh.directory sh.input name args with
  | some r =>
    let sh := { sh with files := r.files }.write r.written
    sleep r.ticks (sh.withStatus r.status) next
  | none => next (sh.withStatus notFoundStatus)

/-- What `kill` is to do: a signal for the shell itself, or a status. -/
def killRequest (args : List (List Char)) : Except Nat Nat :=
  let toOwn (target : List Char) (signal : Option Nat) : Except Nat Nat :=
    if target ≠ Interpreter.ownProcessText then .error 1
    else match signal with
      | some 0 => .error 0
      | some n => .ok n
      | none => .error 1
  match args with
  | [target] => toOwn target (some 15)
  | [['-', 's'], name, target] => toOwn target (signal? name)
  | ['-' :: name, target] => toOwn target (signal? name)
  | _ => .error faultStatus

/-- Where the shell stands after a change of directory, if the directory is there. -/
def changeDirectory (sh : Interpreter) (args : List (List Char)) : Interpreter :=
  let target := pathIn sh.directory (args.headD ['.'])
  if sh.files.isDirectory target then { sh with directory := target, status := 0 }
  else sh.withStatus faultStatus

/-- Exports a variable, which may be set as well. -/
def exportWord (sh : Interpreter) (word : List Char) : Interpreter :=
  let name := word.takeWhile (· != '=')
  if word.contains '=' then sh.set name (word.drop (name.length + 1)) true
  else sh.set name (sh.variableValue name) true

/-- The script in a file that may be executed, or the status that comes of another. -/
def scriptIn (sh : Interpreter) (name : List Char) (mustExecute : Bool) : Except Nat (List Char) :=
  match sh.files.stat? (pathIn sh.directory name) with
  | none => .error (if mustExecute then notFoundStatus else faultStatus)
  | some (.file mode content) =>
    if mustExecute && !FileTree.isExecutableMode mode then .error notExecutableStatus
    else .ok (Utf8.decodeLossy content)
  | some _ => .error notExecutableStatus

/-- The script that a shell is started on as a program. -/
def shellScript (sh : Interpreter) : List (List Char) → Except Nat (List Char)
  | ['-', 'c'] :: script :: _ => .ok script
  | ['-', 'c'] :: [] => .error faultStatus
  | path :: _ => scriptIn sh path false
  | [] => .ok (Utf8.decodeLossy sh.input)

/-! ## Scripts -/

/-- Sets the variables of a simple command. -/
def assign (sh : Interpreter) (assignments : List (List Char × Word)) (exported : Bool) :
    Interpreter :=
  assignments.foldl (fun sh (name, w) => sh.set name (sh.text w) exported) sh

/-- Does redirections around something, and undoes them behind it. -/
def around (sh : Interpreter) (rs : List Redirection) (next : Next)
    (inner : Interpreter → Next → Stage) : Stage :=
  match sh.redirectAll rs with
  | .error sh' => next ((sh'.restore sh).withStatus faultStatus)
  | .ok sh' => inner sh' fun done => next (done.restore sh)

mutual

/-- Runs a script; `fuel` bounds how deep commands lie in each other and how often loops run. -/
def run : Nat → Script → Interpreter → Endings → Next → Stage
  | 0, _, sh, endings, _ => endings.exit (sh.withStatus faultStatus)
  | fuel + 1, s, sh, endings, next =>
    match s with
    | .nothing => next (sh.withStatus 0)
    | .simple c => runSimple fuel c sh endings next
    | .sequence a b => run fuel a sh endings fun sh => run fuel b sh endings next
    | .both a b => run fuel a sh endings fun sh =>
        if sh.status = 0 then run fuel b sh endings next else next sh
    | .either a b => run fuel a sh endings fun sh =>
        if sh.status = 0 then next sh else run fuel b sh endings next
    | .negate a => run fuel a sh endings fun sh =>
        next (sh.withStatus (statusOf (sh.status != 0)))
    | .background a =>
      runCopy fuel a sh endings fun done => next ((sh.after done).withStatus 0)
    | .pipe a b =>
      runCopy fuel a { sh with output := .kept, kept := [] } endings fun left =>
        runCopy fuel b { sh with files := left.files, input := left.kept } endings fun right =>
          next (sh.after right)
    | .group a rs => around sh rs next fun sh next => run fuel a sh endings next
    | .subshell a rs => around sh rs next fun sh next =>
        runCopy fuel a sh endings fun done => next (sh.after done)
    | .branch test yes no rs => around sh rs next fun sh next =>
        run fuel test sh endings fun sh =>
          if sh.status = 0 then run fuel yes sh endings next else run fuel no sh endings next
    | .loop whileSucceeds test body rs => around sh rs next fun sh next =>
        runLoop fuel whileSucceeds test body 0 sh endings next
    | .forEach name words body rs => around sh rs next fun sh next =>
        runEach fuel name (words.flatMap sh.fields) body sh endings next

/-- Runs a script in a copy of the shell, which ends when the copy exits. -/
def runCopy : Nat → Script → Interpreter → Endings → Next → Stage
  | 0, _, sh, endings, _ => endings.exit (sh.withStatus faultStatus)
  | fuel + 1, s, sh, endings, next => run fuel s sh { endings with exit := next } next

/-- Runs a loop whose last round had a status. -/
def runLoop : Nat → Bool → Script → Script → Nat → Interpreter → Endings → Next → Stage
  | 0, _, _, _, _, sh, endings, _ => endings.exit (sh.withStatus faultStatus)
  | fuel + 1, whileSucceeds, test, body, last, sh, endings, next =>
    run fuel test sh endings fun sh =>
      if (sh.status == 0) = whileSucceeds then
        run fuel body sh endings fun sh =>
          runLoop fuel whileSucceeds test body sh.status sh endings next
      else next (sh.withStatus last)

/-- Runs a script for each of some values of a variable. -/
def runEach : Nat → List Char → List (List Char) → Script → Interpreter → Endings →
    Next → Stage
  | 0, _, _, _, sh, endings, _ => endings.exit (sh.withStatus faultStatus)
  | fuel + 1, name, values, body, sh, endings, next =>
    match values with
    | [] => next sh
    | value :: rest => run fuel body (sh.set name value false) endings fun sh =>
        runEach fuel name rest body sh endings next

/-- Runs a simple command. Without words it only sets variables. Streams go elsewhere for this
    command alone, unless it does nothing but change those of the shell. -/
def runSimple : Nat → Simple → Interpreter → Endings → Next → Stage
  | 0, _, sh, endings, _ => endings.exit (sh.withStatus faultStatus)
  | fuel + 1, c, sh, endings, next =>
    match c.words.flatMap sh.fields with
    | [] => around (assign sh c.assignments false) c.redirections next fun sh next =>
        next (sh.withStatus 0)
    | [['e', 'x', 'e', 'c']] =>
      match sh.redirectAll c.redirections with
      | .ok sh => next (sh.withStatus 0)
      | .error sh => endings.exit (sh.withStatus faultStatus)
    | word :: args => around sh c.redirections next fun sh next =>
        let seen := assign sh c.assignments true
        runWords fuel (word :: args) seen endings fun done =>
          next { done with
            environment := if c.assignments.isEmpty then done.environment else sh.environment }

/-- Runs the command that some words name. -/
def runWords : Nat → List (List Char) → Interpreter → Endings → Next → Stage
  | 0, _, sh, endings, _ => endings.exit (sh.withStatus faultStatus)
  | _ + 1, [], sh, _, next => next (sh.withStatus 0)
  | fuel + 1, name :: args, sh, endings, next =>
    match String.ofList name with
    | ":" | "wait" | "umask" | "set" | "unset" => next (sh.withStatus 0)
    | "exit" =>
      match args with
      | [] => endings.exit sh
      | n :: _ => endings.exit (sh.withStatus (((number? n).map (· % 256)).getD faultStatus))
    | "cd" => next (changeDirectory sh args)
    | "export" => next ((args.foldl exportWord sh).withStatus 0)
    | "kill" =>
      match killRequest args with
      | .ok signal => endings.kill signal sh
      | .error status => next (sh.withStatus status)
    | "exec" => runWords fuel args sh endings endings.exit
    | "command" => runWords fuel args sh endings next
    | "sh" | "dash" | "bash" | "/bin/sh" =>
      match shellScript sh args with
      | .ok script => runScript fuel script sh next
      | .error status => next (sh.withStatus status)
    | _ =>
      if name.contains '/' then
        match scriptIn sh name true with
        | .ok script => runScript fuel script sh next
        | .error status => next (sh.withStatus status)
      else runProgram sh name args next

/-- Runs a shell on a script as a program of its own. -/
def runScript : Nat → List Char → Interpreter → Next → Stage
  | 0, _, sh, next => next (sh.withStatus faultStatus)
  | fuel + 1, script, sh, next =>
    match parse? script with
    | none => next (sh.withStatus faultStatus)
    | some s =>
      run fuel s sh.child
        { exit := fun done => next (sh.after done)
          kill := fun signal done => next ((sh.after done).withStatus (128 + signal)) }
        fun done => next (sh.after done)

end

/-! ## Starting a program -/

/-- How deep commands lie in each other at most, and how often loops run. -/
def fuel : Nat := 100000

/-- The end of a process whose shell has come to its end. -/
def finish (sh : Interpreter) : Stage :=
  (.ended (.exited sh.status), sh.files)

/-- The endings of a process. -/
def endings : Endings where
  exit := finish
  kill signal sh := (.ended (.signaled signal), sh.files)

/-- Starts a shell on a script. -/
def startShell (files : FileTree) (directory : Path) (script : List Char) : Stage :=
  let sh := Interpreter.start files directory
  match parse? script with
  | some s => run fuel s sh endings finish
  | none => finish (sh.withStatus faultStatus)

/-- The directories that programs known by name are in. -/
def programDirectories : List (List Char) :=
  ["/bin/".toList, "/usr/bin/".toList]

/-- The name of a known program that a text names, by name or by path. -/
def knownName? (program : List Char) : Option (List Char) :=
  let names := program :: programDirectories.filterMap fun d =>
    if d.isPrefixOf program then some (program.drop d.length) else none
  names.find? fun name => known.contains (String.ofList name)

/-- Why a file cannot be started as a program. -/
def startError (files : FileTree) (path : Path) : Except FileError Unit :=
  match files.resolve path with
  | .error e => .error e
  | .ok place =>
    match files.node? place with
    | some (.file mode _) =>
      if FileTree.isExecutableMode mode then .ok () else .error .permissionDenied
    | _ => .error .permissionDenied

/-- Starts a program in a directory. -/
def startProgram (files : FileTree) (directory : Path) (program : List Char)
    (args : List (List Char)) : Except FileError Stage :=
  match files.resolve directory with
  | .error e => .error e
  | .ok place =>
    if !files.isDirectoryAt place then .error .notADirectory
    else match knownName? program, args with
      | some ['s', 'h'], ['-', 'c'] :: script :: _ => .ok (startShell files directory script)
      | some name, args =>
        .ok (runWords fuel (name :: args) (.start files directory) endings finish)
      | none, _ =>
        if program.contains '/' then
          (startError files (pathIn directory program)).map fun _ =>
            runWords fuel (program :: args) (.start files directory) endings finish
        else .error .notFound

/-- How a process ends that nobody stops, and the files then; `naps` bounds how often it sleeps. -/
def Life.toEnd (files : FileTree) : Nat → Life → ExitStatus × FileTree
  | _, .ended status => (status, files)
  | 0, .asleep .. => (.exited 0, files)
  | naps + 1, .asleep _ resume =>
    let (life, files) := resume files
    Life.toEnd files naps life

/-- Whether a process takes time. -/
def Life.isAsleep : Life → Bool
  | .asleep .. => true
  | .ended _ => false

end Promptline.Shell
