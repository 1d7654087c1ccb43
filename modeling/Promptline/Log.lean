set_option autoImplicit false

/-! # Log records

What the program tells about its work besides doing it: records with a level, and the one line of
text each is written as. -/

namespace Promptline.Log

/-- How much a record matters, most first. -/
inductive Level where
  | error | warn | info | debug | trace
  deriving DecidableEq, Repr

namespace Level

/-- The place of a level in the order from what matters most. -/
def rank : Level → Nat
  | error => 0
  | warn => 1
  | info => 2
  | debug => 3
  | trace => 4

/-- The level's name, set flush right in five columns. -/
def label : Level → String
  | error => "ERROR"
  | warn => " WARN"
  | info => " INFO"
  | debug => "DEBUG"
  | trace => "TRACE"

end Level

/-- The least important level that is still written; `none` writes nothing. -/
abbrev Verbosity := Option Level

/-- Whether records of a level are written. -/
def Verbosity.admits (v : Verbosity) (l : Level) : Bool :=
  match v with
  | none => false
  | some least => l.rank ≤ least.rank

/-- A message, and named values that go with it. -/
structure Record where
  level : Level
  message : String
  fields : List (String × String) := []
  deriving DecidableEq, Repr

/-- Characters of a message that could steer a terminal are written as escapes. -/
def defused (c : Char) : List Char :=
  match c with
  | '\x1b' => "\\x1b".toList
  | '\x07' => "\\x07".toList
  | '\x08' => "\\x08".toList
  | '\x0c' => "\\x0c".toList
  | '\x7f' => "\\x7f".toList
  | _ =>
    if 0x80 ≤ c.toNat ∧ c.toNat ≤ 0x9F then
      ['\\', 'u', '\x7b'] ++ Nat.toDigits 16 c.toNat ++ ['\x7d']
    else [c]

/-- The line a record is written as: level, message, then each field as `name=value`. -/
def Record.line (r : Record) : String :=
  r.level.label ++ " " ++ String.ofList (r.message.toList.flatMap defused)
    ++ String.join (r.fields.map fun (name, value) => " " ++ name ++ "=" ++ value)

/-- The records of a list that are written. -/
def admitted (v : Verbosity) (records : List Record) : List Record :=
  records.filter fun r => v.admits r.level

/-- What a log holds after some records: the line of each one that is written. -/
def text (v : Verbosity) (records : List Record) : String :=
  String.join ((admitted v records).map fun r => r.line ++ "\n")

/-- Text at its line feeds. -/
def splitAtLineFeeds : List Char → List (List Char)
  | [] => [[]]
  | c :: rest =>
    if c = '\n' then [] :: splitAtLineFeeds rest
    else match splitAtLineFeeds rest with
      | [] => [[c]]
      | line :: more => (c :: line) :: more

/-- A line without the carriage return at its end. -/
def withoutReturn (line : List Char) : List Char :=
  if line.getLast? = some '\r' then line.dropLast else line

/-- The lines in which a record is read back. There are several if a value holds line feeds. -/
def Record.lines (r : Record) : List String :=
  (splitAtLineFeeds r.line.toList).map (String.ofList ∘ withoutReturn)

/-- The lines of a log after some records. -/
def lines (v : Verbosity) (records : List Record) : List String :=
  (admitted v records).flatMap Record.lines

end Promptline.Log
