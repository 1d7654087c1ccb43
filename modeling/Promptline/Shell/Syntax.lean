set_option autoImplicit false

/-! # Shell scripts

The part of the system shell's language that commands are written in: words with quotes and
variables, simple commands with redirections, and the ways to put commands together. -/

namespace Promptline.Shell

/-- What a dollar sign stands in front of. -/
inductive Value where
  /-- The status of the last command. -/
  | lastStatus
  /-- The number of the shell's own process. -/
  | ownProcess
  | named (name : List Char)
  deriving DecidableEq, Repr

/-- A part of a word. -/
inductive Part where
  | plain (s : List Char)
  /-- Text in quotes, or behind a backslash. -/
  | quoted (s : List Char)
  /-- A value, which is split at blanks unless it stands in quotes. -/
  | value (v : Value) (splits : Bool)
  deriving DecidableEq, Repr

abbrev Word := List Part

/-- What a command does with a file or a stream before it runs. -/
inductive Redirection where
  /-- Read from a file. -/
  | input (w : Word)
  /-- Write a stream to a file, over what it holds or behind it. -/
  | output (stream : Nat) (w : Word) (append : Bool)
  /-- Write a stream to where another goes. -/
  | duplicate (stream target : Nat)
  deriving DecidableEq, Repr

/-- A command by name: variables that are set, words, and redirections. -/
structure Simple where
  assignments : List (List Char × Word) := []
  words : List Word := []
  redirections : List Redirection := []
  deriving DecidableEq, Repr

inductive Script where
  | nothing
  | simple (c : Simple)
  /-- The second reads what the first writes. -/
  | pipe (a b : Script)
  | negate (a : Script)
  | sequence (a b : Script)
  /-- The second runs if the first succeeds. -/
  | both (a b : Script)
  /-- The second runs if the first fails. -/
  | either (a b : Script)
  /-- Nobody waits for it. -/
  | background (a : Script)
  | group (a : Script) (redirections : List Redirection)
  /-- Runs in a copy of the shell. -/
  | subshell (a : Script) (redirections : List Redirection)
  | branch (test yes no : Script) (redirections : List Redirection)
  /-- Runs the body as long as the test goes as wanted. -/
  | loop (whileSucceeds : Bool) (test body : Script) (redirections : List Redirection)
  /-- Runs the body with a variable set to each field of some words. -/
  | forEach (name : List Char) (words : List Word) (body : Script)
      (redirections : List Redirection)
  deriving DecidableEq, Repr

/-! ## Tokens -/

inductive Token where
  | word (w : Word)
  | semicolon
  | newline
  | ampersand
  | andIf
  | orIf
  | bar
  | openParenthesis
  | closeParenthesis
  | readFrom
  | writeTo (stream : Nat) (append : Bool)
  | duplicate (stream : Nat)
  deriving DecidableEq, Repr

/-- The word that is being read: its parts, the latest first; none between words. -/
abbrev Pending := Option (List Part)

namespace Pending

/-- Adds a character as it is written. -/
def addPlain (w : Pending) (c : Char) : Pending :=
  match w with
  | some (.plain s :: parts) => some (.plain (s ++ [c]) :: parts)
  | some parts => some (.plain [c] :: parts)
  | none => some [.plain [c]]

/-- Adds a character in quotes. -/
def addQuoted (w : Pending) (c : Char) : Pending :=
  match w with
  | some (.quoted s :: parts) => some (.quoted (s ++ [c]) :: parts)
  | some parts => some (.quoted [c] :: parts)
  | none => some [.quoted [c]]

/-- Adds a part. -/
def add (w : Pending) (p : Part) : Pending :=
  some (p :: w.getD [])

/-- Puts the word, if there is one, in front of tokens. -/
def followedBy (w : Pending) (tokens : List Token) : List Token :=
  match w with
  | some parts => .word parts.reverse :: tokens
  | none => tokens

/-- The stream that the word names in front of a redirection. -/
def stream? (w : Pending) : Option Nat :=
  match w with
  | some [.plain [c]] => if c.isDigit then some (c.toNat - '0'.toNat) else none
  | _ => none

/-- A redirection behind the word: of the stream that the word names, else of another. -/
def redirect (w : Pending) (otherwise : Nat) (token : Nat → Token) (tokens : List Token) :
    List Token :=
  match w.stream? with
  | some n => token n :: tokens
  | none => w.followedBy (token otherwise :: tokens)

end Pending

inductive Quote where
  | none | single | double
  deriving DecidableEq, Repr

def isNameStart (c : Char) : Bool :=
  c.isAlpha || c == '_'

def isNameChar (c : Char) : Bool :=
  c.isAlphanum || c == '_'

/-- Characters that are the name of a variable all by themselves. -/
def isSpecialName (c : Char) : Bool :=
  c.isDigit || c == '#' || c == '@' || c == '*' || c == '!' || c == '-'

/-- What stands behind a dollar sign, and the characters behind that; none if the sign is only a
    character. -/
def value? : List Char → Option (Value × List Char)
  | '?' :: r => some (.lastStatus, r)
  | '$' :: r => some (.ownProcess, r)
  | '\x7b' :: r =>
    match r.dropWhile (· != '\x7d') with
    | _ :: rest => some (.named (r.takeWhile (· != '\x7d')), rest)
    | [] => none
  | c :: r =>
    if isNameStart c then some (.named (c :: r.takeWhile isNameChar), r.dropWhile isNameChar)
    else if isSpecialName c then some (.named [c], r)
    else none
  | [] => none

/-- The tokens of a script; none if a quote is left open, or a character has a meaning that is not
    dealt with. `fuel` bounds how many characters are read. -/
def tokens? : Nat → Quote → Pending → List Char → Option (List Token)
  | _, .none, w, [] => some (w.followedBy [])
  | _, _, _, [] => none
  | 0, _, _, _ => none
  | fuel + 1, .single, w, c :: r =>
    if c = '\x27' then tokens? fuel .none w r else tokens? fuel .single (w.addQuoted c) r
  | fuel + 1, .double, w, c :: r =>
    match c, r with
    | '"', r => tokens? fuel .none w r
    | '\\', c' :: r' =>
      if c' = '"' || c' = '\\' || c' = '$' then tokens? fuel .double (w.addQuoted c') r'
      else tokens? fuel .double (w.addQuoted '\\') r
    | '$', r =>
      match value? r with
      | some (v, rest) => tokens? fuel .double (w.add (.value v false)) rest
      | none => if r.head? = some '(' then none else tokens? fuel .double (w.addQuoted '$') r
    | '\x60', _ => none
    | c, r => tokens? fuel .double (w.addQuoted c) r
  | fuel + 1, .none, w, c :: r =>
    match c, r with
    | '\x27', r => tokens? fuel .single (w.add (.quoted [])) r
    | '"', r => tokens? fuel .double (w.add (.quoted [])) r
    | '\\', '\n' :: r => tokens? fuel .none w r
    | '\\', c' :: r => tokens? fuel .none (w.addQuoted c') r
    | '$', r =>
      match value? r with
      | some (v, rest) => tokens? fuel .none (w.add (.value v true)) rest
      | none => if r.head? = some '(' then none else tokens? fuel .none (w.addPlain '$') r
    | '\x60', _ => none
    | '#', r =>
      if w.isNone then tokens? fuel .none none (r.dropWhile (· != '\n'))
      else tokens? fuel .none (w.addPlain '#') r
    | '&', '&' :: r => (tokens? fuel .none none r).map fun ts => w.followedBy (.andIf :: ts)
    | '&', r => (tokens? fuel .none none r).map fun ts => w.followedBy (.ampersand :: ts)
    | '|', '|' :: r => (tokens? fuel .none none r).map fun ts => w.followedBy (.orIf :: ts)
    | '|', r => (tokens? fuel .none none r).map fun ts => w.followedBy (.bar :: ts)
    | '>', '>' :: r => (tokens? fuel .none none r).map (w.redirect 1 (.writeTo · true))
    | '>', '&' :: r => (tokens? fuel .none none r).map (w.redirect 1 .duplicate)
    | '>', r => (tokens? fuel .none none r).map (w.redirect 1 (.writeTo · false))
    | '<', '<' :: _ => none
    | '<', r => (tokens? fuel .none none r).map (w.redirect 0 fun _ => .readFrom)
    | '(', r => (tokens? fuel .none none r).map fun ts => w.followedBy (.openParenthesis :: ts)
    | ')', r => (tokens? fuel .none none r).map fun ts => w.followedBy (.closeParenthesis :: ts)
    | ';', r => (tokens? fuel .none none r).map fun ts => w.followedBy (.semicolon :: ts)
    | '\n', r => (tokens? fuel .none none r).map fun ts => w.followedBy (.newline :: ts)
    | ' ', r | '\t', r => (tokens? fuel .none none r).map w.followedBy
    | c, r => tokens? fuel .none (w.addPlain c) r

end Promptline.Shell
