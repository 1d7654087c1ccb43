import Promptline.Shell.Syntax

set_option autoImplicit false

/-! # Reading shell scripts

From tokens to scripts. Words in the place of a command may be reserved; they open and close what
is put together of several commands. What is read comes with the tokens behind it, and there is
none if the tokens do not go on as they have to. -/

namespace Promptline.Shell.Parser

/-- The text of a word that is written without quotes and values. -/
def plain? : Word → Option String
  | [.plain s] => some (String.ofList s)
  | _ => none

/-- Words that end a list of commands. -/
def closers : List String :=
  ["then", "elif", "else", "fi", "do", "done", "\x7d"]

/-- Whether a list of commands ends in front of the tokens. -/
def closes : List Token → Bool
  | [] | .closeParenthesis :: _ => true
  | .word w :: _ => (plain? w).any closers.contains
  | _ => false

/-- Expects a reserved word. -/
def expect (reserved : String) : List Token → Option (List Token)
  | .word w :: rest => if plain? w = some reserved then some rest else none
  | _ => none

def skipNewlines : List Token → List Token
  | .newline :: rest => skipNewlines rest
  | tokens => tokens

/-- A redirection. -/
def redirection? : List Token → Option (Redirection × List Token)
  | .readFrom :: .word w :: rest => some (.input w, rest)
  | .writeTo n append :: .word w :: rest => some (.output n w append, rest)
  | .duplicate n :: .word w :: rest =>
    match plain? w with
    | some "1" => some (.duplicate n 1, rest)
    | some "2" => some (.duplicate n 2, rest)
    | _ => none
  | _ => none

/-- Whether the tokens begin with a redirection. -/
def redirects : List Token → Bool
  | .readFrom :: _ | .writeTo .. :: _ | .duplicate _ :: _ => true
  | _ => false

/-- All redirections at the front. -/
def redirections : Nat → List Token → Option (List Redirection × List Token)
  | 0, _ => none
  | fuel + 1, tokens =>
    if redirects tokens then do
      let (first, rest) ← redirection? tokens
      let (more, rest) ← redirections fuel rest
      pure (first :: more, rest)
    else some ([], tokens)

/-- The variable that a word sets, and the value that it is set to. -/
def assignment? : Word → Option (List Char × Word)
  | .plain s :: parts =>
    let name := s.takeWhile (· != '=')
    if s.contains '=' && name.head?.any isNameStart && name.all isNameChar then
      let value := s.drop (name.length + 1)
      some (name, if value.isEmpty then parts else .plain value :: parts)
    else none
  | _ => none

/-- The rest of a simple command. -/
def simple : Nat → Simple → List Token → Option (Simple × List Token)
  | 0, _, _ => none
  | fuel + 1, c, tokens =>
    match tokens with
    | .word w :: rest =>
      match c.words, assignment? w with
      | [], some a => simple fuel { c with assignments := c.assignments ++ [a] } rest
      | words, _ => simple fuel { c with words := words ++ [w] } rest
    | tokens =>
      if redirects tokens then do
        let (r, rest) ← redirection? tokens
        simple fuel { c with redirections := c.redirections ++ [r] } rest
      else if c.assignments.isEmpty && c.words.isEmpty && c.redirections.isEmpty then none
      else some (c, tokens)

/-- The words up to the end of the line. -/
def wordsToEnd : List Token → Option (List Word × List Token)
  | .word w :: rest => (wordsToEnd rest).map fun (ws, rest) => (w :: ws, rest)
  | .semicolon :: rest | .newline :: rest => some ([], rest)
  | _ => none

mutual

/-- A list of commands that is not empty. -/
def body : Nat → List Token → Option (Script × List Token)
  | 0, _ => none
  | fuel + 1, tokens => do
    let (s, rest) ← list fuel tokens
    if s = .nothing then none else pure (s, rest)

/-- Commands up to a token that closes them. -/
def list : Nat → List Token → Option (Script × List Token)
  | 0, _ => none
  | fuel + 1, tokens =>
    let tokens := skipNewlines tokens
    if closes tokens then some (.nothing, tokens)
    else do
      let (first, rest) ← chain fuel tokens
      match rest with
      | .semicolon :: rest | .newline :: rest =>
        let (more, rest) ← list fuel rest
        pure (if more = .nothing then first else .sequence first more, rest)
      | .ampersand :: rest =>
        let (more, rest) ← list fuel rest
        pure (.sequence (.background first) more, rest)
      | rest => if closes rest then pure (first, rest) else none

/-- Pipelines that depend on how those in front of them went. -/
def chain : Nat → List Token → Option (Script × List Token)
  | 0, _ => none
  | fuel + 1, tokens => do
    let (first, rest) ← pipeline fuel tokens
    links fuel first rest

/-- What depends on how the commands so far went. -/
def links : Nat → Script → List Token → Option (Script × List Token)
  | 0, _, _ => none
  | fuel + 1, first, tokens =>
    match tokens with
    | .andIf :: rest => do
      let (next, rest) ← pipeline fuel (skipNewlines rest)
      links fuel (.both first next) rest
    | .orIf :: rest => do
      let (next, rest) ← pipeline fuel (skipNewlines rest)
      links fuel (.either first next) rest
    | tokens => some (first, tokens)

/-- A pipeline, which an exclamation mark may negate. -/
def pipeline : Nat → List Token → Option (Script × List Token)
  | 0, _ => none
  | fuel + 1, tokens =>
    match expect "!" tokens with
    | some rest => (pipeline fuel rest).map fun (s, rest) => (.negate s, rest)
    | none => do
      let (first, rest) ← command fuel tokens
      pipes fuel first rest

/-- What reads what the commands so far write. -/
def pipes : Nat → Script → List Token → Option (Script × List Token)
  | 0, _, _ => none
  | fuel + 1, first, tokens =>
    match tokens with
    | .bar :: rest => do
      let (next, rest) ← command fuel (skipNewlines rest)
      pipes fuel (.pipe first next) rest
    | tokens => some (first, tokens)

/-- One command. -/
def command : Nat → List Token → Option (Script × List Token)
  | 0, _ => none
  | fuel + 1, tokens =>
    match tokens with
    | .openParenthesis :: rest => do
      let (s, rest) ← body fuel rest
      match rest with
      | .closeParenthesis :: rest =>
        let (rs, rest) ← redirections fuel rest
        pure (.subshell s rs, rest)
      | _ => none
    | .word w :: rest =>
      match plain? w with
      | some "\x7b" => do
        let (s, rest) ← body fuel rest
        let (rs, rest) ← redirections fuel (← expect "\x7d" rest)
        pure (.group s rs, rest)
      | some "if" => do
        let (test, rest) ← body fuel rest
        let (yes, rest) ← body fuel (← expect "then" rest)
        let (no, rest) ← otherwise fuel rest
        let (rs, rest) ← redirections fuel rest
        pure (.branch test yes no rs, rest)
      | some "while" => loop fuel true rest
      | some "until" => loop fuel false rest
      | some "for" =>
        match rest with
        | .word name :: rest => do
          let (words, rest) ← wordsToEnd (← expect "in" rest)
          let (s, rest) ← body fuel (← expect "do" (skipNewlines rest))
          let (rs, rest) ← redirections fuel (← expect "done" rest)
          pure (.forEach (← plain? name).toList words s rs, rest)
        | _ => none
      | _ => if closes tokens then none else (simple fuel {} tokens).map fun (c, rest) =>
          (.simple c, rest)
    | tokens => (simple fuel {} tokens).map fun (c, rest) => (.simple c, rest)

/-- What is done if a test fails, up to the end of the condition. -/
def otherwise : Nat → List Token → Option (Script × List Token)
  | 0, _ => none
  | fuel + 1, tokens =>
    match expect "elif" tokens, expect "else" tokens with
    | some rest, _ => do
      let (test, rest) ← body fuel rest
      let (yes, rest) ← body fuel (← expect "then" rest)
      let (no, rest) ← otherwise fuel rest
      pure (.branch test yes no [], rest)
    | none, some rest => do
      let (no, rest) ← body fuel rest
      pure (no, ← expect "fi" rest)
    | none, none => do pure (.nothing, ← expect "fi" tokens)

/-- A loop behind its first word. -/
def loop : Nat → Bool → List Token → Option (Script × List Token)
  | 0, _, _ => none
  | fuel + 1, whileSucceeds, tokens => do
    let (test, rest) ← body fuel tokens
    let (s, rest) ← body fuel (← expect "do" rest)
    let (rs, rest) ← redirections fuel (← expect "done" rest)
    pure (.loop whileSucceeds test s rs, rest)

end

end Parser

/-- The script that a text spells, if it spells one. -/
def parse? (text : List Char) : Option Script := do
  let tokens ← tokens? (text.length + 1) .none none text
  let (script, rest) ← Parser.list (20 * tokens.length + 20) tokens
  if rest.isEmpty then some script else none

end Promptline.Shell
