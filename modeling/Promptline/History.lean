import Promptline.Diagnostic
import Promptline.Log
import Promptline.Unicode.Whitespace

set_option autoImplicit false

/-! # History

The lines that were entered, oldest first, and a place in them for browsing. The place behind the
newest line means that no line is selected; the line that was being typed when browsing began is
kept, and comes back there. -/

namespace Promptline

open Unicode

structure History where
  entries : List (List Char)
  maxSize : Nat
  /-- How many entries are older than the place of browsing. -/
  cursor : Nat
  /-- The line that was being typed when browsing began. -/
  draft : Option (List Char)
  deriving DecidableEq, Repr

/-- There is no entry with the number asked for. -/
structure History.NoSuchEntry where
  index : Nat
  length : Nat
  deriving DecidableEq, Repr

namespace History

def NoSuchEntry.diagnostic (e : NoSuchEntry) : Diagnostic where
  message := "History entry !" ++ toString e.index ++ " does not exist, there are "
    ++ toString e.length ++ " entries"
  code := "r3bl_shell::history::index_out_of_range"
  help := some "History references are 1-indexed, oldest entry first"

/-- How many lines are kept if nothing else is said. -/
def defaultMaxSize : Nat := 1000

/-- The empty history, which keeps `maxSize` lines, and at least one. -/
def empty (maxSize : Nat) : History :=
  { entries := [], maxSize := max 1 maxSize, cursor := 0, draft := none }

def length (h : History) : Nat :=
  h.entries.length

/-- Whether no entry is selected. -/
def nothingSelected (h : History) : Bool :=
  h.cursor == h.length

/-- Drops the oldest line of too many. -/
def trim (maxSize : Nat) (entries : List (List Char)) : List (List Char) :=
  if maxSize < entries.length then entries.drop 1 else entries

/-- Records a line, unless it is blank, and selects nothing. -/
def append (h : History) (line : List Char) : History :=
  let entries :=
    if isBlankText line then h.entries else trim h.maxSize (h.entries ++ [line])
  { h with entries, cursor := entries.length }

/-- Steps to the next older line, if there is one. The current line is kept as the draft when
    nothing was selected. -/
def selectPrevious (h : History) (current : List Char) : Option (List Char) × History :=
  let h := if h.cursor = h.length then { h with draft := some current } else h
  if h.cursor = 0 then (none, h)
  else (h.entries[h.cursor - 1]?, { h with cursor := h.cursor - 1 })

/-- The line at the place of browsing, which then moves one step to what is newer; behind the
    newest line, the draft. -/
def selectNext (h : History) : Option (List Char) × History :=
  if h.cursor < h.length then (h.entries[h.cursor]?, { h with cursor := h.cursor + 1 })
  else (h.draft, h)

/-- Stops browsing and forgets the draft. -/
def reset (h : History) : History :=
  { h with draft := none, cursor := h.length }

/-- The entry with a number, counted from 1. -/
def entry? (h : History) (index : Nat) : Option (List Char) :=
  if index = 0 then none else h.entries[index - 1]?

/-- The entry with a number, or why there is none. -/
def lookup (h : History) (index : Nat) : Except NoSuchEntry (List Char) :=
  match h.entry? index with
  | some entry => .ok entry
  | none => .error { index, length := h.length }

/-! ## References -/

/-- A stretch of a text: blank characters only, or none of them. -/
inductive Token where
  | blanks (s : List Char)
  | word (s : List Char)
  deriving DecidableEq, Repr

def Token.text : Token → List Char
  | blanks s => s
  | word s => s

/-- Puts a character in front of tokens. -/
def consToken (c : Char) (tokens : List Token) : List Token :=
  match isBlank c, tokens with
  | true, .blanks s :: rest => .blanks (c :: s) :: rest
  | true, tokens => .blanks [c] :: tokens
  | false, .word s :: rest => .word (c :: s) :: rest
  | false, tokens => .word [c] :: tokens

/-- The longest stretches of a text that are blank or free of blanks, in order. -/
def tokens : List Char → List Token
  | [] => []
  | c :: rest => consToken c (tokens rest)

/-- The tokens of a text are the text. -/
theorem flatMap_text_tokens (s : List Char) : (tokens s).flatMap Token.text = s := by
  induction s with
  | nil => rfl
  | cons c rest ih =>
    rw [tokens]
    generalize tokens rest = ts at ih
    unfold consToken
    split <;> simp_all [Token.text]

/-- Numbers that are too large to count anything: those of more than 64 bits. -/
def indexBound : Nat := Nat.pow 2 64

/-- The number in a reference: an exclamation mark and decimal digits. -/
def reference? : List Char → Option Nat
  | '!' :: digits =>
    if digits.isEmpty then none
    else
      let n := Nat.ofDigitChars 10 digits 0
      if digits.all Char.isDigit && n < indexBound then some n else none
  | _ => none

/-- What stands in the place of a word: the entry that it refers to, else the word itself. -/
def expandWord (h : History) (word : List Char) : List Char :=
  ((reference? word).bind h.entry?).getD word

def expandToken (h : History) : Token → List Char
  | .blanks s => s
  | .word s => h.expandWord s

/-- A text with every word that refers to an entry replaced by that entry. -/
def expand (h : History) (text : List Char) : List Char :=
  (tokens text).flatMap h.expandToken

/-- The record about a word that refers to an entry that does not exist. -/
def note? (h : History) : Token → Option Log.Record
  | .blanks _ => none
  | .word s =>
    match reference? s with
    | none => none
    | some index =>
      match h.lookup index with
      | .ok _ => none
      | .error e =>
        some { level := .trace, message := "history reference left unexpanded"
               fields := [("error", e.diagnostic.message)] }

/-- The records about the references in a text. -/
def notes (h : History) (text : List Char) : List Log.Record :=
  (tokens text).filterMap h.note?

end History

end Promptline
