import Promptline.Text.Utf8
import Promptline.Unicode.Extending
import Promptline.Unicode.Printable

set_option autoImplicit false

/-! # Quoted text

Text between double quotes in which everything that would not show, or would show as part of the
character before it, is written as an escape. -/

namespace Promptline.Quoted

open Unicode

/-- Lower-case hexadecimal digits of `n`, without leading zeros. -/
def hex (n : Nat) : List Char :=
  Nat.toDigits 16 n

/-- The escape that names a character by its code point. -/
def codePoint (c : Char) : List Char :=
  ['\\', 'u', '\x7b'] ++ hex c.toNat ++ ['\x7d']

/-- One character inside quotes. -/
def char (c : Char) : List Char :=
  match c with
  | '\x00' => ['\\', '0']
  | '\t' => ['\\', 't']
  | '\r' => ['\\', 'r']
  | '\n' => ['\\', 'n']
  | '\\' => ['\\', '\\']
  | '"' => ['\\', '"']
  | _ => if graphemeExtend.hasChar c || unprintable.hasChar c then codePoint c else [c]

/-- Two upper-case hexadecimal digits of a byte. -/
def byteDigits (b : UInt8) : List Char :=
  let digits := (hex b.toNat).map Char.toUpper
  if digits.length < 2 then '0' :: digits else digits

/-- A byte that belongs to no character, inside quotes. -/
def byte (b : UInt8) : List Char :=
  ['\\', 'x'] ++ byteDigits b

/-- A text in quotes. -/
def text (s : List Char) : List Char :=
  ['"'] ++ s.flatMap char ++ ['"']

/-- One character inside the quotes of bytes, where single quotes are escapes as well. -/
def byteChar (c : Char) : List Char :=
  if c = '\x27' then ['\\', '\x27'] else char c

/-- Bytes in quotes: as the characters they spell, and as numbers where they spell none. -/
def bytes (bs : List UInt8) : List Char :=
  ['"'] ++ (Utf8.pieces bs).flatMap (fun
    | .char c => byteChar c
    | .broken part => part.flatMap byte) ++ ['"']

end Promptline.Quoted
