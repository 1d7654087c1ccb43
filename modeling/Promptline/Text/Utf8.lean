set_option autoImplicit false

/-! # UTF-8

Characters as bytes and back. Encoding is the standard library's `String.utf8EncodeChar`; here are
its inverse on the bytes of one character, and readings of whole byte strings: a strict one, and
one that sets apart the bytes that belong to no character. -/

namespace Promptline.Utf8

/-- What is shown in place of bytes that are no character. -/
def replacement : Char := '\uFFFD'

/-- The bytes of a text. -/
def encode (text : List Char) : List UInt8 :=
  text.flatMap String.utf8EncodeChar

/-- Whether `b` has the form `10xxxxxx`, which only continues a character. -/
def isContinuation (b : UInt8) : Bool :=
  0x80 ≤ b && b < 0xC0

/-- How many bytes a character takes whose first byte is `lead`. A byte that can start no longer
    character counts as one byte of its own. -/
def expectedLength (lead : UInt8) : Nat :=
  if lead < 0xC0 then 1
  else if lead < 0xE0 then 2
  else if lead < 0xF0 then 3
  else if lead < 0xF8 then 4
  else 1

/-- The character with code point `n`, unless a shorter form reaches it or it is a surrogate or
    out of range. -/
def scalar? (least n : Nat) : Option Char :=
  if least ≤ n ∧ n.isValidChar then some (Char.ofNat n) else none

/-- The six bits that a continuation byte carries. -/
def payload (b : UInt8) : Nat :=
  b.toNat % 64

/-- The character whose bytes are exactly the given ones. -/
def decode? : List UInt8 → Option Char
  | [a] => if a < 0x80 then some (Char.ofNat a.toNat) else none
  | [a, b] =>
    if expectedLength a = 2 ∧ isContinuation b then
      scalar? 0x80 (a.toNat % 32 * 64 + payload b)
    else none
  | [a, b, c] =>
    if expectedLength a = 3 ∧ isContinuation b ∧ isContinuation c then
      scalar? 0x800 ((a.toNat % 16 * 64 + payload b) * 64 + payload c)
    else none
  | [a, b, c, d] =>
    if expectedLength a = 4 ∧ isContinuation b ∧ isContinuation c ∧ isContinuation d then
      scalar? 0x10000 (((a.toNat % 8 * 64 + payload b) * 64 + payload c) * 64 + payload d)
    else none
  | _ => none

/-! ## Whole byte strings -/

/-- Whether the bytes are the beginning of some character, and not all of it. -/
def isProperStart : List UInt8 → Bool
  | [a] => 0xC2 ≤ a && a ≤ 0xF4
  | [a, b] =>
    isContinuation b && 0xE0 ≤ a && a ≤ 0xF4
      && (a ≠ 0xE0 || 0xA0 ≤ b) && (a ≠ 0xED || b < 0xA0)
      && (a ≠ 0xF0 || 0x90 ≤ b) && (a ≠ 0xF4 || b < 0x90)
  | [a, b, c] => isContinuation c && 0xF0 ≤ a && isProperStart [a, b]
  | _ => false

/-- A character, or bytes that begin one and do not go on as it would need. -/
inductive Piece where
  | char (c : Char)
  | broken (bytes : List UInt8)
  deriving DecidableEq, Repr

/-- Reads a byte in front of which nothing is open: the pieces that end with it, and the bytes
    that are then open. -/
def readFresh (b : UInt8) : List Piece × List UInt8 :=
  match decode? [b] with
  | some c => ([.char c], [])
  | none => if isProperStart [b] then ([], [b]) else ([.broken [b]], [])

/-- Reads a byte behind the open bytes `start`, the beginning of some character. -/
def read (start : List UInt8) (b : UInt8) : List Piece × List UInt8 :=
  if start.isEmpty then readFresh b
  else match decode? (start ++ [b]) with
    | some c => ([.char c], [])
    | none =>
      if isProperStart (start ++ [b]) then ([], start ++ [b])
      else
        let (pieces, rest) := readFresh b
        (.broken start :: pieces, rest)

/-- Cuts bytes into characters and broken beginnings, with `start` in front of them. -/
def piecesFrom (start : List UInt8) : List UInt8 → List Piece
  | [] => if start.isEmpty then [] else [.broken start]
  | b :: rest =>
    let (pieces, start') := read start b
    pieces ++ piecesFrom start' rest

/-- Cuts bytes into characters and broken beginnings. -/
def pieces (bytes : List UInt8) : List Piece :=
  piecesFrom [] bytes

/-- The text with the given bytes, if every byte belongs to a character. -/
def decodeAll? (bytes : List UInt8) : Option (List Char) :=
  (pieces bytes).mapM fun
    | .char c => some c
    | .broken _ => none

/-- The text with the given bytes; a replacement character stands for each broken beginning. -/
def decodeLossy (bytes : List UInt8) : List Char :=
  (pieces bytes).map fun
    | .char c => c
    | .broken _ => replacement

end Promptline.Utf8
