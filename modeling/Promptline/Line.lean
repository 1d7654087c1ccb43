import Promptline.Unicode.Cluster
import Promptline.Unicode.Whitespace
import Promptline.Unicode.Width

set_option autoImplicit false

/-! # The line being edited

A text with a cursor in it. The cursor counts grapheme clusters: it never stands inside what a
reader takes for one character. No operation fails; one that would cross an end of the text stops
there. -/

namespace Promptline

open Unicode

/-- A text, and how many of its grapheme clusters stand in front of the cursor. -/
structure Line where
  text : List Char
  cursor : Nat
  deriving DecidableEq, Repr

namespace Line

/-- The empty line. -/
def empty : Line :=
  { text := [], cursor := 0 }

/-- The line with a given text, the cursor at its end. -/
def ofText (text : List Char) : Line :=
  { text, cursor := clusterCount text }

/-- How many grapheme clusters the line has. -/
def length (l : Line) : Nat :=
  clusterCount l.text

def isEmpty (l : Line) : Bool :=
  l.text.isEmpty

/-- The first `n` clusters of the line. -/
def firstClusters (l : Line) (n : Nat) : List Char :=
  ((clusters l.text).take n).flatten

/-- The text in front of the cursor. -/
def before (l : Line) : List Char :=
  l.firstClusters l.cursor

/-- The text behind the cursor. -/
def after (l : Line) : List Char :=
  ((clusters l.text).drop l.cursor).flatten

/-- The cursor divides the text. -/
theorem before_append_after (l : Line) : l.before ++ l.after = l.text := by
  rw [before, firstClusters, after, ← List.flatten_append, List.take_append_drop,
    clusters_flatten]

/-- The cursor lies within the line. -/
def WellFormed (l : Line) : Prop :=
  l.cursor ≤ l.length

/-- Where the word starts that ends at the cursor: behind the last cluster in front of the cursor
    that is blank. -/
def wordStart (l : Line) : Nat :=
  let behind := (clusters l.before).reverse.takeWhile fun cluster => !isBlankText cluster
  (clusters l.before).length - behind.length

/-- The text of the `n` clusters right in front of the cursor. -/
def lastBefore (l : Line) (n : Nat) : List Char :=
  (((clusters l.text).take l.cursor).drop (l.cursor - n)).flatten

/-- How many columns the `n` clusters right in front of the cursor take up. -/
def widthBefore (l : Line) (n : Nat) : Nat :=
  displayWidth (l.lastBefore n)

/-- How many columns the text behind the cursor takes up. -/
def widthAfter (l : Line) : Nat :=
  displayWidth l.after

/-! ## Changing the text -/

/-- Puts text in at the cursor, which then stands behind it. -/
def insert (l : Line) (s : List Char) : Line :=
  let text := l.before ++ s ++ l.after
  { text, cursor := min (clusterCount (l.before ++ s)) (clusterCount text) }

/-- How far `insert` moves the cursor. This is less than the clusters put in where they join the
    one in front of them. -/
def insertAdvance (l : Line) (s : List Char) : Nat :=
  clusterCount (l.before ++ s) - l.cursor

/-- What an erasure covers, seen from the cursor. -/
inductive Erasure where
  /-- The cluster in front of the cursor. -/
  | previous
  /-- Everything behind the cursor. -/
  | toEnd
  /-- Everything in front of the cursor. -/
  | toBegin
  | everything
  deriving DecidableEq, Repr

/-- Erases part of the line: the text that goes, and the line without it. There is nothing to
    erase if the cursor stands at the end in question. -/
def erase? (l : Line) : Erasure → Option (List Char × Line)
  | .previous =>
    if l.cursor = 0 then none
    else some (l.lastBefore 1,
      { text := l.firstClusters (l.cursor - 1) ++ l.after, cursor := l.cursor - 1 })
  | .toEnd =>
    if l.after.isEmpty then none else some (l.after, { l with text := l.before })
  | .toBegin =>
    if l.cursor = 0 then none else some (l.before, { text := l.after, cursor := 0 })
  | .everything =>
    if l.text.isEmpty then none else some (l.text, empty)

/-- Puts `s` in the place of the clusters from `start` up to the cursor, which then stands behind
    it. -/
def replaceBefore (l : Line) (start : Nat) (s : List Char) : Line :=
  let kept := l.firstClusters (min start l.cursor)
  { text := kept ++ s ++ l.after, cursor := clusterCount (kept ++ s) }

/-- Hands out the text and the cursor. A finished line leaves the empty one behind. -/
def take (l : Line) (finished : Bool) : (List Char × Nat) × Line :=
  ((l.text, l.cursor), if finished then empty else l)

/-! ## Moving the cursor -/

/-- Where the cursor arrives that is moved by `delta` clusters and stopped at the ends. -/
def target (l : Line) (delta : Int) : Nat :=
  (max 0 (min (l.cursor + delta) l.length)).toNat

/-- Moves the cursor by `delta` clusters, not beyond the ends. -/
def move (l : Line) (delta : Int) : Line :=
  { l with cursor := l.target delta }

/-- By how much `move` moves the cursor. -/
def moved (l : Line) (delta : Int) : Int :=
  (l.target delta : Int) - l.cursor

/-- A number as a signed machine word holds it: the nearest one, if it is out of range. Words range
    up to `largest`, and one further in the negative. -/
def saturate (largest : Nat) (n : Int) : Int :=
  max (-largest - 1) (min n largest)

/-- Moving the cursor with machine words: the line, and by how much the cursor was moved, unless
    that difference is no word. -/
def moveInWords? (largest : Nat) (l : Line) (delta : Int) : Option (Int × Line) :=
  let length := saturate largest l.length
  let cursor := saturate largest l.cursor
  let target := max 0 (min (saturate largest (cursor + delta)) length)
  let moved := target - cursor
  if moved = saturate largest moved then some (moved, { l with cursor := target.toNat }) else none

/-- How many clusters stand behind the cursor. -/
def distanceToEnd (l : Line) : Nat :=
  l.length - l.cursor

/-- Moves the cursor to the end. -/
def moveToEnd (l : Line) : Line :=
  { l with cursor := l.cursor + l.distanceToEnd }

end Line

end Promptline
