import Promptline.Proofs.Line.Cursor
import Promptline.Text.Utf8

set_option autoImplicit false

/-! # Lines as bytes

The text of a line is kept as bytes, and what stands in front of the cursor, behind it or around it
is a stretch of these bytes between two offsets. Such a stretch exists only if the offsets are in
order and neither of them is inside a character or beyond the end (`slice?`). All stretches that
the operations on a line take do exist, and they are the texts that the operations speak of
(`Line.sliced`). -/

namespace Promptline

open Unicode

/-! ## Stretches of bytes -/

/-- How many bytes a text takes. -/
def byteLength (text : List Char) : Nat :=
  (Utf8.encode text).length

/-- Divides a text behind its first `n` bytes, unless that is inside a character or beyond the
    end. -/
def splitBytes? : Nat → List Char → Option (List Char × List Char)
  | 0, text => some ([], text)
  | _ + 1, [] => none
  | n + 1, c :: rest =>
    let size := (String.utf8EncodeChar c).length
    if size ≤ n + 1 then
      (splitBytes? (n + 1 - size) rest).map fun (front, back) => (c :: front, back)
    else none

/-- The text between two offsets, which have to be in order and between characters. -/
def slice? (text : List Char) (start stop : Nat) : Option (List Char) :=
  if start ≤ stop then
    (splitBytes? stop text).bind fun (front, _) => (splitBytes? start front).map Prod.snd
  else none

theorem byteLength_append (s t : List Char) :
    byteLength (s ++ t) = byteLength s + byteLength t := by
  rw [byteLength, Utf8.encode, List.flatMap_append, List.length_append]
  rfl

theorem splitBytes?_append (front back : List Char) :
    splitBytes? (byteLength front) (front ++ back) = some (front, back) := by
  induction front with
  | nil => simp [byteLength, Utf8.encode, splitBytes?]
  | cons c rest ih =>
      have hpos : 0 < (String.utf8EncodeChar c).length := by
        rw [String.length_utf8EncodeChar]
        exact Char.utf8Size_pos c
      have hlength : byteLength (c :: rest) =
          (String.utf8EncodeChar c).length + byteLength rest := by
        rw [byteLength, Utf8.encode, List.flatMap_cons, List.length_append]
        rfl
      obtain ⟨n, hn⟩ := Nat.exists_eq_succ_of_ne_zero (n := byteLength (c :: rest)) (by omega)
      have hrest : n + 1 - (String.utf8EncodeChar c).length = byteLength rest := by omega
      rw [hn, List.cons_append, splitBytes?]
      dsimp only
      rw [if_pos (by omega), hrest, ih]
      rfl

/-- The stretch between two texts. -/
theorem slice?_append (front mid back : List Char) :
    slice? (front ++ mid ++ back) (byteLength front) (byteLength (front ++ mid)) = some mid := by
  have hle : byteLength front ≤ byteLength (front ++ mid) := by
    rw [byteLength_append]
    exact Nat.le_add_right _ _
  rw [slice?, if_pos hle, splitBytes?_append, Option.bind_some]
  dsimp only
  rw [splitBytes?_append]
  rfl

/-- The stretch at the front of a text. -/
theorem slice?_zero (front back : List Char) :
    slice? (front ++ back) 0 (byteLength front) = some front :=
  slice?_append [] front back

/-! ## Stretches of a line -/

namespace Line

/-- The offset at which a cluster of the line starts; behind the last cluster, the end. -/
def byteOffset (l : Line) (n : Nat) : Nat :=
  byteLength (l.firstClusters n)

/-- The stretches of bytes that the operations on a line take exist, each of them being the text
    that the operation speaks of. -/
structure Sliced (l : Line) : Prop where
  /-- In front of the cursor: shown, looked through for the word, and erased to the beginning. -/
  before : slice? l.text 0 (l.byteOffset l.cursor) = some l.before
  /-- Behind the cursor: shown, and erased to the end. -/
  after : slice? l.text (l.byteOffset l.cursor) (byteLength l.text) = some l.after
  /-- Clusters right in front of the cursor: measured, erased, and replaced. -/
  stretch (n : Nat) :
    slice? l.text (l.byteOffset (l.cursor - n)) (l.byteOffset l.cursor) = some (l.lastBefore n)
  /-- Up to the end of text that was put in: counted. -/
  inserted (s : List Char) :
    slice? (l.insert s).text 0 (l.byteOffset l.cursor + byteLength s) = some (l.before ++ s)
  /-- What is to be replaced, wherever it is said to start: taken out. -/
  replaced (start : Nat) :
    slice? l.text (l.byteOffset (min start l.cursor)) (l.byteOffset l.cursor) =
      some (l.lastBefore (l.cursor - min start l.cursor))
  /-- Up to the end of text in the place of another: counted. -/
  replacement (start : Nat) (s : List Char) :
    slice? (l.replaceBefore start s).text 0
        (l.byteOffset (min start l.cursor) + byteLength s) =
      some (l.firstClusters (min start l.cursor) ++ s)

/-- The clusters between two places. -/
theorem slice?_byteOffset (l : Line) {m n : Nat} (h : m ≤ n) :
    slice? l.text (l.byteOffset m) (l.byteOffset n) = some (l.stretch m n) := by
  have htext : l.firstClusters n ++ ((clusters l.text).drop n).flatten = l.text := by
    rw [firstClusters, ← List.flatten_append, List.take_append_drop, clusters_flatten]
  have hslice := slice?_append (l.firstClusters m) (l.stretch m n)
    ((clusters l.text).drop n).flatten
  rw [l.firstClusters_append_stretch h, htext] at hslice
  exact hslice

/-- **Every stretch of bytes that is taken exists**, for any text and wherever the cursor is. -/
theorem sliced (l : Line) : l.Sliced := by
  have hstretch : ∀ n, slice? l.text (l.byteOffset (l.cursor - n)) (l.byteOffset l.cursor) =
      some (l.lastBefore n) := fun n =>
    l.slice?_byteOffset (Nat.sub_le l.cursor n)
  refine ⟨?_, ?_, hstretch, ?_, ?_, ?_⟩
  · have hslice := slice?_zero l.before l.after
    rw [before_append_after] at hslice
    exact hslice
  · have hslice := slice?_append l.before l.after []
    rw [List.append_nil, before_append_after] at hslice
    exact hslice
  · intro s
    rw [byteOffset, ← byteLength_append]
    exact slice?_zero (l.before ++ s) l.after
  · intro start
    have hstart : l.cursor - (l.cursor - min start l.cursor) = min start l.cursor := by omega
    have hslice := hstretch (l.cursor - min start l.cursor)
    rw [hstart] at hslice
    exact hslice
  · intro start s
    rw [byteOffset, ← byteLength_append]
    exact slice?_zero (l.firstClusters (min start l.cursor) ++ s) l.after

end Line

end Promptline
