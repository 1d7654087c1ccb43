import Promptline.Proofs.Terminal.Numeral
import Promptline.Proofs.Unicode.Alphabet

set_option autoImplicit false

/-! # A screen that obeys what is written to it

A grid without bounds: rows go on to the right and down, nothing wraps and nothing scrolls. It takes
characters one at a time. Those that are printed go to the cursor, which moves on by their width;
carriage return, line feed and control sequences move the cursor and erase cells.

A glyph takes as many columns as its width. Writing over one half of a glyph, or erasing it, wipes
out the other half, as terminals do.

`Row.Begins` says that a row begins with a text. Printing behind that text makes the row begin with
the longer text whatever stood there before (`Row.Begins.putAll`), which is why a line can be
redrawn over its old self. -/

namespace Promptline.Terminal

open Unicode

/-- What one column of a row shows. -/
inductive Cell where
  | blank
  | glyph (c : Char)
  /-- The glyph to the left goes on here. -/
  | more
  deriving DecidableEq, Repr

/-- The cells of a row, from the left. -/
abbrev Row := Nat → Cell

/-- The cells that one character fills. -/
def glyphOf (c : Char) : List Cell :=
  match displayWidth [c] with
  | 0 => []
  | n + 1 => .glyph c :: List.replicate n .more

/-- The cells that a text fills. -/
def glyphs (s : List Char) : List Cell :=
  s.flatMap glyphOf

/-- How many cells a text fills. -/
def extent (s : List Char) : Nat :=
  (glyphs s).length

namespace Row

/-- The row that shows a text from its beginning, and nothing else. -/
def ofText (s : List Char) : Row :=
  fun x => (glyphs s)[x]?.getD .blank

/-- Puts a character at a column. -/
def put (row : Row) (x : Nat) (c : Char) : Row :=
  if displayWidth [c] = 0 then row
  else fun y =>
    if x ≤ y ∧ y < x + displayWidth [c] then (if y = x then .glyph c else .more)
    else if y + 1 = x ∧ row x = .more then .blank
    else if y = x + displayWidth [c] ∧ row y = .more then .blank
    else row y

/-- Puts characters from a column on, one behind the other. -/
def putAll (row : Row) (x : Nat) : List Char → Row
  | [] => row
  | c :: rest => putAll (row.put x c) (x + displayWidth [c]) rest

/-- Erases a column and all columns right of it. -/
def eraseFrom (row : Row) (x : Nat) : Row :=
  fun y => if x ≤ y ∨ (y + 1 = x ∧ row x = .more) then .blank else row y

/-- Erases a column and all columns left of it. -/
def eraseTo (row : Row) (x : Nat) : Row :=
  fun y => if y ≤ x ∨ (y = x + 1 ∧ row y = .more) then .blank else row y

end Row

/-- Where in a sequence the screen is. -/
inductive Stage where
  | text
  | escape
  | control (parameters : List Char)
  deriving DecidableEq, Repr

structure Screen where
  /-- The rows, from the top. -/
  cells : Nat → Row
  /-- The place of the cursor. -/
  row : Nat
  column : Nat
  /-- The row and column that were saved last. -/
  saved : Nat × Nat
  stage : Stage

namespace Screen

/-- The screen with nothing on it, the cursor in its corner. -/
def clear : Screen :=
  { cells := fun _ => Row.ofText [], row := 0, column := 0, saved := (0, 0), stage := .text }

/-- The number in the parameters of a control sequence. -/
def number (parameters : List Char) : Nat :=
  Nat.ofDigitChars 10 parameters 0

/-- How far a control sequence moves the cursor: by one at least. -/
def count (parameters : List Char) : Nat :=
  max 1 (number parameters)

/-- Changes the row of the cursor. -/
def onRow (s : Screen) (f : Row → Row) : Screen :=
  { s with cells := fun r => if r = s.row then f (s.cells r) else s.cells r }

/-- Puts a character at the cursor, and moves the cursor behind it. -/
def print (s : Screen) (c : Char) : Screen :=
  { s.onRow (fun row => row.put s.column c) with column := s.column + displayWidth [c] }

/-- Erases everything behind the cursor, on its row and below. -/
def eraseBelow (s : Screen) : Screen :=
  { s with cells := fun r =>
      if r = s.row then (s.cells r).eraseFrom s.column
      else if s.row < r then Row.ofText [] else s.cells r }

/-- Erases everything in front of the cursor, on its row and above. -/
def eraseAbove (s : Screen) : Screen :=
  { s with cells := fun r =>
      if r = s.row then (s.cells r).eraseTo s.column
      else if r < s.row then Row.ofText [] else s.cells r }

/-- Obeys a complete control sequence. One that is not known does nothing. -/
def obey (s : Screen) (parameters : List Char) (final : Char) : Screen :=
  match final with
  | 'A' => { s with row := s.row - count parameters }
  | 'B' => { s with row := s.row + count parameters }
  | 'C' => { s with column := s.column + count parameters }
  | 'D' => { s with column := s.column - count parameters }
  | 'E' => { s with row := s.row + count parameters, column := 0 }
  | 'F' => { s with row := s.row - count parameters, column := 0 }
  | 's' => { s with saved := (s.row, s.column) }
  | 'u' => { s with row := s.saved.1, column := s.saved.2 }
  | 'J' =>
    match number parameters with
    | 0 => s.eraseBelow
    | 1 => s.eraseAbove
    | _ => { s with cells := fun _ => Row.ofText [] }
  | 'K' =>
    match number parameters with
    | 0 => s.onRow fun row => row.eraseFrom s.column
    | 1 => s.onRow fun row => row.eraseTo s.column
    | _ => s.onRow fun _ => Row.ofText []
  | _ => s

/-- Whether a character belongs to the parameters of a control sequence. -/
def isParameter (c : Char) : Bool :=
  0x20 ≤ c.toNat && c.toNat ≤ 0x3F

/-- Takes one character. -/
def take (s : Screen) (c : Char) : Screen :=
  match s.stage with
  | .text =>
    if c = '\x1b' then { s with stage := .escape }
    else if c = '\r' then { s with column := 0 }
    else if c = '\n' then { s with row := s.row + 1 }
    else if isControl c then s
    else s.print c
  | .escape => { s with stage := if c = '[' then .control [] else .text }
  | .control parameters =>
    if isParameter c then { s with stage := .control (parameters ++ [c]) }
    else { s.obey parameters c with stage := .text }

/-- Takes the characters of a text, one after another. -/
def feed (s : Screen) (text : List Char) : Screen :=
  text.foldl take s

theorem feed_append (s : Screen) (t u : List Char) : s.feed (t ++ u) = (s.feed t).feed u :=
  List.foldl_append

@[simp]
theorem feed_nil (s : Screen) : s.feed [] = s :=
  rfl

theorem feed_cons (s : Screen) (c : Char) (t : List Char) : s.feed (c :: t) = (s.take c).feed t :=
  rfl

end Screen

/-! ## The cells of a text -/

theorem length_glyphOf (c : Char) : (glyphOf c).length = displayWidth [c] := by
  unfold glyphOf
  split <;> simp_all

@[simp]
theorem extent_nil : extent [] = 0 :=
  rfl

theorem extent_cons (c : Char) (s : List Char) :
    extent (c :: s) = displayWidth [c] + extent s := by
  rw [extent, glyphs, List.flatMap_cons, List.length_append, length_glyphOf]
  rfl

theorem glyphs_append (s t : List Char) : glyphs (s ++ t) = glyphs s ++ glyphs t :=
  List.flatMap_append

theorem extent_append (s t : List Char) : extent (s ++ t) = extent s + extent t := by
  rw [extent, glyphs_append, List.length_append]
  rfl

theorem extent_singleton (c : Char) : extent [c] = displayWidth [c] := by
  rw [extent_cons, extent_nil, Nat.add_zero]

/-- Over a plain alphabet a text fills as many cells as it is wide. -/
theorem extent_eq_displayWidth {A : Char → Prop} (hA : PlainAlphabet A) {s : List Char}
    (h : Over A s) : extent s = displayWidth s := by
  rw [hA.displayWidth_eq s h]
  clear h
  induction s with
  | nil => rfl
  | cons c rest ih => rw [extent_cons, ih, widthSum]

/-- No text begins in the middle of a glyph. -/
theorem head_glyphs_ne_more (s : List Char) : (glyphs s)[0]? ≠ some .more := by
  induction s with
  | nil => simp [glyphs]
  | cons c rest ih =>
      rw [glyphs, List.flatMap_cons, ← glyphs]
      unfold glyphOf
      split
      · exact ih
      · simp

/-! ## Rows that begin with a text -/

namespace Row

/-- A row begins with a text, and the text ends where a glyph ends. -/
structure Begins (row : Row) (s : List Char) : Prop where
  shows : ∀ x, x < extent s → row x = ofText s x
  whole : row (extent s) ≠ .more

/-- Nothing stands from a column on. -/
def BlankFrom (row : Row) (x : Nat) : Prop :=
  ∀ y, x ≤ y → row y = .blank

theorem ofText_append_left {s t : List Char} {x : Nat} (h : x < extent s) :
    ofText (s ++ t) x = ofText s x := by
  simp only [ofText, glyphs_append]
  rw [List.getElem?_append_left h]

theorem ofText_append_right {s t : List Char} (x : Nat) :
    ofText (s ++ t) (extent s + x) = ofText t x := by
  simp only [ofText, glyphs_append, extent]
  rw [List.getElem?_append_right (Nat.le_add_right _ _), Nat.add_sub_cancel_left]

theorem ofText_zero_ne_more (s : List Char) : ofText s 0 ≠ .more := by
  have h := head_glyphs_ne_more s
  unfold ofText
  cases hg : (glyphs s)[0]? with
  | none => simp
  | some cell =>
      rw [hg] at h
      exact fun he => h (congrArg some he)

theorem blankFrom_ofText (s : List Char) : BlankFrom (ofText s) (extent s) := by
  intro y hy
  rw [ofText, List.getElem?_eq_none hy, Option.getD_none]

theorem begins_ofText (s t : List Char) : Begins (ofText (s ++ t)) s where
  shows _ h := ofText_append_left h
  whole := by
    have h := ofText_append_right (s := s) (t := t) 0
    rw [Nat.add_zero] at h
    rw [h]
    exact ofText_zero_ne_more t

/-- A row that begins with a text and goes on with blanks shows exactly the text. -/
theorem Begins.eq_ofText {row : Row} {s : List Char} (h : row.Begins s)
    (hb : row.BlankFrom (extent s)) : row = ofText s := by
  funext x
  rcases Nat.lt_or_ge x (extent s) with hx | hx
  · exact h.shows x hx
  · rw [hb x hx, blankFrom_ofText s x hx]

theorem ofText_singleton {c : Char} {x : Nat} (h : x < displayWidth [c]) :
    ofText [c] x = if x = 0 then .glyph c else .more := by
  have hg : glyphs [c] = glyphOf c := by simp [glyphs]
  rw [ofText, hg, glyphOf]
  split
  · next hw => omega
  · next n hw =>
      cases x with
      | zero => rfl
      | succ x =>
          rw [List.getElem?_cons_succ, List.getElem?_replicate, if_pos (by omega)]
          rfl

/-- Putting a character right behind the text that a row begins with. -/
theorem Begins.put {row : Row} {s : List Char} (h : row.Begins s) (c : Char) :
    (row.put (extent s) c).Begins (s ++ [c]) := by
  have hext : extent (s ++ [c]) = extent s + displayWidth [c] := by
    rw [extent_append, extent_singleton]
  by_cases hw : displayWidth [c] = 0
  · have hnone : glyphOf c = [] := List.length_eq_zero_iff.1 (by rw [length_glyphOf, hw])
    have hgl : glyphs (s ++ [c]) = glyphs s := by simp [glyphs, hnone]
    rw [Row.put, if_pos hw]
    refine ⟨fun x hx => ?_, ?_⟩
    · rw [hext, hw, Nat.add_zero] at hx
      rw [h.shows x hx, ofText, ofText, hgl]
    · rw [hext, hw, Nat.add_zero]
      exact h.whole
  · rw [Row.put, if_neg hw]
    refine ⟨fun x hx => ?_, ?_⟩
    · rw [hext] at hx
      rcases Nat.lt_or_ge x (extent s) with hlt | hge
      · -- left of the new glyph nothing changes, since no old glyph is cut
        rw [if_neg (by omega), if_neg (fun hc => h.whole hc.2), if_neg (by omega),
          ofText_append_left hlt]
        exact h.shows x hlt
      · obtain ⟨d, rfl⟩ := Nat.exists_eq_add_of_le hge
        rw [if_pos ⟨hge, hx⟩, ofText_append_right, ofText_singleton (by omega)]
        by_cases hd : d = 0
        · rw [if_pos (by omega), if_pos hd]
        · rw [if_neg (by omega), if_neg hd]
    · -- a glyph that the new one cuts on its right is wiped out
      rw [hext, if_neg (by omega), if_neg (by omega)]
      split
      · simp
      · next hne => exact fun he => hne ⟨rfl, he⟩

theorem BlankFrom.put {row : Row} {n x : Nat} (h : row.BlankFrom n) (c : Char) :
    (row.put x c).BlankFrom (max n (x + displayWidth [c])) := by
  intro y hy
  rw [Row.put]
  split
  · exact h y (by omega)
  · beta_reduce
    rw [if_neg (by omega), if_neg (by omega)]
    split
    · rfl
    · exact h y (by omega)

/-- **Printing behind a text.** Whatever a row showed behind the text that it begins with, it begins
    with the longer text once more characters are put there. -/
theorem Begins.putAll {row : Row} {s : List Char} (h : row.Begins s) (t : List Char) :
    (row.putAll (extent s) t).Begins (s ++ t) := by
  induction t generalizing row s with
  | nil => simpa [Row.putAll] using h
  | cons c rest ih =>
      have hput := ih (h.put c)
      rw [extent_append, extent_singleton, List.append_assoc] at hput
      exact hput

theorem BlankFrom.putAll {row : Row} {n x : Nat} (h : row.BlankFrom n) (t : List Char) :
    (row.putAll x t).BlankFrom (max n (x + extent t)) := by
  induction t generalizing row n x with
  | nil => exact fun y hy => h y (by simp at hy; omega)
  | cons c rest ih =>
      have hput := ih (x := x + displayWidth [c]) (h.put (x := x) c)
      intro y hy
      rw [extent_cons] at hy
      exact hput y (by omega)

/-- Erasing right behind the text that a row begins with leaves the text. -/
theorem Begins.eraseFrom {row : Row} {s : List Char} (h : row.Begins s) :
    row.eraseFrom (extent s) = ofText s := by
  funext x
  unfold Row.eraseFrom
  rcases Nat.lt_or_ge x (extent s) with hx | hx
  · rw [if_neg (by intro hc; rcases hc with hc | hc; omega; exact h.whole hc.2), h.shows x hx]
  · rw [if_pos (Or.inl hx), blankFrom_ofText s x hx]

end Row

/-! ## What feeding a screen does -/

namespace Screen

/-- Text without controls goes to the row of the cursor. -/
theorem feed_printed {s : Screen} (hs : s.stage = .text) {t : List Char}
    (ht : ∀ c ∈ t, isControl c = false) :
    s.feed t =
      { s.onRow (fun row => row.putAll s.column t) with column := s.column + extent t } := by
  induction t generalizing s with
  | nil => simp [Screen.onRow, Row.putAll]
  | cons c rest ih =>
      have hc := ht c (List.mem_cons_self ..)
      have hctl : ∀ d, isControl d = true → c ≠ d := fun d hd he => by simp [he, hd] at hc
      have htake : s.take c = s.print c := by
        rw [Screen.take, hs]
        simp only
        rw [if_neg (hctl _ (by decide)), if_neg (hctl _ (by decide)), if_neg (hctl _ (by decide)),
          if_neg (by simp [hc])]
      -- printing does not leave the row, so the two prints change one and the same
      rw [feed_cons, htake, ih (s := s.print c) hs fun d hd => ht d (List.mem_cons_of_mem _ hd)]
      simp only [Screen.print, Screen.onRow, extent_cons, Nat.add_assoc, Screen.mk.injEq, and_true]
      funext r
      split
      · rfl
      · rfl

/-- What a control sequence does has nothing to do with where in a sequence the screen is. -/
theorem obey_stage (s : Screen) (q : Stage) (parameters : List Char) (final : Char) :
    ({ s with stage := q } : Screen).obey parameters final =
      { s.obey parameters final with stage := q } := by
  unfold Screen.obey
  split <;> first | rfl | (split <;> rfl)

/-- Parameters are collected. -/
theorem feed_parameters {s : Screen} {ps : List Char} (hs : s.stage = .control ps)
    {ds : List Char} (hd : ∀ d ∈ ds, isParameter d = true) :
    s.feed ds = { s with stage := .control (ps ++ ds) } := by
  induction ds generalizing s ps with
  | nil => simp [← hs]
  | cons d ds ih =>
      have htake : s.take d = { s with stage := .control (ps ++ [d]) } := by
        rw [Screen.take, hs]
        simp only [hd d (List.mem_cons_self ..), if_true]
      rw [feed_cons, htake, ih (s := { s with stage := .control (ps ++ [d]) }) rfl
        fun e he => hd e (List.mem_cons_of_mem _ he)]
      simp

/-- The screen obeys a complete control sequence. -/
theorem feed_sequence {s : Screen} (hs : s.stage = .text) {p : List Char} {final : Char}
    (hp : ∀ d ∈ p, isParameter d = true) (hf : isParameter final = false) :
    s.feed (['\x1b', '['] ++ p ++ [final]) = s.obey p final := by
  have hopen : s.feed ['\x1b', '['] = { s with stage := .control [] } := by
    simp [feed_cons, Screen.take, hs]
  rw [feed_append, feed_append, hopen, feed_parameters rfl hp, feed_cons, feed_nil, Screen.take]
  simp only [hf, List.nil_append, Bool.false_eq_true, if_false]
  -- the screen has obeyed inside the sequence, which is over now
  rw [obey_stage, ← hs]
  exact (obey_stage s s.stage p final).symm

/-- A control sequence with one number. -/
theorem feed_controlSequence {s : Screen} (hs : s.stage = .text) (n : UInt16) {final : Char}
    (hf : isParameter final = false) :
    s.feed (Event.controlSequence [n] final) = s.obey (Event.decimal n) final := by
  have hdigits : ∀ d ∈ Event.decimal n, isParameter d = true := by
    intro d hd
    have := toNat_of_mem_decimal hd
    simp [isParameter]
    omega
  simpa [Event.controlSequence] using feed_sequence hs hdigits hf

theorem number_decimal (n : UInt16) : number (Event.decimal n) = n.toNat :=
  ofDigitChars_decimal n

theorem count_decimal {n : UInt16} (hn : 0 < n.toNat) : count (Event.decimal n) = n.toNat := by
  rw [count, number_decimal]
  omega

/-! The events that an editor has a screen perform, one equation each. -/

section Events

variable {s : Screen} (hs : s.stage = .text) {n : UInt16}
include hs

theorem feed_cursorForward (hn : 0 < n.toNat) :
    s.feed (Event.cursorForward n).encode = { s with column := s.column + n.toNat } := by
  change s.feed (Event.controlSequence [n] 'C') = _
  rw [feed_controlSequence hs n (by decide), ← count_decimal hn]
  rfl

theorem feed_cursorBackward (hn : 0 < n.toNat) :
    s.feed (Event.cursorBackward n).encode = { s with column := s.column - n.toNat } := by
  change s.feed (Event.controlSequence [n] 'D') = _
  rw [feed_controlSequence hs n (by decide), ← count_decimal hn]
  rfl

theorem feed_cursorNextLine (hn : 0 < n.toNat) :
    s.feed (Event.cursorNextLine n).encode = { s with row := s.row + n.toNat, column := 0 } := by
  change s.feed (Event.controlSequence [n] 'E') = _
  rw [feed_controlSequence hs n (by decide), ← count_decimal hn]
  rfl

theorem feed_cursorPreviousLine (hn : 0 < n.toNat) :
    s.feed (Event.cursorPreviousLine n).encode
      = { s with row := s.row - n.toNat, column := 0 } := by
  change s.feed (Event.controlSequence [n] 'F') = _
  rw [feed_controlSequence hs n (by decide), ← count_decimal hn]
  rfl

theorem feed_eraseLineToEnd :
    s.feed Event.eraseLineToEnd.encode = s.onRow fun row => row.eraseFrom s.column := by
  change s.feed (Event.controlSequence [0] 'K') = _
  rw [feed_controlSequence hs 0 (by decide)]
  rfl

theorem feed_eraseLine : s.feed Event.eraseLine.encode = s.onRow fun _ => Row.ofText [] := by
  change s.feed (Event.controlSequence [2] 'K') = _
  rw [feed_controlSequence hs 2 (by decide)]
  rfl

theorem feed_eraseToEnd : s.feed Event.eraseToEnd.encode = s.eraseBelow := by
  change s.feed (Event.controlSequence [0] 'J') = _
  rw [feed_controlSequence hs 0 (by decide)]
  rfl

theorem feed_saveCursor :
    s.feed Event.saveCursor.encode = { s with saved := (s.row, s.column) } :=
  feed_sequence hs (p := []) (by simp) (by decide)

theorem feed_restoreCursor :
    s.feed Event.restoreCursor.encode = { s with row := s.saved.1, column := s.saved.2 } :=
  feed_sequence hs (p := []) (by simp) (by decide)

theorem feed_lineBreak : s.feed ['\r', '\n'] = { s with row := s.row + 1, column := 0 } := by
  simp [feed_cons, Screen.take, hs]

end Events

end Screen

end Promptline.Terminal
