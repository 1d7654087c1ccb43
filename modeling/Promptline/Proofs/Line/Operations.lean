import Promptline.Proofs.Line.Cursor
import Promptline.Proofs.Line.Slices

set_option autoImplicit false

/-! # What the operations on a line do

Whatever was done to a line before, the cursor divides its text at the cluster that it counts, and
each operation does exactly what it says, however the clusters around the cursor join or come apart
(`operations_exact`): moving stops at the ends, text is put in where the cursor is, and an erasure
takes out the clusters between two places (`erasedFrom`, `erasedUpTo`) and leaves the cursor at the
first of them.

Moving is done with machine words, whose sums stop at the largest of them. For a text that fits into
memory it comes to the same as with all integers (`moveInWords?_eq`). -/

namespace Promptline.Line

open Unicode

/-! ## Operations one after another -/

inductive Operation where
  | insert (s : List Char)
  | move (delta : Int)
  | moveToEnd
  | erase (erasure : Erasure)
  | replace (s : List Char)
  | replaceBefore (start : Nat) (s : List Char)
  | take (finished : Bool)
  deriving DecidableEq, Repr

/-- The line after an operation. -/
def perform (l : Line) : Operation → Line
  | .insert s => l.insert s
  | .move delta => l.move delta
  | .moveToEnd => l.moveToEnd
  | .erase erasure => ((l.erase? erasure).map Prod.snd).getD l
  | .replace s => .ofText s
  | .replaceBefore start s => l.replaceBefore start s
  | .take finished => (l.take finished).2

/-- Every operation leaves the cursor in the line. -/
theorem WellFormed.perform {l : Line} (h : l.WellFormed) (operation : Operation) :
    (l.perform operation).WellFormed := by
  cases operation with
  | insert s => exact wellFormed_insert l s
  | move delta => exact wellFormed_move l delta
  | moveToEnd => exact h.moveToEnd
  | erase erasure =>
      cases herase : l.erase? erasure with
      | none =>
          rw [Line.perform, herase]
          exact h
      | some found =>
          rw [Line.perform, herase]
          exact h.erase? herase
  | replace s => exact wellFormed_ofText s
  | replaceBefore start s => exact wellFormed_replaceBefore l start s
  | take finished =>
      cases finished with
      | false => exact h
      | true => exact wellFormed_empty

/-- So do any operations, one after another. -/
theorem WellFormed.foldl_perform {l : Line} (h : l.WellFormed) (operations : List Operation) :
    (operations.foldl Line.perform l).WellFormed := by
  induction operations generalizing l with
  | nil => exact h
  | cons operation rest ih => exact ih (h.perform operation)

/-! ## Machine words -/

/-- Words move the cursor to where it is said to go, if they can count the line. -/
theorem moveInWords?_eq {l : Line} (h : l.WellFormed) {largest : Nat} (hlength : l.length ≤ largest)
    (delta : Int) : l.moveInWords? largest delta = some (l.moved delta, l.move delta) := by
  have hcursor : l.cursor ≤ l.length := h
  have hlength' : saturate largest l.length = l.length := by
    rw [saturate]
    omega
  have hcursor' : saturate largest l.cursor = l.cursor := by
    rw [saturate]
    omega
  have htarget : max 0 (min (saturate largest (l.cursor + delta)) l.length) = l.target delta := by
    rw [saturate, target]
    omega
  have hmoved : l.moved delta = saturate largest (l.moved delta) := by
    rw [saturate, moved, target]
    omega
  rw [moveInWords?, hlength', hcursor', htarget]
  exact if_pos hmoved

/-- A text has no more clusters than bytes. -/
theorem length_le_byteLength (l : Line) : l.length ≤ byteLength l.text := by
  have hclusters : ∀ cs : List (List Char), (∀ cluster ∈ cs, cluster ≠ []) →
      cs.length ≤ byteLength cs.flatten := by
    intro cs hcs
    induction cs with
    | nil => exact Nat.zero_le _
    | cons cluster rest ih =>
        have hrest := ih fun c hc => hcs c (List.mem_cons_of_mem _ hc)
        have hpos : 0 < byteLength cluster := by
          obtain ⟨c, cs, rfl⟩ := List.exists_cons_of_ne_nil (hcs cluster List.mem_cons_self)
          have hc : byteLength (c :: cs) = byteLength [c] + byteLength cs :=
            byteLength_append [c] cs
          have hone : byteLength [c] = c.utf8Size := by
            simp [byteLength, Utf8.encode]
          have := Char.utf8Size_pos c
          omega
        rw [List.flatten_cons, byteLength_append, List.length_cons]
        omega
  have hall := hclusters (clusters l.text) (divide_ne_nil .start l.text)
  rw [clusters_flatten] at hall
  exact hall

/-! ## Erasing -/

/-- Where an erasure begins, in clusters. -/
def erasedFrom (l : Line) : Erasure → Nat
  | .previous => l.cursor - 1
  | .toEnd => l.cursor
  | .toBegin => 0
  | .everything => 0

/-- Where an erasure ends, in clusters. -/
def erasedUpTo (l : Line) : Erasure → Nat
  | .previous => l.cursor
  | .toEnd => l.length
  | .toBegin => l.cursor
  | .everything => l.length

theorem stretch_zero (l : Line) (n : Nat) : l.stretch 0 n = l.firstClusters n :=
  rfl

theorem stretch_cursor_length (l : Line) : l.stretch l.cursor l.length = l.after := by
  have hall : (clusters l.text).take l.length = clusters l.text := List.take_length
  rw [stretch, hall]
  rfl

/-- Two places divide the line. -/
theorem stretch_append_stretch (l : Line) {m n : Nat} (hm : m ≤ n) (hn : n ≤ l.length) :
    l.stretch 0 m ++ l.stretch m n ++ l.stretch n l.length = l.text := by
  rw [stretch_zero, l.firstClusters_append_stretch hm, l.firstClusters_append_stretch hn,
    firstClusters_length]

/-- Between two places there is text, if there is a cluster. -/
theorem stretch_eq_nil_iff (l : Line) {m n : Nat} (hm : m ≤ n) (hn : n ≤ l.length) :
    l.stretch m n = [] ↔ m = n := by
  have hcount : (((clusters l.text).take n).drop m).length = n - m := by
    rw [List.length_drop, List.length_take]
    exact congrArg (· - m) (Nat.min_eq_left hn)
  constructor
  · intro hnone
    cases hclusters : ((clusters l.text).take n).drop m with
    | nil =>
        rw [hclusters, List.length_nil] at hcount
        omega
    | cons cluster rest =>
        have hmem : cluster ∈ clusters l.text :=
          List.mem_of_mem_take (List.mem_of_mem_drop (hclusters ▸ List.mem_cons_self))
        rw [stretch, hclusters, List.flatten_cons] at hnone
        exact absurd (List.append_eq_nil_iff.1 hnone).1 (divide_ne_nil .start l.text cluster hmem)
  · rintro rfl
    rw [stretch, List.drop_take_self, List.flatten_nil]

/-- The cluster in front of the cursor. -/
theorem WellFormed.getElem?_clusters {l : Line} (h : l.WellFormed) (hpos : 0 < l.cursor) :
    (clusters l.text)[l.cursor - 1]? = some (l.stretch (l.cursor - 1) l.cursor) := by
  have hcursor : l.cursor ≤ (clusters l.text).length := h
  have hlast : l.cursor - 1 < (clusters l.text).length := by omega
  have htake : (clusters l.text).take l.cursor =
      (clusters l.text).take (l.cursor - 1) ++ [(clusters l.text)[l.cursor - 1]] := by
    rw [← List.take_succ_eq_append_getElem hlast, Nat.sub_add_cancel hpos]
  have hlength : ((clusters l.text).take (l.cursor - 1)).length = l.cursor - 1 := by
    rw [List.length_take]
    omega
  rw [stretch, htake, List.drop_left' hlength, List.flatten_singleton,
    List.getElem?_eq_getElem hlast]

/-- **An erasure takes out the clusters between two places**, if there are any, and leaves the
    cursor at the first of them. -/
theorem WellFormed.erase?_eq {l : Line} (h : l.WellFormed) (erasure : Erasure) :
    l.erase? erasure =
      if l.erasedFrom erasure = l.erasedUpTo erasure then none
      else some (l.stretch (l.erasedFrom erasure) (l.erasedUpTo erasure),
        { text := l.stretch 0 (l.erasedFrom erasure) ++ l.stretch (l.erasedUpTo erasure) l.length
          cursor := l.erasedFrom erasure }) := by
  have hcursor : l.cursor ≤ l.length := h
  have hend : l.stretch l.length l.length = [] :=
    (l.stretch_eq_nil_iff (Nat.le_refl _) (Nat.le_refl _)).2 rfl
  cases erasure with
  | previous =>
      rw [Line.erase?, erasedFrom, erasedUpTo, stretch_cursor_length]
      by_cases hnone : l.cursor = 0
      · rw [if_pos hnone, if_pos (by omega)]
      · rw [if_neg hnone, if_neg (by omega)]
        rfl
  | toEnd =>
      have hafter := l.stretch_eq_nil_iff hcursor (Nat.le_refl _)
      rw [stretch_cursor_length] at hafter
      rw [Line.erase?, erasedFrom, erasedUpTo, stretch_cursor_length, hend, List.append_nil]
      by_cases hnone : l.cursor = l.length
      · rw [if_pos (List.isEmpty_iff.2 (hafter.2 hnone)), if_pos hnone]
      · rw [if_neg (mt (fun hempty => hafter.1 (List.isEmpty_iff.1 hempty)) hnone), if_neg hnone]
        rfl
  | toBegin =>
      rw [Line.erase?, erasedFrom, erasedUpTo, stretch_cursor_length]
      by_cases hnone : l.cursor = 0
      · rw [if_pos hnone, if_pos hnone.symm]
      · rw [if_neg hnone, if_neg (mt Eq.symm hnone)]
        rfl
  | everything =>
      have htext : l.stretch 0 l.length = l.text := by
        rw [stretch_zero, firstClusters_length]
      have hall := l.stretch_eq_nil_iff (Nat.zero_le l.length) (Nat.le_refl _)
      rw [htext] at hall
      rw [Line.erase?, erasedFrom, erasedUpTo, htext, hend, List.append_nil]
      by_cases hnone : 0 = l.length
      · rw [if_pos (List.isEmpty_iff.2 (hall.2 hnone)), if_pos hnone]
      · rw [if_neg (mt (fun hempty => hall.1 (List.isEmpty_iff.1 hempty)) hnone), if_neg hnone]
        rfl

/-! ## All operations -/

/-- What is true of a line, and of what operations do to it and answer. -/
structure Exact (l : Line) : Prop where
  cursor_le_length : l.cursor ≤ l.length
  before_append_after : l.before ++ l.after = l.text
  clusterCount_before : clusterCount l.before = l.cursor
  /-- A move leads to the nearest place in the line, and tells how far away that is. -/
  move (delta : Int) :
    (l.move delta).text = l.text ∧
      ((l.move delta).cursor : Int) = max 0 (min (l.cursor + delta) l.length) ∧
      l.moved delta = (l.move delta).cursor - l.cursor
  moveToEnd :
    l.moveToEnd.text = l.text ∧ l.moveToEnd.cursor = l.length ∧
      l.distanceToEnd = l.moveToEnd.cursor - l.cursor
  /-- Machine words that can count the bytes of the text move the cursor in just that way, however
      far, and no difference overflows. -/
  words (largest : Nat) (fits : byteLength l.text ≤ largest) (delta : Int) :
    l.moveInWords? largest delta = some (l.moved delta, l.move delta)
  /-- Text comes to stand at the cursor, which advances by as much as is told. -/
  insert (s : List Char) :
    (l.insert s).text = l.before ++ s ++ l.after ∧
      (l.insert s).cursor = l.cursor + l.insertAdvance s
  /-- The places of an erasure divide the line in three, and the text in the middle goes, unless
      there is none, because the places are the same. -/
  erase (erasure : Erasure) :
    let front := l.stretch 0 (l.erasedFrom erasure)
    let removed := l.stretch (l.erasedFrom erasure) (l.erasedUpTo erasure)
    let back := l.stretch (l.erasedUpTo erasure) l.length
    l.text = front ++ removed ++ back ∧
      (removed = [] ↔ l.erasedFrom erasure = l.erasedUpTo erasure) ∧
      l.erase? erasure =
        if l.erasedFrom erasure = l.erasedUpTo erasure then none
        else some (removed, { text := front ++ back, cursor := l.erasedFrom erasure })
  /-- Going back by one erases a single cluster. -/
  previous (hpos : 0 < l.cursor) :
    (clusters l.text)[l.cursor - 1]? =
      some (l.stretch (l.erasedFrom .previous) (l.erasedUpTo .previous))

theorem WellFormed.exact {l : Line} (h : l.WellFormed) : l.Exact where
  cursor_le_length := h
  before_append_after := l.before_append_after
  clusterCount_before := h.clusterCount_before
  move delta := by
    refine ⟨rfl, ?_, rfl⟩
    show ((max 0 (min (l.cursor + delta) l.length)).toNat : Int) = _
    omega
  moveToEnd := ⟨rfl, h.cursor_moveToEnd, (Nat.add_sub_cancel_left ..).symm⟩
  words largest fits delta := moveInWords?_eq h (Nat.le_trans l.length_le_byteLength fits) delta
  insert s := by
    have hbefore := h.clusterCount_before
    have hfurther := clusterCount_le_append l.before s
    have hwithin := clusterCount_le_append (l.before ++ s) l.after
    refine ⟨rfl, ?_⟩
    rw [Line.insert, insertAdvance]
    dsimp only
    omega
  erase erasure := by
    obtain ⟨hle, hlength⟩ : l.erasedFrom erasure ≤ l.erasedUpTo erasure ∧
        l.erasedUpTo erasure ≤ l.length := by
      have hcursor : l.cursor ≤ l.length := h
      cases erasure <;> simp only [erasedFrom, erasedUpTo] <;> omega
    exact ⟨(l.stretch_append_stretch hle hlength).symm, l.stretch_eq_nil_iff hle hlength,
      h.erase?_eq erasure⟩
  previous hpos := h.getElem?_clusters hpos

/-- **Operations on a line.** After any operations, one after another and beginning with the empty
    line, the cursor is in the line and divides it behind as many clusters as it says, and every
    operation that may follow does, and answers, exactly what it says. -/
theorem operations_exact (operations : List Operation) :
    (operations.foldl perform .empty).Exact :=
  (wellFormed_empty.foldl_perform operations).exact

/-- An accent joins the letter that was typed before it. With words of 8 bits, a move by the largest
    one stops at the end, and going back by one erases letter and accent. -/
theorem operations_exact_accent :
    let operations : List Operation :=
      [.insert ['e'], .insert ['\u0301', 'x'], .move (-5), .move 1]
    let l := operations.foldl perform .empty
    l = { text := ['e', '\u0301', 'x'], cursor := 1 } ∧ byteLength l.text ≤ 127 ∧
      l.moveInWords? 127 127 = some (1, { text := ['e', '\u0301', 'x'], cursor := 2 }) ∧
      l.erase? .previous = some (['e', '\u0301'], { text := ['x'], cursor := 0 }) := by
  intro operations l
  have hexact : l.Exact := operations_exact operations
  have hfits : byteLength l.text ≤ 127 := by decide +kernel
  obtain ⟨-, -, herase⟩ := hexact.erase .previous
  exact ⟨by decide +kernel, hfits, (hexact.words 127 hfits 127).trans (by decide +kernel),
    herase.trans (by decide +kernel)⟩

end Promptline.Line
