import Promptline.Line
import Promptline.Proofs.Unicode.Alphabet

set_option autoImplicit false

/-! # Lines over an alphabet

A line whose text is over an alphabet stays one, whatever is taken out of it, and whatever is put in
that is over the alphabet too (`over_insert`, `over_erase?`, ..).

Over a plain alphabet, where every character is a cluster of its own, a line is two texts with the
cursor between them (`Line.eq_between`), and each operation says what becomes of the two. -/

namespace Promptline.Line

open Unicode

section Over

variable {A : Char → Prop} {l : Line} (hl : Over A l.text)
include hl

/-- Clusters of a text are made up of its characters. -/
theorem over_flatten {cs : List (List Char)} (hcs : cs ⊆ clusters l.text) : Over A cs.flatten := by
  intro c hc
  obtain ⟨cluster, hmem, hc⟩ := List.mem_flatten.1 hc
  rw [← clusters_flatten l.text] at hl
  exact hl c (List.mem_flatten.2 ⟨cluster, hcs hmem, hc⟩)

theorem over_firstClusters (n : Nat) : Over A (l.firstClusters n) :=
  over_flatten hl (List.take_subset _ _)

theorem over_before : Over A l.before :=
  over_firstClusters hl l.cursor

theorem over_after : Over A l.after :=
  over_flatten hl (List.drop_subset _ _)

theorem over_insert {s : List Char} (hs : Over A s) : Over A (l.insert s).text :=
  over_append.2 ⟨over_append.2 ⟨over_before hl, hs⟩, over_after hl⟩

theorem over_replaceBefore (start : Nat) {s : List Char} (hs : Over A s) :
    Over A (l.replaceBefore start s).text :=
  over_append.2 ⟨over_append.2 ⟨over_firstClusters hl _, hs⟩, over_after hl⟩

theorem over_erase? {erasure : Erasure} {removed : List Char} {l' : Line}
    (h : l.erase? erasure = some (removed, l')) : Over A l'.text := by
  unfold erase? at h
  cases erasure with
  | previous =>
      obtain ⟨_, h⟩ := Option.ite_none_left_eq_some.1 h
      cases h
      exact over_append.2 ⟨over_firstClusters hl _, over_after hl⟩
  | toEnd =>
      obtain ⟨_, h⟩ := Option.ite_none_left_eq_some.1 h
      cases h
      exact over_before hl
  | toBegin =>
      obtain ⟨_, h⟩ := Option.ite_none_left_eq_some.1 h
      cases h
      exact over_after hl
  | everything =>
      obtain ⟨_, h⟩ := Option.ite_none_left_eq_some.1 h
      cases h
      exact over_nil

end Over

/-! ## Plain alphabets -/

/-- The line with the cursor between two texts, counted in characters. -/
def between (left right : List Char) : Line :=
  { text := left ++ right, cursor := left.length }

@[simp]
theorem text_between (left right : List Char) : (between left right).text = left ++ right :=
  rfl

@[simp]
theorem cursor_between (left right : List Char) : (between left right).cursor = left.length :=
  rfl

section Plain

variable {A : Char → Prop} (hA : PlainAlphabet A)
include hA

theorem flatten_clusters_take {s : List Char} (hs : Over A s) (n : Nat) :
    ((clusters s).take n).flatten = s.take n := by
  rw [hA.clusters_eq s hs, ← List.map_take, ← List.flatMap_def, List.flatMap_singleton']

theorem flatten_clusters_drop {s : List Char} (hs : Over A s) (n : Nat) :
    ((clusters s).drop n).flatten = s.drop n := by
  rw [hA.clusters_eq s hs, ← List.map_drop, ← List.flatMap_def, List.flatMap_singleton']

/-- Over a plain alphabet the text in front of the cursor is as long as the cursor says. -/
theorem eq_between {l : Line} (hl : Over A l.text) (hw : l.WellFormed) :
    l = between l.before l.after := by
  have hlength : l.cursor ≤ l.text.length := by
    rw [← hA.clusterCount_eq hl]
    exact hw
  have hbefore : l.before = l.text.take l.cursor := flatten_clusters_take hA hl l.cursor
  rw [between, before_append_after, hbefore, List.length_take, Nat.min_eq_left hlength]

theorem ofText_eq_between {s : List Char} (hs : Over A s) : ofText s = between s [] := by
  rw [ofText, between, hA.clusterCount_eq hs, List.append_nil]

variable {left right : List Char} (hl : Over A left) (hr : Over A right)
include hl hr

theorem before_between : (between left right).before = left := by
  rw [before, firstClusters, text_between, cursor_between,
    flatten_clusters_take hA (over_append.2 ⟨hl, hr⟩), List.take_left]

theorem after_between : (between left right).after = right := by
  rw [after, text_between, cursor_between, flatten_clusters_drop hA (over_append.2 ⟨hl, hr⟩),
    List.drop_left]

theorem length_between : (between left right).length = left.length + right.length := by
  rw [length, text_between, hA.clusterCount_eq (over_append.2 ⟨hl, hr⟩), List.length_append]

theorem wellFormed_between : (between left right).WellFormed := by
  rw [WellFormed, length_between hA hl hr]
  exact Nat.le_add_right _ _

theorem distanceToEnd_between : (between left right).distanceToEnd = right.length := by
  rw [distanceToEnd, length_between hA hl hr, cursor_between, Nat.add_sub_cancel_left]

theorem moveToEnd_between : (between left right).moveToEnd = between (left ++ right) [] := by
  rw [moveToEnd, distanceToEnd_between hA hl hr]
  simp [between]

theorem widthAfter_between : (between left right).widthAfter = displayWidth right := by
  rw [widthAfter, after_between hA hl hr]

theorem insert_between {s : List Char} (hs : Over A s) :
    (between left right).insert s = between (left ++ s) right := by
  have hls : Over A (left ++ s) := over_append.2 ⟨hl, hs⟩
  have hle : (left ++ s).length ≤ (left ++ s ++ right).length := by
    simp only [List.length_append]
    omega
  rw [insert, before_between hA hl hr, after_between hA hl hr, hA.clusterCount_eq hls,
    hA.clusterCount_eq (over_append.2 ⟨hls, hr⟩), Nat.min_eq_left hle]
  rfl

/-- Moving back over a stretch, or as far back as there is one. -/
theorem move_backward {mid : List Char} (hm : Over A mid) {n : Nat}
    (hn : mid.length = min n (left.length + mid.length)) :
    (between (left ++ mid) right).move (-(n : Int)) = between left (mid ++ right) := by
  have hlength := length_between hA (over_append.2 ⟨hl, hm⟩) hr
  rw [List.length_append] at hlength
  have htarget : (between (left ++ mid) right).target (-(n : Int)) = left.length := by
    rw [target, hlength, cursor_between, List.length_append]
    omega
  rw [move, htarget, between, between, List.append_assoc]

/-- Moving on over a stretch, or as far as there is one. -/
theorem move_forward {mid : List Char} (hm : Over A mid) {n : Nat}
    (hn : mid.length = min n (mid.length + right.length)) :
    (between left (mid ++ right)).move (n : Int) = between (left ++ mid) right := by
  have hlength := length_between hA hl (over_append.2 ⟨hm, hr⟩)
  rw [List.length_append] at hlength
  have htarget : (between left (mid ++ right)).target (n : Int) = (left ++ mid).length := by
    rw [target, hlength, cursor_between, List.length_append]
    omega
  rw [move, htarget, between, between, List.append_assoc]

theorem lastBefore_between {mid : List Char} (hm : Over A mid) {n : Nat}
    (hn : mid.length = min n (left.length + mid.length)) :
    (between (left ++ mid) right).lastBefore n = mid := by
  have hlength : (left ++ mid).length - n = left.length := by
    rw [List.length_append]
    omega
  rw [lastBefore, text_between, cursor_between, hlength,
    hA.clusters_eq _ (over_append.2 ⟨over_append.2 ⟨hl, hm⟩, hr⟩), ← List.map_take,
    List.take_left, ← List.map_drop, List.drop_left, ← List.flatMap_def, List.flatMap_singleton']

theorem widthBefore_between {mid : List Char} (hm : Over A mid) {n : Nat}
    (hn : mid.length = min n (left.length + mid.length)) :
    (between (left ++ mid) right).widthBefore n = displayWidth mid := by
  rw [widthBefore, lastBefore_between hA hl hr hm hn]

/-! ## Erasing and replacing -/

theorem erase?_previous_between {c : Char} (hc : A c) :
    (between (left ++ [c]) right).erase? .previous = some ([c], between left right) := by
  have hone : Over A [c] := by simpa [Over] using hc
  have hlc : Over A (left ++ [c]) := over_append.2 ⟨hl, hone⟩
  have hfirst : (between (left ++ [c]) right).firstClusters left.length = left := by
    rw [firstClusters, text_between, flatten_clusters_take hA (over_append.2 ⟨hlc, hr⟩),
      List.append_assoc, List.take_left]
  rw [erase?, lastBefore_between hA hl hr hone (by simp),
    after_between hA hlc hr, cursor_between, List.length_append, List.length_singleton,
    Nat.add_sub_cancel, hfirst, if_neg (Nat.succ_ne_zero _)]
  rfl

theorem erase?_toEnd_between :
    (between left right).erase? .toEnd =
      if right = [] then none else some (right, between left []) := by
  rw [erase?, after_between hA hl hr, before_between hA hl hr]
  by_cases h : right = [] <;> simp [h, between]

theorem erase?_toBegin_between :
    (between left right).erase? .toBegin =
      if left = [] then none else some (left, between [] right) := by
  rw [erase?, after_between hA hl hr, before_between hA hl hr]
  by_cases h : left = [] <;> simp [h, between]

/-- Putting a text in the place of a stretch that ends at the cursor. -/
theorem replaceBefore_between {mid s : List Char} (hm : Over A mid) (hs : Over A s) :
    (between (left ++ mid) right).replaceBefore left.length s = between (left ++ s) right := by
  have hlm : Over A (left ++ mid) := over_append.2 ⟨hl, hm⟩
  have hfirst : (between (left ++ mid) right).firstClusters left.length = left := by
    rw [firstClusters, text_between, flatten_clusters_take hA (over_append.2 ⟨hlm, hr⟩),
      List.append_assoc, List.take_left]
  rw [replaceBefore, cursor_between, List.length_append, Nat.min_eq_left (Nat.le_add_right _ _),
    hfirst, after_between hA hlm hr, hA.clusterCount_eq (over_append.2 ⟨hl, hs⟩)]
  rfl

end Plain

theorem erase?_previous_nil (right : List Char) : (between [] right).erase? .previous = none :=
  rfl

theorem erase?_everything_between (left right : List Char) :
    (between left right).erase? .everything =
      if left ++ right = [] then none else some (left ++ right, between [] []) := by
  rw [erase?, text_between]
  by_cases h : left ++ right = []
  · rw [if_pos h, if_pos (by simp [h])]
  · rw [if_neg h, if_neg (by simpa using h)]
    rfl

theorem wordStart_le (l : Line) : l.wordStart ≤ (clusters l.before).length :=
  Nat.sub_le _ _

/-- The last `n` characters of a text, or as many as it has, and those in front of them. -/
theorem exists_last (left : List Char) (n : Nat) :
    ∃ first last, left = first ++ last ∧ last.length = min n (first.length + last.length) := by
  refine ⟨left.take (left.length - n), left.drop (left.length - n),
    (List.take_append_drop _ _).symm, ?_⟩
  rw [List.length_take, List.length_drop]
  omega

/-- The first `n` characters of a text, or as many as it has, and those behind them. -/
theorem exists_first (right : List Char) (n : Nat) :
    ∃ first last, right = first ++ last ∧ first.length = min n (first.length + last.length) := by
  refine ⟨right.take n, right.drop n, (List.take_append_drop _ _).symm, ?_⟩
  rw [List.length_take, List.length_drop]
  omega

end Promptline.Line
