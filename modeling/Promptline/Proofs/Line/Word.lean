import Mathlib.Data.List.DropRight
import Mathlib.Data.List.TakeWhile
import Promptline.Proofs.Line.Cursor

set_option autoImplicit false

/-! # The word at the cursor

A line finds the word that ends at its cursor by clusters: it starts behind the last cluster that is
blank throughout. In a text, words end at blank characters (`lastWord`). A cluster may hold a blank
character and others besides, such as a space with an accent on it, and there the two part: for the
line such a cluster belongs to the word, in the text it ends one.

Both find the same word just where the last cluster that holds a blank character is blank throughout
(`word_eq_lastWord_iff`). -/

namespace Promptline

namespace Unicode

/-- What stands behind the last blank character of a text. -/
def lastWord (text : List Char) : List Char :=
  (splitAtBlanks text).getLast?.getD []

theorem splitAtBlanks_ne_nil (text : List Char) : splitAtBlanks text ≠ [] :=
  List.splitOnP_ne_nil isBlank text

theorem splitAtBlanks_of_forall {text : List Char} (h : ∀ c ∈ text, isBlank c = false) :
    splitAtBlanks text = [text] :=
  List.splitOnP_eq_singleton h

/-- A blank character divides a text. -/
theorem splitAtBlanks_append {b : Char} (hb : isBlank b = true) (front rest : List Char) :
    splitAtBlanks (front ++ b :: rest) = splitAtBlanks front ++ splitAtBlanks rest :=
  List.splitOnP_append_cons front rest hb

/-- The stretches between blank characters hold all others, in order. -/
theorem flatten_splitAtBlanks (text : List Char) :
    (splitAtBlanks text).flatten = text.filter fun c => !isBlank c := by
  induction text with
  | nil => rfl
  | cons c rest ih =>
      obtain ⟨word, more, hrest⟩ := List.exists_cons_of_ne_nil (splitAtBlanks_ne_nil rest)
      rw [splitAtBlanks, List.splitOnP_cons_eq_if_modifyHead, ← splitAtBlanks, hrest]
      rw [hrest] at ih
      by_cases hc : isBlank c = true
      · simp [hc, ← ih]
      · simp [hc, ← ih]

theorem mem_of_mem_splitAtBlanks {text word : List Char} (h : word ∈ splitAtBlanks text) {c : Char}
    (hc : c ∈ word) : c ∈ text ∧ isBlank c = false := by
  have hmem : c ∈ (splitAtBlanks text).flatten := List.mem_flatten.2 ⟨word, h, hc⟩
  rw [flatten_splitAtBlanks, List.mem_filter] at hmem
  simpa using hmem

theorem mem_of_mem_lastWord {text : List Char} {c : Char} (h : c ∈ lastWord text) :
    c ∈ text ∧ isBlank c = false := by
  rw [lastWord, List.getLast?_eq_some_getLast (splitAtBlanks_ne_nil text)] at h
  exact mem_of_mem_splitAtBlanks (List.getLast_mem _) h

theorem lastWord_of_forall {text : List Char} (h : ∀ c ∈ text, isBlank c = false) :
    lastWord text = text := by
  rw [lastWord, splitAtBlanks_of_forall h]
  rfl

theorem lastWord_append {b : Char} (hb : isBlank b = true) (front : List Char) {word : List Char}
    (h : ∀ c ∈ word, isBlank c = false) : lastWord (front ++ b :: word) = word := by
  rw [lastWord, splitAtBlanks_append hb, splitAtBlanks_of_forall h]
  simp

/-- Whether a character can stand in a word. -/
def inWord (c : Char) : Bool :=
  !isBlank c

/-- The stretches of a text are those in front of its last blank character, and what stands behind
    that. -/
theorem splitAtBlanks_cases (text : List Char) :
    (text.rdropWhile inWord = [] ∧ splitAtBlanks text = [text.rtakeWhile inWord]) ∨
      ∃ front b, isBlank b = true ∧ text.rdropWhile inWord = front ++ [b] ∧
        splitAtBlanks text = splitAtBlanks front ++ [text.rtakeWhile inWord] := by
  have hword : ∀ c ∈ text.rtakeWhile inWord, isBlank c = false := by
    intro c hc
    simpa [inWord] using List.mem_rtakeWhile_imp hc
  have htext := List.rdropWhile_append_rtakeWhile (p := inWord) (l := text)
  rcases List.eq_nil_or_concat (text.rdropWhile inWord) with hfront | ⟨front, b, hfront⟩
  · refine .inl ⟨hfront, ?_⟩
    rw [hfront, List.nil_append] at htext
    rw [htext] at hword
    rw [htext, splitAtBlanks_of_forall hword]
  · rw [List.concat_eq_append] at hfront
    have hb : isBlank b = true := by
      have hlast := List.rdropWhile_last_not inWord text (by simp [hfront])
      simpa [hfront, inWord] using hlast
    refine .inr ⟨front, b, hb, hfront, ?_⟩
    rw [hfront, List.append_assoc, List.singleton_append] at htext
    rw [← splitAtBlanks_of_forall hword, ← splitAtBlanks_append hb, htext]

theorem lastWord_eq_rtakeWhile (text : List Char) : lastWord text = text.rtakeWhile inWord := by
  rw [lastWord]
  rcases splitAtBlanks_cases text with ⟨_, hsplit⟩ | ⟨front, b, _, _, hsplit⟩
  · rw [hsplit]
    rfl
  · rw [hsplit, List.getLast?_concat]
    rfl

/-- The last stretch of a text that is not empty is its last word. -/
theorem find?_splitAtBlanks (text : List Char) :
    ((splitAtBlanks text).reverse.find? fun w => !w.isEmpty) =
      let v := (text.rdropWhile isBlank).rtakeWhile inWord
      if v.isEmpty then none else some v := by
  induction text using List.reverseRecOn with
  | nil => rfl
  | append_singleton front c ih =>
      by_cases hc : isBlank c = true
      · rw [splitAtBlanks_append hc, List.rdropWhile_concat_pos _ _ _ hc, ← ih]
        simp [splitAtBlanks]
      · have hword : inWord c = true := by simpa [inWord] using hc
        have hlast := lastWord_eq_rtakeWhile (front ++ [c])
        rw [List.rdropWhile_concat_neg _ _ _ hc]
        rw [lastWord, List.getLast?_eq_some_getLast (splitAtBlanks_ne_nil _),
          Option.getD_some] at hlast
        rw [← List.dropLast_append_getLast (splitAtBlanks_ne_nil (front ++ [c])), hlast,
          List.rtakeWhile_concat_pos _ _ _ hword]
        simp

end Unicode

namespace Line

open Unicode

variable (l : Line)

/-- The word at the cursor: from where it starts up to the cursor. -/
def word : List Char :=
  l.lastBefore (l.cursor - l.wordStart)

/-- The last cluster in front of the cursor that holds a blank character. -/
def lastBlank? : Option (List Char) :=
  (clusters l.before).reverse.find? fun cluster => cluster.any isBlank

/-- The text in front of the cursor ends with the word. -/
theorem firstClusters_append_word : l.firstClusters l.wordStart ++ l.word = l.before := by
  have hle := l.wordStart_le_cursor
  have hback : l.cursor - (l.cursor - l.wordStart) = l.wordStart := by omega
  rw [word, lastBefore, hback]
  exact l.firstClusters_append_stretch hle

/-- The word is made up of the last clusters that are not blank throughout. -/
theorem word_eq_takeWhile :
    l.word = ((clusters l.before).reverse.takeWhile fun c => !isBlankText c).reverse.flatten := by
  have hle := l.wordStart_le_cursor
  have hback : l.cursor - (l.cursor - l.wordStart) = l.wordStart := by omega
  have hclusters : (clusters l.text).take l.cursor = clusters l.before :=
    (l.clusters_firstClusters l.cursor).symm
  rw [word, lastBefore, hback, hclusters, wordStart]
  generalize clusters l.before = cs
  have hfront := List.prefix_iff_eq_take.1
    (List.takeWhile_prefix (l := cs.reverse) fun c => !isBlankText c)
  generalize cs.reverse.takeWhile (fun c => !isBlankText c) = behind at hfront ⊢
  rw [hfront, List.reverse_take, List.reverse_reverse, List.length_reverse, ← hfront]

variable {l}

/-- A cluster without blank characters is not blank, since it is not empty. -/
theorem isBlankText_of_forall {cluster : List Char} (hmem : cluster ∈ clusters l.before)
    (h : ∀ c ∈ cluster, isBlank c = false) : isBlankText cluster = false := by
  cases cluster with
  | nil => exact absurd rfl (divide_ne_nil .start l.before [] hmem)
  | cons c rest => rw [isBlankText, List.all_cons, h c List.mem_cons_self, Bool.false_and]

/-- Without blank characters in front of the cursor, the word is all that stands there. -/
theorem word_of_lastBlank?_eq_none (h : l.lastBlank? = none) :
    l.word = lastWord l.before := by
  have hblank : ∀ cluster ∈ clusters l.before, ∀ c ∈ cluster, isBlank c = false := by
    intro cluster hcluster c hc
    have hnone := List.find?_eq_none.1 h cluster (List.mem_reverse.2 hcluster)
    rw [List.any_eq_true] at hnone
    exact Bool.eq_false_iff.2 fun hb => hnone ⟨c, hc, hb⟩
  have htext : ∀ c ∈ l.before, isBlank c = false := by
    intro c hc
    rw [← clusters_flatten l.before] at hc
    obtain ⟨cluster, hcluster, hc⟩ := List.mem_flatten.1 hc
    exact hblank cluster hcluster c hc
  have hword : ∀ cluster ∈ (clusters l.before).reverse, (!isBlankText cluster) = true := by
    intro cluster hcluster
    have hmem := List.mem_reverse.1 hcluster
    rw [isBlankText_of_forall hmem (hblank cluster hmem)]
    rfl
  have hall : (clusters l.before).reverse.takeWhile (fun c => !isBlankText c) =
      (clusters l.before).reverse :=
    List.takeWhile_eq_self_iff.2 hword
  rw [lastWord_of_forall htext, word_eq_takeWhile, hall, List.reverse_reverse, clusters_flatten]

/-- The clusters around the last one with a blank character, and what the word is then. -/
theorem word_of_lastBlank?_eq_some {cluster : List Char} (h : l.lastBlank? = some cluster) :
    ∃ front back : List (List Char), clusters l.before = front ++ cluster :: back ∧
      (∃ c ∈ cluster, isBlank c = true) ∧ (∀ c ∈ back.flatten, isBlank c = false) ∧
      l.word = ((cluster :: front.reverse).takeWhile fun c => !isBlankText c).reverse.flatten ++
        back.flatten := by
  obtain ⟨hcluster, behind, before, hreverse, hbehind⟩ := List.find?_eq_some_iff_append.1 h
  have hclusters : clusters l.before = before.reverse ++ cluster :: behind.reverse := by
    rw [← List.reverse_reverse (clusters l.before), hreverse]
    simp
  have hblank : ∀ other ∈ behind, ∀ c ∈ other, isBlank c = false := by
    intro other hother c hc
    have hnone := hbehind other hother
    rw [Bool.not_eq_true', List.any_eq_false] at hnone
    exact Bool.eq_false_iff.2 (hnone c hc)
  have hword : ∀ other ∈ behind, (!isBlankText other) = true := by
    intro other hother
    have hmem : other ∈ clusters l.before := by
      rw [hclusters]
      exact List.mem_append_right _ (List.mem_cons_of_mem _ (List.mem_reverse.2 hother))
    rw [isBlankText_of_forall hmem (hblank other hother)]
    rfl
  refine ⟨before.reverse, behind.reverse, hclusters, List.any_eq_true.1 hcluster, ?_, ?_⟩
  · intro c hc
    obtain ⟨other, hother, hc⟩ := List.mem_flatten.1 hc
    exact hblank other (List.mem_reverse.1 hother) c hc
  · rw [word_eq_takeWhile, hreverse, List.takeWhile_append_of_pos hword, List.reverse_append,
      List.flatten_append, List.reverse_reverse]

/-- **Where clusters and characters agree on the word.** The word that a line finds at its cursor is
    the last word of the text in front of it just if the last cluster there that holds a blank
    character, where there is one, is blank throughout. -/
theorem word_eq_lastWord_iff :
    l.word = lastWord l.before ↔ ∀ cluster ∈ l.lastBlank?, isBlankText cluster = true := by
  cases hlast : l.lastBlank? with
  | none =>
      constructor
      · intro _ cluster hcluster
        cases hcluster
      · intro _
        exact word_of_lastBlank?_eq_none hlast
  | some cluster =>
      obtain ⟨front, back, hclusters, ⟨b, hb, hblank⟩, hback, hword⟩ :=
        word_of_lastBlank?_eq_some hlast
      have hbefore : l.before = front.flatten ++ cluster ++ back.flatten := by
        rw [← clusters_flatten l.before, hclusters]
        simp
      rw [hword]
      constructor
      · intro hsame found hfound
        obtain rfl := Option.some.inj hfound
        refine Decidable.byContradiction fun hmixed => ?_
        -- the blank character would be in a word of the text
        have hmem : b ∈ lastWord l.before := by
          rw [← hsame, List.takeWhile_cons, if_pos (by simpa using hmixed)]
          simp [hb]
        rw [(mem_of_mem_lastWord hmem).2] at hblank
        cases hblank
      · intro hthroughout
        have hall : isBlankText cluster = true := hthroughout cluster rfl
        have hlastChar : cluster ≠ [] := List.ne_nil_of_mem hb
        have hend : isBlank (cluster.getLast hlastChar) = true :=
          List.all_eq_true.1 hall _ (List.getLast_mem hlastChar)
        have htext : front.flatten ++ cluster ++ back.flatten =
            front.flatten ++ cluster.dropLast ++ cluster.getLast hlastChar :: back.flatten := by
          have hdivide := List.dropLast_concat_getLast hlastChar
          generalize cluster.dropLast = first, cluster.getLast hlastChar = last at hdivide ⊢
          rw [← hdivide]
          simp
        rw [List.takeWhile_cons, if_neg (by simp [hall]), hbefore, htext,
          lastWord_append hend _ hback]
        rfl

end Line

end Promptline
