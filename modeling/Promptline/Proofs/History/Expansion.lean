import Mathlib.Data.List.Basic
import Promptline.History
import Promptline.Proofs.Line.Word

set_option autoImplicit false

/-! # Expanding word by word

A text is expanded by putting an entry in the place of every word that refers to one. Blanks stay
where they are, and so the words of the expansion are those of what the words stand for, one after
another (`words_expand`). A text that is expanded to itself holds only words that are
(`expand_eq_self_iff`), because no entry is blank: a word stands for one word at least, and for
exactly itself if there is no room for more. -/

namespace Promptline

namespace Unicode

/-- The words of a text: its longest stretches without blank characters. -/
def words (text : List Char) : List (List Char) :=
  (splitAtBlanks text).filter fun word => !word.isEmpty

/-- A blank character divides the words of a text. -/
theorem words_append {b : Char} (hb : isBlank b = true) (front rest : List Char) :
    words (front ++ b :: rest) = words front ++ words rest := by
  rw [words, splitAtBlanks_append hb, List.filter_append]
  rfl

theorem words_of_forall {word : List Char} (hne : word ≠ []) (h : ∀ c ∈ word, isBlank c = false) :
    words word = [word] := by
  rw [words, splitAtBlanks_of_forall h]
  simp [hne]

/-- Blank characters in front of a text are no part of its words. -/
theorem words_blanks_append {s : List Char} (hs : ∀ c ∈ s, isBlank c = true) (rest : List Char) :
    words (s ++ rest) = words rest := by
  induction s with
  | nil => rfl
  | cons c s ih =>
      have hc : words (c :: (s ++ rest)) = words [] ++ words (s ++ rest) :=
        words_append (hs c List.mem_cons_self) [] _
      rw [List.cons_append, hc, ih fun d hd => hs d (List.mem_cons_of_mem _ hd)]
      rfl

/-- A text that is not blank has a word. -/
theorem words_ne_nil {s : List Char} (h : isBlankText s = false) : words s ≠ [] := by
  induction s with
  | nil => cases h
  | cons c rest ih =>
      by_cases hc : isBlank c = true
      · have hcons : words (c :: rest) = words [] ++ words rest := words_append hc [] rest
        have hrest : isBlankText rest = false := by
          rw [isBlankText, List.all_cons, hc, Bool.true_and] at h
          exact h
        rw [hcons]
        exact ih hrest
      · -- the first stretch begins with `c`
        obtain ⟨word, more, hrest⟩ := List.exists_cons_of_ne_nil (splitAtBlanks_ne_nil rest)
        rw [words, splitAtBlanks, List.splitOnP_cons_eq_if_modifyHead, if_neg hc, ← splitAtBlanks,
          hrest]
        simp

end Unicode

open Unicode

namespace History

/-! ## Tokens -/

def Token.word? : Token → Option (List Char)
  | blanks _ => none
  | word s => some s

/-- Tokens none of which is empty, and no two words of which stand side by side. -/
inductive Divided : List Token → Prop
  | nil : Divided []
  | blanks {b : Char} {s : List Char} {rest : List Token}
      (blank : ∀ c ∈ b :: s, isBlank c = true) (divided : Divided rest) :
      Divided (.blanks (b :: s) :: rest)
  | last {w : List Char} (nonempty : w ≠ []) (letters : ∀ c ∈ w, isBlank c = false) :
      Divided [.word w]
  | word {w : List Char} {b : Char} {s : List Char} {rest : List Token} (nonempty : w ≠ [])
      (letters : ∀ c ∈ w, isBlank c = false) (blank : ∀ c ∈ b :: s, isBlank c = true)
      (divided : Divided rest) : Divided (.word w :: .blanks (b :: s) :: rest)

theorem Divided.consToken {ts : List Token} (h : Divided ts) (c : Char) :
    Divided (consToken c ts) := by
  unfold History.consToken
  cases hc : isBlank c with
  | true =>
      cases h with
      | nil => exact .blanks (by simpa using hc) .nil
      | blanks blank divided => exact .blanks (List.forall_mem_cons.2 ⟨hc, blank⟩) divided
      | last nonempty letters => exact .blanks (by simpa using hc) (.last nonempty letters)
      | word nonempty letters blank divided =>
          exact .blanks (by simpa using hc) (.word nonempty letters blank divided)
  | false =>
      cases h with
      | nil => exact .last (List.cons_ne_nil _ _) (by simpa using hc)
      | blanks blank divided =>
          exact .word (List.cons_ne_nil _ _) (by simpa using hc) blank divided
      | last nonempty letters =>
          exact .last (List.cons_ne_nil _ _) (List.forall_mem_cons.2 ⟨hc, letters⟩)
      | word nonempty letters blank divided =>
          exact .word (List.cons_ne_nil _ _) (List.forall_mem_cons.2 ⟨hc, letters⟩) blank divided

theorem divided_tokens (text : List Char) : Divided (tokens text) := by
  induction text with
  | nil => exact .nil
  | cons c rest ih => exact ih.consToken c

/-- What is put in the place of words stays apart, with the blanks between. -/
theorem Divided.words_flatMap {ts : List Token} (h : Divided ts) {f : Token → List Char}
    (hf : ∀ s, f (.blanks s) = s) :
    words (ts.flatMap f) = (ts.filterMap Token.word?).flatMap fun w => words (f (.word w)) := by
  induction h with
  | nil => rfl
  | blanks blank _ ih =>
      rw [List.flatMap_cons, hf, words_blanks_append blank, ih]
      rfl
  | last => simp [Token.word?]
  | @word w b s rest _ _ blank _ ih =>
      obtain ⟨hb, hs⟩ := List.forall_mem_cons.1 blank
      have hfront : words (f (.word w) ++ b :: (s ++ rest.flatMap f)) =
          words (f (.word w)) ++ words (s ++ rest.flatMap f) :=
        words_append hb _ _
      rw [List.flatMap_cons, List.flatMap_cons, hf, List.cons_append, hfront,
        words_blanks_append hs, ih]
      rfl

theorem Divided.words_of_mem {ts : List Token} (h : Divided ts) {w : List Char}
    (hw : Token.word w ∈ ts) : words w = [w] := by
  induction h with
  | nil => exact absurd hw List.not_mem_nil
  | blanks _ _ ih => exact ih ((List.mem_cons.1 hw).resolve_left nofun)
  | last nonempty letters =>
      obtain rfl := Token.word.inj (List.mem_singleton.1 hw)
      exact words_of_forall nonempty letters
  | word nonempty letters _ _ ih =>
      rcases List.mem_cons.1 hw with hw | hw
      · obtain rfl := Token.word.inj hw
        exact words_of_forall nonempty letters
      · exact ih ((List.mem_cons.1 hw).resolve_left nofun)

theorem mem_filterMap_word? {ts : List Token} {w : List Char} :
    w ∈ ts.filterMap Token.word? ↔ .word w ∈ ts := by
  rw [List.mem_filterMap]
  constructor
  · rintro ⟨t, ht, hword⟩
    cases t with
    | blanks s => cases hword
    | word s =>
        cases hword
        exact ht
  · intro h
    exact ⟨_, h, rfl⟩

/-- The words of a text are those among its tokens. -/
theorem words_eq_filterMap (text : List Char) :
    words text = (tokens text).filterMap Token.word? := by
  have hdivided := divided_tokens text
  have hwords := hdivided.words_flatMap (f := Token.text) fun _ => rfl
  rw [flatMap_text_tokens] at hwords
  rw [hwords]
  refine (List.flatMap_congr fun w hw => ?_).trans (List.flatMap_singleton' _)
  exact hdivided.words_of_mem (mem_filterMap_word?.1 hw)

theorem words_of_mem_words {text w : List Char} (h : w ∈ words text) : words w = [w] := by
  rw [words_eq_filterMap] at h
  exact (divided_tokens text).words_of_mem (mem_filterMap_word?.1 h)

/-- A word of a text is a stretch of it. -/
theorem isInfix_of_mem_words {text w : List Char} (h : w ∈ words text) : w <:+: text := by
  rw [words_eq_filterMap, mem_filterMap_word?] at h
  have hinfix := List.infix_of_mem_flatten (List.mem_map_of_mem (f := Token.text) h)
  rwa [← List.flatMap_def, flatMap_text_tokens] at hinfix

/-! ## Expansion -/

variable {h : History} {text : List Char}

/-- **The words of an expansion** are those of what each word stands for. -/
theorem words_expand (h : History) (text : List Char) :
    words (h.expand text) = (words text).flatMap fun w => words (h.expandWord w) := by
  rw [words_eq_filterMap text]
  exact (divided_tokens text).words_flatMap fun _ => rfl

/-- Pieces that are no longer than others, and together as long, are the same one by one. -/
theorem eq_of_flatMap_eq {α β : Type} {f g : α → List β} {xs : List α}
    (hle : ∀ x ∈ xs, (f x).length ≤ (g x).length) (h : xs.flatMap f = xs.flatMap g) :
    ∀ x ∈ xs, f x = g x := by
  have hsum : ∀ {ys : List α}, (∀ y ∈ ys, (f y).length ≤ (g y).length) →
      (ys.flatMap f).length ≤ (ys.flatMap g).length := by
    intro ys hys
    induction ys with
    | nil => exact Nat.le_refl _
    | cons y ys ih =>
        obtain ⟨hy, hrest⟩ := List.forall_mem_cons.1 hys
        simp only [List.flatMap_cons, List.length_append]
        exact Nat.add_le_add hy (ih hrest)
  induction xs with
  | nil => exact fun x hx => absurd hx List.not_mem_nil
  | cons x xs ih =>
      obtain ⟨hx, hrest⟩ := List.forall_mem_cons.1 hle
      rw [List.flatMap_cons, List.flatMap_cons] at h
      have hlength : (f x).length = (g x).length := by
        have htotal := congrArg List.length h
        simp only [List.length_append] at htotal
        have := hsum hrest
        omega
      obtain ⟨hfirst, hlater⟩ := List.append_inj h hlength
      exact List.forall_mem_cons.2 ⟨hfirst, ih hrest hlater⟩

theorem expandWord_ne_self_iff {w : List Char} :
    h.expandWord w ≠ w ↔
      ∃ i entry, reference? w = some i ∧ h.entry? i = some entry ∧ entry ≠ w := by
  unfold expandWord
  cases hfound : (reference? w).bind h.entry? with
  | none =>
      refine ⟨fun hne => absurd rfl hne, ?_⟩
      rintro ⟨i, entry, hi, hentry, _⟩
      rw [hi, Option.bind_some, hentry] at hfound
      cases hfound
  | some entry =>
      obtain ⟨i, hi, hentry⟩ := Option.bind_eq_some_iff.1 hfound
      constructor
      · intro hne
        exact ⟨i, entry, hi, hentry, hne⟩
      · rintro ⟨i', entry', hi', hentry', hne⟩
        rw [hi] at hi'
        cases hi'
        rw [hentry] at hentry'
        cases hentry'
        exact hne

theorem expandWord_of_entry {w entry : List Char} {i : Nat} (hi : reference? w = some i)
    (hentry : h.entry? i = some entry) : h.expandWord w = entry := by
  rw [expandWord, hi, Option.bind_some, hentry, Option.getD_some]

theorem mem_of_entry_eq_some {i : Nat} {entry : List Char} (hentry : h.entry? i = some entry) :
    entry ∈ h.entries := by
  unfold entry? at hentry
  split at hentry
  · cases hentry
  · exact List.mem_of_getElem? hentry

/-- Where no entry is blank, a word stands for something that is not blank. -/
theorem words_expandWord_ne_nil (hentries : ∀ entry ∈ h.entries, isBlankText entry = false)
    {w : List Char} (hw : w ∈ words text) : words (h.expandWord w) ≠ [] := by
  by_cases hsame : h.expandWord w = w
  · rw [hsame, words_of_mem_words hw]
    exact List.cons_ne_nil _ _
  · obtain ⟨i, entry, hi, hentry, _⟩ := expandWord_ne_self_iff.1 hsame
    rw [expandWord_of_entry hi hentry]
    exact words_ne_nil (hentries entry (mem_of_entry_eq_some hentry))

theorem expand_eq_self_of_forall (hwords : ∀ w ∈ words text, h.expandWord w = w) :
    h.expand text = text := by
  have htokens : (tokens text).flatMap h.expandToken = (tokens text).flatMap Token.text := by
    refine List.flatMap_congr fun t ht => ?_
    cases t with
    | blanks s => rfl
    | word w =>
        refine hwords w ?_
        rw [words_eq_filterMap]
        exact mem_filterMap_word?.2 ht
  exact htokens.trans (flatMap_text_tokens text)

/-- **A text is its own expansion just if each of its words is.** -/
theorem expand_eq_self_iff (hentries : ∀ entry ∈ h.entries, isBlankText entry = false) :
    h.expand text = text ↔ ∀ w ∈ words text, h.expandWord w = w := by
  refine ⟨fun hsame => ?_, expand_eq_self_of_forall⟩
  -- there are as many words behind as before, so each stands for one word, which is itself
  have hone : ∀ w ∈ words text, [w] = words (h.expandWord w) := by
    refine eq_of_flatMap_eq (fun w hw => ?_) ?_
    · exact List.length_pos_iff.2 (words_expandWord_ne_nil hentries hw)
    · rw [← words_expand, hsame, List.flatMap_singleton']
  -- then none stands for anything shorter, and all together are as long as they were
  have htokens : ∀ t ∈ tokens text, t.text = h.expandToken t := by
    refine eq_of_flatMap_eq (fun t ht => ?_) ((flatMap_text_tokens text).trans hsame.symm)
    cases t with
    | blanks s => exact Nat.le_refl _
    | word w =>
        have hw : w ∈ words text := by
          rw [words_eq_filterMap]
          exact mem_filterMap_word?.2 ht
        have hmem : w ∈ words (h.expandWord w) := hone w hw ▸ List.mem_singleton_self w
        exact (isInfix_of_mem_words hmem).length_le
  intro w hw
  rw [words_eq_filterMap] at hw
  exact (htokens _ (mem_filterMap_word?.1 hw)).symm

end History

end Promptline
