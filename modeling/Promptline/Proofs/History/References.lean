import Promptline.Proofs.History.Bounds
import Promptline.Proofs.History.Expansion
import Promptline.Proofs.Text.Decimal

set_option autoImplicit false

/-! # What references stand for

Which words refer to entries is said here by the text alone: an exclamation mark, and the number of
an entry in decimal digits, as many as one likes (`Names`). A text is expanded by putting the
entries in the place of the words that name them, and by nothing else (`Rewrites`): every other
word, and every blank character, stays what and where it is, and an entry is not looked at again
once it is in place. Expanding goes through a text stretch by stretch (`expandNext`), and ends
because each round takes a stretch off (`iterate_expandNext`). -/

namespace Promptline

namespace Unicode

/-- A word between two parts of a text: characters none of which is blank, and only blank
    characters right beside them. -/
structure Stands (front word back : List Char) : Prop where
  nonempty : word ≠ []
  letters : ∀ c ∈ word, isBlank c = false
  behind : ∀ b ∈ front.getLast?, isBlank b = true
  ahead : ∀ b ∈ back.head?, isBlank b = true

/-- More may stand in front of a word, if there are blank characters in between. -/
theorem Stands.append_front {front word back : List Char} (h : Stands front word back)
    (more : List Char) {b : Char} {s : List Char} (hblank : ∀ c ∈ b :: s, isBlank c = true) :
    Stands (more ++ (b :: s) ++ front) word back where
  nonempty := h.nonempty
  letters := h.letters
  ahead := h.ahead
  behind := by
    intro c hc
    cases hfront : front.getLast? with
    | some last =>
        rw [List.getLast?_append, hfront] at hc
        exact h.behind c (hfront ▸ hc)
    | none =>
        rw [List.getLast?_eq_none_iff.1 hfront, List.append_nil, List.getLast?_append_cons] at hc
        exact hblank c (List.mem_of_getLast? hc)

/-- What stands between blank characters is a word of the text. -/
theorem Stands.mem_words {front word back : List Char} (h : Stands front word back) :
    word ∈ words (front ++ word ++ back) := by
  have hback : word ∈ words (word ++ back) := by
    cases back with
    | nil =>
        rw [List.append_nil, words_of_forall h.nonempty h.letters]
        exact List.mem_singleton_self word
    | cons b rest =>
        rw [words_append (h.ahead b rfl), words_of_forall h.nonempty h.letters]
        exact List.mem_cons_self
  rcases List.eq_nil_or_concat' front with rfl | ⟨init, b, rfl⟩
  · exact hback
  · have hb : isBlank b = true := h.behind b (by simp)
    rw [List.append_assoc, List.append_assoc, List.singleton_append, words_append hb]
    exact List.mem_append_right _ hback

end Unicode

open Unicode

namespace History

variable {h : History} {text word entry : List Char}

/-! ## Words in their places -/

theorem Divided.exists_stands {ts : List Token} (hts : Divided ts) (hword : .word word ∈ ts) :
    ∃ front back, ts.flatMap Token.text = front ++ word ++ back ∧ Stands front word back := by
  induction hts with
  | nil => exact absurd hword List.not_mem_nil
  | @blanks b s rest hblank _ ih =>
      obtain ⟨front, back, htext, hstands⟩ := ih ((List.mem_cons.1 hword).resolve_left (by simp))
      refine ⟨[] ++ (b :: s) ++ front, back, ?_, hstands.append_front [] hblank⟩
      rw [List.flatMap_cons, htext]
      simp [Token.text]
  | @last w nonempty letters =>
      obtain rfl := Token.word.inj (List.mem_singleton.1 hword)
      exact ⟨[], [], by simp [Token.text], nonempty, letters, by simp, by simp⟩
  | @word w b s rest nonempty letters hblank _ ih =>
      rcases List.mem_cons.1 hword with hfirst | hlater
      · obtain rfl := Token.word.inj hfirst
        refine ⟨[], b :: s ++ rest.flatMap Token.text, by simp [Token.text], nonempty, letters,
          by simp, fun c hc => ?_⟩
        obtain rfl : b = c := Option.some.inj hc
        exact hblank b List.mem_cons_self
      · obtain ⟨front, back, htext, hstands⟩ := ih ((List.mem_cons.1 hlater).resolve_left (by simp))
        refine ⟨w ++ (b :: s) ++ front, back, ?_, hstands.append_front w hblank⟩
        rw [List.flatMap_cons, List.flatMap_cons, htext]
        simp [Token.text]

/-- **The words of a text** are what stands in it between blank characters. -/
theorem mem_words_iff :
    word ∈ words text ↔ ∃ front back, text = front ++ word ++ back ∧ Stands front word back := by
  constructor
  · intro hword
    rw [words_eq_filterMap, mem_filterMap_word?] at hword
    have hplace := (divided_tokens text).exists_stands hword
    rwa [flatMap_text_tokens] at hplace
  · rintro ⟨front, back, rfl, hstands⟩
    exact hstands.mem_words

/-! ## Names of entries -/

/-- Decimal digits that spell a number, with any zeros in front. -/
structure Numeral (digits : List Char) (n : Nat) : Prop where
  nonempty : digits ≠ []
  decimal : ∀ d ∈ digits, d.isDigit = true
  value : Nat.ofDigits 10 (digits.reverse.map fun d => d.toNat - '0'.toNat) = n

/-- A word that names an entry: an exclamation mark, and the number of the entry, counted from
    1. -/
inductive Names (h : History) : List Char → List Char → Prop where
  | intro {digits : List Char} {n : Nat} {entry : List Char} (numeral : Numeral digits n)
      (positive : 1 ≤ n) (found : h.entries[n - 1]? = some entry) : Names h ('!' :: digits) entry

theorem reference?_eq_some_iff {n : Nat} :
    reference? word = some n ↔
      ∃ digits, word = '!' :: digits ∧ Numeral digits n ∧ n < indexBound := by
  constructor
  · intro href
    unfold reference? at href
    split at href
    · next digits =>
        split at href
        · cases href
        · next hnonempty =>
            obtain ⟨hdigits, hn⟩ := Option.ite_none_right_eq_some.1 href
            rw [Bool.and_eq_true, List.all_eq_true, decide_eq_true_eq] at hdigits
            obtain rfl := Option.some.inj hn
            refine ⟨digits, rfl, ⟨?_, hdigits.1, (ofDigitChars_eq_ofDigits digits).symm⟩, hdigits.2⟩
            rwa [List.isEmpty_iff] at hnonempty
    · cases href
  · rintro ⟨digits, rfl, hnumeral, hbound⟩
    have hvalue : Nat.ofDigitChars 10 digits 0 = n :=
      (ofDigitChars_eq_ofDigits digits).trans hnumeral.value
    have hdigits : (digits.all Char.isDigit && n < indexBound) = true := by
      rw [Bool.and_eq_true, List.all_eq_true, decide_eq_true_eq]
      exact ⟨hnumeral.decimal, hbound⟩
    rw [reference?, if_neg (mt List.isEmpty_iff.1 hnumeral.nonempty)]
    dsimp only
    rw [hvalue, if_pos hdigits]

/-- Where machine words can count the entries, a number that no machine word holds is that of no
    entry. -/
theorem names_iff (hlength : h.length < indexBound) :
    h.Names word entry ↔ (reference? word).bind h.entry? = some entry := by
  constructor
  · rintro @⟨digits, n, entry, hnumeral, hpositive, hfound⟩
    have hplace : n - 1 < h.length := (List.getElem?_eq_some_iff.1 hfound).1
    have href : reference? ('!' :: digits) = some n :=
      reference?_eq_some_iff.2 ⟨digits, rfl, hnumeral, by omega⟩
    rw [href, Option.bind_some, entry?, if_neg (by omega), hfound]
  · intro hfound
    obtain ⟨n, href, hentry⟩ := Option.bind_eq_some_iff.1 hfound
    obtain ⟨digits, rfl, hnumeral, _⟩ := reference?_eq_some_iff.1 href
    unfold entry? at hentry
    split at hentry
    · cases hentry
    · next hzero => exact .intro hnumeral (Nat.one_le_iff_ne_zero.2 hzero) hentry

theorem expandWord_of_names (hlength : h.length < indexBound) (hnames : h.Names word entry) :
    h.expandWord word = entry := by
  rw [expandWord, (names_iff hlength).1 hnames, Option.getD_some]

theorem expandWord_of_not_names (hlength : h.length < indexBound)
    (hnone : ∀ entry, ¬ h.Names word entry) : h.expandWord word = word := by
  have hnothing : (reference? word).bind h.entry? = none :=
    Option.eq_none_iff_forall_ne_some.2 fun entry hfound =>
      hnone entry ((names_iff hlength).2 hfound)
  rw [expandWord, hnothing, Option.getD_none]

/-! ## Stretch by stretch -/

theorem expand_blank_cons {b : Char} (hb : isBlank b = true) (rest : List Char) :
    h.expand (b :: rest) = b :: h.expand rest := by
  rw [expand, expand, tokens]
  unfold consToken
  rw [hb]
  cases tokens rest with
  | nil => rfl
  | cons t ts => cases t <;> rfl

theorem expand_blanks_append {s : List Char} (hs : ∀ c ∈ s, isBlank c = true) (rest : List Char) :
    h.expand (s ++ rest) = s ++ h.expand rest := by
  induction s with
  | nil => rfl
  | cons c s ih =>
      obtain ⟨hc, hs⟩ := List.forall_mem_cons.1 hs
      rw [List.cons_append, expand_blank_cons hc, ih hs, List.cons_append]

/-- A character that is not blank goes into the word behind it, if there is one. -/
theorem consToken_letter {c : Char} (hc : isBlank c = false) (ts : List Token) :
    consToken c ts =
      match ts with
      | .word s :: rest => .word (c :: s) :: rest
      | _ => .word [c] :: ts := by
  unfold consToken
  rw [hc]
  cases ts with
  | nil => rfl
  | cons t ts => cases t <;> rfl

/-- A word at the front of a text is its first token. -/
theorem tokens_word_append {rest : List Char} (hword : Stands [] word rest) :
    tokens (word ++ rest) = .word word :: tokens rest := by
  obtain ⟨hnonempty, hletters, _, hahead⟩ := hword
  induction word with
  | nil => exact absurd rfl hnonempty
  | cons c w ih =>
      obtain ⟨hc, hw⟩ := List.forall_mem_cons.1 hletters
      rw [List.cons_append, tokens]
      cases w with
      | nil =>
          -- what follows is nothing, or begins with a blank character
          rw [List.nil_append, consToken_letter hc]
          cases rest with
          | nil => rfl
          | cons b rest =>
              rw [tokens]
              unfold consToken
              rw [hahead b rfl]
              cases tokens rest with
              | nil => rfl
              | cons t ts => cases t <;> rfl
      | cons d w => rw [ih (List.cons_ne_nil d w) hw, consToken_letter hc]

theorem expand_word_append {rest : List Char} (hword : Stands [] word rest) :
    h.expand (word ++ rest) = h.expandWord word ++ h.expand rest := by
  rw [expand, tokens_word_append hword, List.flatMap_cons]
  rfl

/-- One round of expanding: the longest stretch that is blank, or free of blanks, is taken off the
    front of what is left of a text, and what it stands for goes behind what has come out so far. -/
def expandNext (h : History) : List Char × List Char → List Char × List Char
  | ([], out) => ([], out)
  | (c :: rest, out) =>
    ((c :: rest).dropWhile fun d => isBlank d == isBlank c,
      out ++ h.expandWord ((c :: rest).takeWhile fun d => isBlank d == isBlank c))

/-- **One round** leaves less of the text, and changes nothing about what comes out in the end. -/
theorem expandNext_cons (c : Char) (rest out : List Char) :
    ∃ rest' out', h.expandNext (c :: rest, out) = (rest', out') ∧
      rest'.length ≤ rest.length ∧ out' ++ h.expand rest' = out ++ h.expand (c :: rest) := by
  refine ⟨_, _, rfl, ?_, ?_⟩
  · rw [List.dropWhile_cons_of_pos (by simp)]
    exact (List.dropWhile_suffix _).length_le
  · have htext := List.takeWhile_append_dropWhile (p := fun d => isBlank d == isBlank c)
      (l := c :: rest)
    have hpiece : ∀ d ∈ (c :: rest).takeWhile fun d => isBlank d == isBlank c,
        isBlank d = isBlank c := by
      intro d hd
      simpa using List.mem_takeWhile_imp hd
    have hfirst : ((c :: rest).takeWhile fun d => isBlank d == isBlank c) =
        c :: rest.takeWhile fun d => isBlank d == isBlank c :=
      List.takeWhile_cons_of_pos (by simp)
    have hnext : ∀ d ∈ ((c :: rest).dropWhile fun d => isBlank d == isBlank c).head?,
        isBlank d ≠ isBlank c := by
      intro d hd hsame
      have hstop := List.head?_dropWhile_not (fun d => isBlank d == isBlank c) (c :: rest)
      rw [hd] at hstop
      simp [hsame] at hstop
    rw [List.append_assoc, List.append_cancel_left_eq]
    generalize ((c :: rest).takeWhile fun d => isBlank d == isBlank c) = piece,
      ((c :: rest).dropWhile fun d => isBlank d == isBlank c) = tail at *
    rw [← htext]
    cases hc : isBlank c with
    | true =>
        rw [expand_blanks_append fun d hd => (hpiece d hd).trans hc]
        -- an exclamation mark is not blank
        have hmark : c ≠ '!' := by
          rintro rfl
          exact absurd hc (by decide)
        have hnone : reference? piece = none := by
          rw [hfirst, reference?]
          simpa using hmark
        rw [expandWord, hnone]
        rfl
    | false =>
        refine (expand_word_append ⟨?_, fun d hd => (hpiece d hd).trans hc, by simp, ?_⟩).symm
        · rw [hfirst]
          exact List.cons_ne_nil _ _
        · intro d hd
          have := hnext d hd
          rwa [hc, ne_eq, Bool.not_eq_false] at this

/-- **All rounds.** After as many rounds as there are characters, nothing of the text is left. -/
theorem iterate_expandNext (n : Nat) {rest : List Char} (hrest : rest.length ≤ n)
    (out : List Char) : h.expandNext^[n] (rest, out) = ([], out ++ h.expand rest) := by
  induction n generalizing rest out with
  | zero =>
      obtain rfl := List.length_eq_zero_iff.1 (Nat.le_zero.1 hrest)
      exact Prod.ext rfl (List.append_nil out).symm
  | succ n ih =>
      rw [Function.iterate_succ_apply]
      cases rest with
      | nil => exact ih (show ([] : List Char).length ≤ n from Nat.zero_le n) out
      | cons c rest =>
          obtain ⟨rest', out', hround, hshorter, hsame⟩ := h.expandNext_cons c rest out
          rw [hround, ih (Nat.le_trans hshorter (Nat.le_of_succ_le_succ hrest)), hsame]

/-! ## The whole text -/

/-- What a text becomes if the words in it that name entries are replaced by these, and all the rest
    stays in place. -/
inductive Rewrites (h : History) : List Char → List Char → Prop where
  | nothing : Rewrites h [] []
  | blank {b : Char} {rest out : List Char} (blank : isBlank b = true)
      (later : Rewrites h rest out) : Rewrites h (b :: rest) (b :: out)
  | entry {word entry rest out : List Char} (stands : Stands [] word rest)
      (names : h.Names word entry) (later : Rewrites h rest out) :
      Rewrites h (word ++ rest) (entry ++ out)
  | other {word rest out : List Char} (stands : Stands [] word rest)
      (none : ∀ entry, ¬ h.Names word entry) (later : Rewrites h rest out) :
      Rewrites h (word ++ rest) (word ++ out)

theorem Rewrites.eq_expand (hlength : h.length < indexBound) {out : List Char}
    (hrewrites : h.Rewrites text out) : out = h.expand text := by
  induction hrewrites with
  | nothing => rfl
  | blank hb _ ih => rw [expand_blank_cons hb, ih]
  | entry hword hnames _ ih =>
      rw [expand_word_append hword, expandWord_of_names hlength hnames, ih]
  | other hword hnone _ ih =>
      rw [expand_word_append hword, expandWord_of_not_names hlength hnone, ih]

theorem Rewrites.blanks_append {rest out s : List Char} (hrest : h.Rewrites rest out)
    (hs : ∀ c ∈ s, isBlank c = true) : h.Rewrites (s ++ rest) (s ++ out) := by
  induction s with
  | nil => exact hrest
  | cons c s ih =>
      obtain ⟨hc, hs⟩ := List.forall_mem_cons.1 hs
      exact .blank hc (ih hs)

theorem Rewrites.word_append (hlength : h.length < indexBound) {rest out : List Char}
    (hrest : h.Rewrites rest out) (hword : Stands [] word rest) :
    h.Rewrites (word ++ rest) (h.expandWord word ++ out) := by
  by_cases hnames : ∃ entry, h.Names word entry
  · obtain ⟨entry, hnames⟩ := hnames
    rw [expandWord_of_names hlength hnames]
    exact .entry hword hnames hrest
  · rw [not_exists] at hnames
    rw [expandWord_of_not_names hlength hnames]
    exact .other hword hnames hrest

/-- Tokens are rewritten one by one. -/
theorem Divided.rewrites (hlength : h.length < indexBound) {ts : List Token} (hts : Divided ts) :
    h.Rewrites (ts.flatMap Token.text) (ts.flatMap h.expandToken) := by
  induction hts with
  | nil => exact .nothing
  | blanks hblank _ ih => exact ih.blanks_append hblank
  | @last w nonempty letters =>
      exact Rewrites.nothing.word_append hlength ⟨nonempty, letters, by simp, by simp⟩
  | @word w b s rest nonempty letters hblank _ ih =>
      refine (ih.blanks_append hblank).word_append hlength ⟨nonempty, letters, by simp, ?_⟩
      intro c hc
      obtain rfl : b = c := Option.some.inj hc
      exact hblank b List.mem_cons_self

theorem rewrites_expand (hlength : h.length < indexBound) (text : List Char) :
    h.Rewrites text (h.expand text) := by
  have htokens := (divided_tokens text).rewrites hlength
  rwa [flatMap_text_tokens] at htokens

/-- **Expanding references.** For every history that calls lead to, which keeps no more lines than a
    machine word counts, and for every text: going through the text stretch by stretch ends, and
    what comes out is the text with each word that names an entry replaced by the entry, and with
    nothing else changed. It is the text itself just if each word in it that names an entry names
    one that is that word. -/
theorem Bounded.expand_exact {limit : Nat} (hh : h.Bounded limit) (hlimit : limit < indexBound)
    (text : List Char) :
    h.expandNext^[text.length] (text, []) = ([], h.expand text) ∧
      (∀ out, h.Rewrites text out ↔ out = h.expand text) ∧
      (h.expand text = text ↔ ∀ front word back, text = front ++ word ++ back →
        Stands front word back → ∀ entry, h.Names word entry → entry = word) := by
  have hlength : h.length < indexBound := Nat.lt_of_le_of_lt hh.length hlimit
  refine ⟨iterate_expandNext _ (Nat.le_refl _) [], fun out => ⟨fun hout => ?_, ?_⟩, ?_⟩
  · exact hout.eq_expand hlength
  · rintro rfl
    exact rewrites_expand hlength text
  · rw [expand_eq_self_iff hh.nonblank]
    constructor
    · intro hsame front word back htext hstands entry hnames
      have hword : word ∈ words text := mem_words_iff.2 ⟨front, back, htext, hstands⟩
      rw [← expandWord_of_names hlength hnames, hsame word hword]
    · intro hnames word hword
      obtain ⟨front, back, htext, hstands⟩ := mem_words_iff.1 hword
      by_cases hentry : ∃ entry, h.Names word entry
      · obtain ⟨entry, hentry⟩ := hentry
        rw [expandWord_of_names hlength hentry]
        exact hnames front word back htext hstands entry hentry
      · exact expandWord_of_not_names hlength (not_exists.1 hentry)

/-- The second entry looks like a reference itself. It is found with a zero in front of its number,
    and left alone where it was put; there is no ninth entry. -/
theorem expand_exact_two_entries :
    let h := ((empty 10).append ['l', 's']).append ['!', '1']
    let text := ['!', '0', '2', '\u3000', '!', '9']
    h.Bounded 10 ∧ 10 < indexBound ∧ h.expand text = ['!', '1', '\u3000', '!', '9'] ∧
      h.Rewrites text ['!', '1', '\u3000', '!', '9'] ∧ h.Names ['!', '0', '2'] ['!', '1'] ∧
      ∃ front word back entry, text = front ++ word ++ back ∧ Stands front word back ∧
        h.Names word entry ∧ entry ≠ word := by
  intro h text
  have hbounded : h.Bounded 10 := ((bounded_empty 10).append ['l', 's']).append ['!', '1']
  have hlimit : 10 < indexBound := by decide
  obtain ⟨-, hout, hsame⟩ := hbounded.expand_exact hlimit text
  have hexpand : h.expand text = ['!', '1', '\u3000', '!', '9'] := by decide
  have hdigits : ['0', '2'].all Char.isDigit = true := by decide
  have hnames : h.Names ['!', '0', '2'] ['!', '1'] :=
    .intro (n := 2) ⟨by decide, List.all_eq_true.1 hdigits, by decide⟩ (by decide) rfl
  have hchanged : h.expand text ≠ text := by
    rw [hexpand]
    decide
  refine ⟨hbounded, hlimit, hexpand, (hout _).2 hexpand.symm, hnames, ?_⟩
  by_contra hnone
  exact hchanged (hsame.2 fun front word back htext hstands entry hentry =>
    by_contra fun hne => hnone ⟨front, word, back, entry, htext, hstands, hentry, hne⟩)

end History

end Promptline
