import Mathlib.Algebra.GroupWithZero.Nat
import Promptline.Proofs.Unicode.Prefix
import Promptline.Proofs.Unicode.Reading

set_option autoImplicit false

/-! # Widths of clusters

The width of a text is read from its end, and a sequence that is shown as one glyph need not be one
cluster. A text is still no wider than its clusters together (`displayWidth_le_columnsOf`): where a
sequence goes on from one cluster into the one in front of it, nothing is lost.

For this a cluster is read with the text behind it, and by itself. `Ahead` says how the two readings
may differ, and how much the first one has saved; one more character in front keeps it
(`Ahead.goes`), and at the beginning of the cluster nothing is owed (`Ahead.nonneg`). -/

namespace Promptline.Unicode

/-- How many columns clusters take up, each for itself. -/
def columnsOf (cs : List (List Char)) : Nat :=
  (cs.map displayWidth).sum

theorem columnsOf_cons (c : List Char) (cs : List (List Char)) :
    columnsOf (c :: cs) = displayWidth c + columnsOf cs := by
  rw [columnsOf, List.map_cons, List.sum_cons]
  rfl

namespace Width

/-! ## Two readings of a cluster -/

/-- Behind such a character there always begins a cluster. -/
def IsHard (before : Option ClusterClass) : Prop :=
  before = none ∨ before = some .control ∨ before = some .carriageReturn ∨ before = some .lineFeed

/-- A state that is nothing to a character that stays with the one behind it. -/
def Behind.Inert (b : Behind) : Prop :=
  ∀ c, clusterClass c = .prepending → add c b = add c .nothing

/-- A cluster is read from its end, once with the text behind it, and once by itself. Up to a place
    in it, the one reading comes to the first state, the other to the second, and what the one has
    saved over the other is never less than nothing at the beginning of the cluster. -/
inductive Ahead (ctx : Context) : Behind → Behind → Int → Prop where
  | same {b : Behind} {saved : Int} (hsaved : 0 ≤ saved) : Ahead ctx b b saved
  /-- At the end of the cluster, if nothing could join with it. -/
  | hard {b : Behind} {saved : Int} (hsaved : 0 ≤ saved) (hctx : IsHard ctx.before) :
    Ahead ctx b .nothing saved
  /-- The text behind the cluster goes on in it. Regional indicators do so in pairs. -/
  | joining {l r : Behind} {saved : Int} (hsaved : 0 ≤ saved) (hr : r.following = .nothing)
    (hemoji : l.asEmoji = r.asEmoji) (htext : l.asEmoji = false → l.asText = r.asText)
    (hpair : l.following.isJoinedRegional = true →
      ctx.before = some .regional → ctx.oddRegional = false) : Ahead ctx l r saved
  /-- Vowels of Kirat Rai, an even number in one reading and an odd one in the other. -/
  | kirat {even asEmoji asText : Bool} {saved : Int} (hsaved : even.toNat ≤ saved) :
    Ahead ctx ⟨kirat even, asEmoji, asText⟩ ⟨kirat (!even), asEmoji, asText⟩ saved
  | modified {saved : Int} (hsaved : 0 ≤ saved) :
    Ahead ctx (.of .emojiModifier) (.of .emoji) saved
  /-- One regional indicator of a pair was read. -/
  | regional {l : Behind} {saved : Int}
    (hl : l = .of .severalRegional ∧ 0 ≤ saved ∨
      ∃ even first, l = .of (.joinedRegional even first) ∧ (if even then 2 else -2) ≤ saved)
    (hctx : ctx.before = some .prepending ∧ 0 ≤ saved ∨
      ctx.before = some .regional ∧ ctx.oddRegional = true) :
    Ahead ctx l (.of .regional) saved
  /-- In front of it only such characters are left that stay with the one behind them. -/
  | prepended {l r : Behind} {saved : Int} (hsaved : 0 ≤ saved)
    (hctx : ctx.before = some .prepending) (hl : l.Inert) (hr : r.Inert) : Ahead ctx l r saved

/-- What is to hold in front of a character: nothing is lost if the cluster begins there. -/
def Goes (ctx : Context) (c : Char) (left right : Int × Behind) (saved : Int) : Prop :=
  (ctx.breaksBefore (clusterClass c) = true → 0 ≤ saved + right.1 - left.1) ∧
    (ctx.breaksBefore (clusterClass c) = false →
      Ahead ctx left.2 right.2 (saved + right.1 - left.1))

section Step

variable {ctx : Context} {c : Char} {saved m m' : Int}

theorem goes_of_ahead {left right : Int × Behind} (h : 0 ≤ saved + right.1 - left.1)
    (hahead : Ahead ctx left.2 right.2 (saved + right.1 - left.1)) :
    Goes ctx c left right saved :=
  ⟨fun _ => h, fun _ => hahead⟩

theorem goes_same {b : Behind} (h : m ≤ saved + m') : Goes ctx c (m, b) (m', b) saved :=
  goes_of_ahead (by dsimp only; omega) (.same (by omega))

theorem joining_of {l r : Behind} (hsaved : 0 ≤ saved) (hr : r.following = .nothing)
    (hemoji : l.asEmoji = r.asEmoji) (htext : l.asEmoji = false → l.asText = r.asText)
    (hnone : l.following.isJoinedRegional = false) : Ahead ctx l r saved :=
  .joining hsaved hr hemoji htext fun h => absurd (hnone.symm.trans h) Bool.false_ne_true

theorem goes_joining {f : Following} (h : m ≤ saved + m') (hf : f.isJoinedRegional = false) :
    Goes ctx c (m, .of f) (m', .nothing) saved :=
  goes_of_ahead (by dsimp only; omega) (joining_of (by omega) rfl rfl (fun _ => rfl) hf)

/-- A character that offers nothing by itself. -/
theorem goes_nothing (hsaved : 0 ≤ saved) (hoffers : offers c.toNat = .nothing) {f : Following}
    (hm : m ≤ ownWidth c.toNat) (hf : f.isJoinedRegional = false) :
    Goes ctx c (m, .of f) (↑(ownWidth c.toNat), offers c.toNat) saved := by
  rw [hoffers]
  exact goes_joining (by omega) hf

/-- Only a character that stays with the one behind it is in a cluster in front of a letter. -/
theorem breaksBefore_other (h : ctx.breaksBefore .other = false) :
    ctx.before = some .prepending := by
  unfold Context.breaksBefore at h
  cases hbefore : ctx.before with
  | none => rw [hbefore] at h; cases h
  | some before =>
      rw [hbefore] at h
      cases before <;> first | rfl | cases h

theorem breaksBefore_regional (h : ctx.breaksBefore .regional = false) :
    ctx.before = some .prepending ∨ ctx.before = some .regional ∧ ctx.oddRegional = true := by
  unfold Context.breaksBefore at h
  cases hbefore : ctx.before with
  | none => rw [hbefore] at h; cases h
  | some before =>
      rw [hbefore] at h
      cases before with
      | prepending => exact Or.inl rfl
      | regional => exact Or.inr ⟨rfl, by simpa using h⟩
      | _ => cases h

theorem breaksBefore_second (h : ctx.before = some .regional ∧ ctx.oddRegional = true) :
    ctx.breaksBefore .regional = false := by
  unfold Context.breaksBefore
  rw [h.1, h.2]
  rfl

/-! ### What was read goes on behind the cluster -/

/-- Regional indicators behind the cluster, and one in it. -/
theorem goes_regional (hsaved : 0 ≤ saved) (hn : isRegional c.toNat = true) {f : Following}
    (hf : f = .severalRegional ∨ f = .joinedRegional false true) :
    Goes ctx c (1, .of f) (↑(ownWidth c.toNat), offers c.toNat) saved := by
  rw [ownWidth_of_isRegional hn, offers_of_isRegional hn]
  refine ⟨fun _ => by dsimp only; omega, fun hbreak => ?_⟩
  rw [clusterClass_of_isRegional hn] at hbreak
  refine .regional ?_ ((breaksBefore_regional hbreak).imp_left fun h => ⟨h, by dsimp only; omega⟩)
  rcases hf with rfl | rfl
  · exact Or.inl ⟨rfl, by dsimp only; omega⟩
  · exact Or.inr ⟨false, true, rfl, by simp; omega⟩

/-- A regional indicator in front of others that belong to an emoji: it is the second of a pair. -/
theorem goes_joinedRegional (hsaved : 0 ≤ saved) (hn : isRegional c.toNat = true)
    (hpair : ctx.before = some .regional ∧ ctx.oddRegional = true) (even : Bool) :
    Goes ctx c (if even then (3, .of (.joinedRegional false false))
        else (-1, .of (.joinedRegional true false)))
      (↑(ownWidth c.toNat), offers c.toNat) saved := by
  rw [ownWidth_of_isRegional hn, offers_of_isRegional hn]
  refine ⟨fun hbreak => ?_, fun _ => .regional (Or.inr ?_) (Or.inr hpair)⟩
  · rw [clusterClass_of_isRegional hn, breaksBefore_second hpair] at hbreak
    cases hbreak
  · cases even with
    | false => exact ⟨true, false, rfl, by simp; omega⟩
    | true => exact ⟨false, false, rfl, by simp; omega⟩

/-- Characters that stay with the one behind them are in none of the sequences that regional
    indicators and Tifinagh consonants make. -/
theorem inert_of {f : Following}
    (hjoins : ∀ n, isRegional n = false → isTifinaghConsonant n = false → n ≠ 0x2D7F →
      n ≠ 0x200D → joins? n f = none) : (Behind.of f).Inert := by
  intro c hc
  have hplace := place_of_prepending hc
  have hbeyond : 0xA0 < c.toNat := by omega
  have hmark : isUndisplayedMark c.toNat = false := by
    simp [isUndisplayedMark]
    omega
  have hjoin : joins? c.toNat f = none := by
    refine hjoins c.toNat ?_ ?_ (by omega) (by omega)
    · simp [isRegional]
      omega
    · simp [isTifinaghConsonant]
      omega
  have hreact : react c.toNat f = (↑(ownWidth c.toNat), offers c.toNat) := by
    rw [react_of_not_mark hmark, hjoin]
    rfl
  rw [add_of hbeyond (by omega) (by omega), hreact]
  exact (add_of hbeyond (by omega) (by omega) .nothing).symm

/-- A consonant that joins with one behind the cluster; only by itself it would take one in front of
    it. -/
theorem goes_tifinagh (hsaved : 0 ≤ saved) (hn : isTifinaghConsonant c.toNat = true) (hm : m ≤ 0) :
    Goes ctx c (m, .nothing) (↑(ownWidth c.toNat), offers c.toNat) saved := by
  have hown : (0 : Int) ≤ ownWidth c.toNat := Int.natCast_nonneg _
  rw [offers_of_isTifinaghConsonant hn]
  refine ⟨fun _ => by dsimp only; omega, fun hbreak => ?_⟩
  rw [clusterClass_of_isTifinaghConsonant hn] at hbreak
  exact .prepended (by dsimp only; omega) (breaksBefore_other hbreak)
    (fun _ _ => rfl) (inert_of fun n _ _ hjoiner _ => by rw [joins?, if_neg hjoiner]; rfl)

/-- Where emoji and regional indicators stand behind the cluster. -/
theorem goes_emoji (hsaved : 0 ≤ saved) {f : Following} (hf : f.isLigature = false)
    (hpair : f.isJoinedRegional = true →
      isRegional c.toNat = true → ctx.before = some .regional ∧ ctx.oddRegional = true) :
    Goes ctx c ((joins? c.toNat f).getD (↑(ownWidth c.toNat), offers c.toNat))
      (↑(ownWidth c.toNat), offers c.toNat) saved := by
  have hown : (0 : Int) ≤ ownWidth c.toNat := Int.natCast_nonneg _
  have hstays : Goes ctx c (↑(ownWidth c.toNat), offers c.toNat)
      (↑(ownWidth c.toNat), offers c.toNat) saved := goes_same (by omega)
  have hjoiner : c.toNat = 0x200D → offers c.toNat = .nothing := fun hn =>
    (tables).joining _ (by simp [hn])
  cases f with
  | nothing | lineFeed | keycap => exact hstays
  | emoji =>
      rw [joins?]
      split
      · next hn => exact goes_nothing hsaved (hjoiner hn) hown rfl
      · exact hstays
  | emojiModifier =>
      rw [joins?]
      split
      · next hn =>
          rcases offers_of_modifierBase hn with hoffers | hoffers
          · exact goes_nothing hsaved hoffers hown rfl
          · rw [hoffers]
            exact goes_of_ahead (by dsimp only [Option.getD]; omega)
              (.modified (by dsimp only [Option.getD]; omega))
      split
      · next hn => exact goes_nothing hsaved (hjoiner hn) hown rfl
      · exact hstays
  | regional =>
      rw [joins?]
      split
      · next hn => exact goes_regional hsaved hn (Or.inl rfl)
      · exact hstays
  | severalRegional =>
      rw [joins?]
      split
      · next hn => exact goes_regional hsaved hn (Or.inl rfl)
      split
      · next hn => exact goes_nothing hsaved (hjoiner hn) hown rfl
      · exact hstays
  | joinedEmoji =>
      rw [joins?]
      split
      · next hn => exact goes_nothing hsaved ((tables).joining _ (by simp [hn])) hown rfl
      split
      · next hn => exact goes_regional hsaved hn (Or.inr rfl)
      split
      · next hn =>
          rw [offers_of_isEmojiModifier hn]
          exact goes_same (by omega)
      split
      · next hn => exact goes_nothing hsaved ((tables).joining _ (by simp [hn])) hown rfl
      split
      · next hregional hmodifier _ hn =>
          rw [offers_of_presentation hn (Bool.eq_false_iff.2 hregional)
            (Bool.eq_false_iff.2 hmodifier)]
          exact goes_same (by omega)
      · exact hstays
  | joinedRegional even first =>
      rw [joins?]
      split
      · next hn =>
          have hgoes := goes_joinedRegional hsaved hn (hpair rfl hn) even
          cases even <;> exact hgoes
      split
      · next hn =>
          rw [Bool.and_eq_true, decide_eq_true_eq] at hn
          exact goes_nothing hsaved (hjoiner hn.1) hown rfl
      · exact hstays
  | tagEnd letters digits =>
      rw [joins?]
      split
      · next hn =>
          simp only [Bool.and_eq_true] at hn
          exact goes_nothing hsaved (offers_of_isTag (Or.inl hn.1.1)) hown rfl
      split
      · next hn =>
          simp only [Bool.and_eq_true] at hn
          exact goes_nothing hsaved (offers_of_isTag (Or.inr hn.1.1)) hown rfl
      split
      · next hn =>
          rw [Bool.and_eq_true, decide_eq_true_eq] at hn
          rw [hn.1, (tables).flag]
          exact goes_same (by omega)
      · exact hstays
  | _ => cases hf

/-- Where a ligature may stand behind the cluster. -/
theorem goes_ligature (hsaved : 0 ≤ saved) (hemoji : c.toNat ≠ 0xFE0F) (htext : c.toNat ≠ 0xFE0E)
    {f : Following} (hf : f.isLigature = true) :
    Goes ctx c ((joins? c.toNat f).getD (↑(ownWidth c.toNat), offers c.toNat))
      (↑(ownWidth c.toNat), offers c.toNat) saved := by
  have hown : (0 : Int) ≤ ownWidth c.toNat := Int.natCast_nonneg _
  have hstays : Goes ctx c (↑(ownWidth c.toNat), offers c.toNat)
      (↑(ownWidth c.toNat), offers c.toNat) saved := goes_same (by omega)
  cases f with
  | alef =>
      rw [joins?]
      split
      · next hn => exact goes_nothing hsaved (offers_of_joiningLam hn) hown rfl
      split
      · next hn =>
          rw [Bool.and_eq_true, decide_eq_true_eq] at hn
          exact goes_nothing hsaved (offers_of_ownWidth_eq_zero hn.1 htext hemoji) hown rfl
      · exact hstays
  | lamed joined | buginese joined | oldTurkic joined =>
      cases joined with
      | false => exact hstays
      | true =>
          rw [joins?]
          split
          · next hn => exact goes_nothing hsaved ((tables).joining _ (by simp [hn])) hown rfl
          · exact hstays
  | bugineseVowel | khmerLetter =>
      rw [joins?]
      split
      · next hn => exact goes_nothing hsaved ((tables).joining _ (by simp [hn])) (by omega) rfl
      · exact hstays
  | tifinagh joined =>
      rw [joins?]
      split
      · next hn =>
          have hwidth := (tables).narrow c.toNat (by simp [hn])
          exact goes_nothing hsaved ((tables).joining _ (by simp [hn])) (by omega) rfl
      split
      · next hn =>
          rw [Bool.and_eq_true] at hn
          exact goes_tifinagh hsaved hn.2 (Int.le_refl 0)
      · exact hstays
  | tifinaghJoiner =>
      rw [joins?]
      split
      · next hn => exact goes_tifinagh hsaved hn (by decide)
      · exact hstays
  | lisuTone =>
      rw [joins?]
      split
      · next hn => exact goes_nothing hsaved (offers_of_lisuTone hn) hown rfl
      · exact hstays
  | kiratAi =>
      rw [joins?]
      split
      · next hn => exact goes_nothing hsaved ((tables).joining _ (by simp [hn])) hown rfl
      · exact hstays
  | kiratE =>
      rw [joins?]
      split
      · next hn => exact goes_nothing hsaved ((tables).joining _ (by simp [hn])) hown rfl
      split
      · next hn =>
          -- behind the cluster is an odd number of vowels, so the next one saves its width
          rw [(tables).narrow c.toNat (by simp [hn]), hn, (tables).kirat.1]
          exact goes_of_ahead (by dsimp only [Option.getD]; omega)
            (@Ahead.kirat ctx true false false _ (by simp; omega))
      split
      · next hn =>
          rw [(tables).narrow c.toNat (by simp [hn]), hn, (tables).kirat.2]
          exact goes_of_ahead (by dsimp only [Option.getD]; omega)
            (@Ahead.kirat ctx false false false _ (by simpa using hsaved))
      split
      · next hn => exact goes_nothing hsaved ((tables).joining _ (by simp [hn])) hown rfl
      · exact hstays
  | _ => cases hf

/-- **What stands behind the cluster goes on in it**, or it does not. -/
theorem goes_react (hsaved : 0 ≤ saved) (hemoji : c.toNat ≠ 0xFE0F) (htext : c.toNat ≠ 0xFE0E)
    {f : Following} (hpair : f.isJoinedRegional = true →
      isRegional c.toNat = true → ctx.before = some .regional ∧ ctx.oddRegional = true) :
    Goes ctx c (react c.toNat f) (↑(ownWidth c.toNat), offers c.toNat) saved := by
  have hown : (0 : Int) ≤ ownWidth c.toNat := Int.natCast_nonneg _
  unfold react
  split
  · next hjoiner =>
      rw [Bool.and_eq_true, decide_eq_true_eq] at hjoiner
      exact goes_nothing hsaved ((tables).joining _ (by simp [hjoiner.2])) hown
        (Following.isJoinedRegional_of_isTransparent hjoiner.1).2
  split
  · next hmark =>
      rw [Bool.and_eq_true] at hmark
      exact goes_nothing hsaved (offers_of_undisplayed hmark.2 htext hemoji) hown
        (Following.isJoinedRegional_of_isTransparent hmark.1).1
  cases hf : f.isLigature with
  | false => exact goes_emoji hsaved hf hpair
  | true => exact goes_ligature hsaved hemoji htext hf

/-! ### Selectors, and characters of Latin -/

/-- **One character in two readings** whose states have the same selectors. What is left to show is
    what becomes of the states behind a selector, and what the character makes of what else stands
    behind it. -/
theorem goes_add (hsaved : 0 ≤ saved) {l r : Behind} (hemoji : l.asEmoji = r.asEmoji)
    (htext : l.asEmoji = false → l.asText = r.asText)
    (hjoined : r.following ≠ .joinedEmoji ∧ r.following ≠ .keycap ∧ r.following ≠ .lineFeed)
    (hselectEmoji : Ahead ctx l.unselected.selectEmoji r.unselected.selectEmoji saved)
    (hselectText : Ahead ctx l.unselected.selectText r.unselected.selectText saved)
    (hreact : c.toNat ≠ 0xFE0F → c.toNat ≠ 0xFE0E →
      Goes ctx c (react c.toNat l.unselected.following) (react c.toNat r.unselected.following)
        saved) : Goes ctx c (add c l) (add c r) saved := by
  by_cases hselected : l.asEmoji = true ∧ presentationBase.contains c.toNat = true
  · rw [add_selected hselected.1 hselected.2, add_selected (hemoji ▸ hselected.1) hselected.2,
      if_neg (not_or.2 ⟨hjoined.1, hjoined.2.1⟩)]
    exact goes_same (by split <;> omega)
  have hplain : l.asEmoji = true → presentationBase.contains c.toNat = false := fun h =>
    Bool.eq_false_iff.2 fun hbase => hselected ⟨h, hbase⟩
  have hplain' : r.asEmoji = true → presentationBase.contains c.toNat = false := hemoji ▸ hplain
  by_cases hlatin : c.toNat ≤ 0xA0
  · obtain ⟨hl, hle, -⟩ := add_latin hlatin hplain
    obtain ⟨hr, -, hone⟩ := add_latin hlatin hplain'
    have hfeed : r.unselected ≠ .of .lineFeed := fun h => by
      have hfollowing : r.unselected.following = .lineFeed := congrArg Behind.following h
      rcases r.following_unselected with hsame | hnothing
      · exact hjoined.2.2 (hsame.symm.trans hfollowing)
      · cases hnothing.symm.trans hfollowing
    rw [← Prod.eta (add c l), ← Prod.eta (add c r), hl, hr]
    exact goes_same (by rw [hone hfeed]; omega)
  rw [Nat.not_le] at hlatin
  rw [add_beyond hlatin hplain, add_beyond hlatin hplain']
  by_cases hn : c.toNat = 0xFE0F
  · rw [hn, addBeyondLatin_emoji, addBeyondLatin_emoji]
    exact goes_of_ahead (by simpa using hsaved) (by simpa using hselectEmoji)
  by_cases hn' : c.toNat = 0xFE0E
  · rw [hn', addBeyondLatin_text, addBeyondLatin_text]
    exact goes_of_ahead (by simpa using hsaved) (by simpa using hselectText)
  -- a character that a selector makes narrow takes the selector for emoji as well
  have hnarrow : narrowsAsText c.toNat = true → l.asEmoji = false := by
    intro h
    unfold narrowsAsText at h
    rw [Bool.and_eq_true, Bool.and_eq_true] at h
    exact Bool.eq_false_iff.2 fun hselects => hselected ⟨hselects, h.1.1⟩
  have hsame : narrowsAsText c.toNat = true → l.unselected.asText = r.unselected.asText := by
    intro h
    unfold Behind.unselected
    rw [← hemoji, hnarrow h]
    exact htext (hnarrow h)
  by_cases hnarrows : narrowsAsText c.toNat = true ∧ r.unselected.asText = true
  · rw [addBeyondLatin_narrow hn hn' ((hsame hnarrows.1).trans hnarrows.2) hnarrows.1,
      addBeyondLatin_narrow hn hn' hnarrows.2 hnarrows.1]
    exact goes_same (by omega)
  · rw [addBeyondLatin_eq_react hn hn' l.asEmoji_unselected,
      addBeyondLatin_eq_react hn hn' r.asEmoji_unselected]
    · exact hreact hn hn'
    · exact fun h => Bool.eq_false_iff.2 fun hnarrow' => hnarrows ⟨hnarrow', h⟩
    · exact fun h => Bool.eq_false_iff.2 fun hnarrow' =>
        hnarrows ⟨hnarrow', (hsame hnarrow').symm.trans h⟩

/-! ### One more character -/

/-- Contexts count regional indicators only right behind them. -/
def Counts (ctx : Context) : Prop :=
  ctx.oddRegional = true → ctx.before = some .regional

theorem counts_start : Counts .start :=
  nofun

theorem counts_next (ctx : Context) (c : Char) : Counts (ctx.next c) := by
  intro hodd
  have hclass : clusterClass c = .regional := by
    have h : (clusterClass c == .regional && !ctx.oddRegional) = true := hodd
    rw [Bool.and_eq_true, beq_iff_eq] at h
    exact h.1
  exact congrArg some hclass

/-- The first regional indicator of a pair is in front of the second one. -/
theorem second_of_next (hctx : Counts ctx) (hn : isRegional c.toNat = true)
    (hodd : (ctx.next c).oddRegional = false) :
    ctx.before = some .regional ∧ ctx.oddRegional = true := by
  have hclass := clusterClass_of_isRegional hn
  have h : (clusterClass c == .regional && !ctx.oddRegional) = false := hodd
  rw [hclass] at h
  have hctx' : ctx.oddRegional = true := by simpa using h
  exact ⟨hctx hctx', hctx'⟩

theorem joining_selectEmoji {l r : Behind} (hsaved : 0 ≤ saved)
    (hr : r.following = .nothing) : Ahead ctx l.selectEmoji r.selectEmoji saved := by
  rw [Behind.selectEmoji_of_nothing hr]
  unfold Behind.selectEmoji
  split
  · next hligature =>
      exact joining_of hsaved rfl rfl (fun h => by cases h)
        (Following.isJoinedRegional_of_isLigature hligature)
  · split
    · next hjoined =>
        exact joining_of hsaved rfl rfl (fun _ => rfl) (congrArg _ hjoined)
    · next hkeycap =>
        exact joining_of hsaved rfl rfl (fun _ => rfl) (congrArg _ hkeycap)
    · exact .same hsaved

theorem joining_selectText {l r : Behind} (hsaved : 0 ≤ saved) (hl : l.asEmoji = false)
    (hr : r.following = .nothing) : Ahead ctx l.selectText r.selectText saved := by
  rw [Behind.selectText_of_nothing hr]
  unfold Behind.selectText
  split
  · next hligature =>
      exact joining_of hsaved rfl hl (fun _ => rfl)
        (Following.isJoinedRegional_of_isLigature hligature)
  · exact .same hsaved

/-- **The text behind the cluster goes on**, or it does not. -/
theorem goes_of_joining (hctx : Counts ctx) (hsaved : 0 ≤ saved) {l r : Behind}
    (hr : r.following = .nothing) (hemoji : l.asEmoji = r.asEmoji)
    (htext : l.asEmoji = false → l.asText = r.asText)
    (hpair : l.following.isJoinedRegional = true →
      (ctx.next c).before = some .regional → (ctx.next c).oddRegional = false) :
    Goes ctx c (add c l) (add c r) saved := by
  have hr' : r.unselected.following = .nothing := by
    rcases r.following_unselected with hsame | hnothing
    · exact hsame.trans hr
    · exact hnothing
  refine goes_add hsaved hemoji htext (by rw [hr]; decide)
    (joining_selectEmoji hsaved hr')
    (joining_selectText hsaved l.asEmoji_unselected hr') fun hn hn' => ?_
  rw [hr', react_nothing]
  refine goes_react hsaved hn hn' fun hf hregional => ?_
  have hf' : l.following.isJoinedRegional = true := by
    rcases l.following_unselected with hsame | hnothing
    · rwa [hsame] at hf
    · rw [hnothing] at hf
      cases hf
  exact second_of_next hctx hregional
    (hpair hf' (congrArg some (clusterClass_of_isRegional hregional)))

/-- **Vowels of Kirat Rai join in pairs**, of which the two readings are at different places. -/
theorem goes_kirat {even asEmoji asText : Bool} (hsaved : even.toNat ≤ saved) :
    Goes ctx c (add c ⟨kirat even, asEmoji, asText⟩) (add c ⟨kirat (!even), asEmoji, asText⟩)
      saved := by
  have hpaired : (even.toNat : Int) + (!even).toNat = 1 := by cases even <;> rfl
  have hligature : ∀ even, (kirat even).isLigature = true := fun even => by cases even <;> rfl
  have hunselected : ∀ even, (⟨kirat even, asEmoji, asText⟩ : Behind).unselected =
      ⟨kirat even, false, asText⟩ := fun even =>
    Behind.unselected_of_isLigature (hligature even) _ _
  have hselectEmoji : ∀ even, (⟨kirat even, false, asText⟩ : Behind).selectEmoji =
      ⟨kirat even, true, asText⟩ := fun even => if_pos (hligature even)
  have hselectText : ∀ even, (⟨kirat even, false, asText⟩ : Behind).selectText =
      ⟨kirat even, false, true⟩ := fun even => if_pos (hligature even)
  have hjoined : ∀ even, kirat even ≠ .joinedEmoji ∧ kirat even ≠ .keycap ∧
      kirat even ≠ .lineFeed := by decide
  refine goes_add (by omega) rfl (fun _ => rfl) (hjoined _) ?_ ?_ fun _ _ => ?_
  · rw [hunselected, hunselected, hselectEmoji, hselectEmoji]
    exact .kirat hsaved
  · rw [hunselected, hunselected, hselectText, hselectText]
    exact .kirat hsaved
  rw [hunselected, hunselected]
  cases hmark : isUndisplayedMark c.toNat with
  | true =>
      have hreact : ∀ even, react c.toNat (kirat even) = (0, .of (kirat even)) := fun even =>
        react_of_mark (by cases even <;> rfl) (by cases even <;> rfl) hmark
      rw [hreact, hreact]
      exact goes_of_ahead (by dsimp only; omega) (.kirat (by dsimp only; omega))
  | false =>
      rw [react_kirat hmark, react_kirat hmark]
      split
      · exact goes_same (by omega)
      split
      · exact goes_of_ahead (by dsimp only; omega) (.kirat (by dsimp only; omega))
      split
      · exact goes_of_ahead (by dsimp only; omega) (.kirat (by dsimp only; omega))
      split
      · exact goes_same (by omega)
      · exact goes_same (by omega)

/-- An emoji that takes a modifier, with a modified one behind the cluster. -/
theorem goes_modified (hsaved : 0 ≤ saved) :
    Goes ctx c (add c (.of .emojiModifier)) (add c (.of .emoji)) saved := by
  have hown : (0 : Int) ≤ ownWidth c.toNat := Int.natCast_nonneg _
  refine goes_add hsaved rfl (fun _ => rfl) (by decide) (.same hsaved) (.same hsaved) fun _ _ => ?_
  show Goes ctx c ((joins? c.toNat .emojiModifier).getD _) ((joins? c.toNat .emoji).getD _) saved
  rw [joins?, joins?]
  split
  · next hn =>
      have hjoiner : c.toNat ≠ 0x200D := fun heq => by
        have hplace := inEmoji_modifierBase hn
        unfold InEmoji at hplace
        omega
      rw [if_neg hjoiner]
      rcases offers_of_modifierBase hn with hoffers | hoffers
      · rw [hoffers]
        exact goes_joining (by omega) rfl
      · rw [hoffers]
        exact goes_of_ahead (by dsimp only [Option.getD]; omega)
          (.modified (by dsimp only [Option.getD]; omega))
  · split
    · exact goes_same (by omega)
    · exact goes_same (by omega)

/-! ### Pairs of regional indicators -/

theorem inert_regional : (Behind.of .regional).Inert :=
  inert_of fun n hn _ _ _ => by rw [joins?, hn]; rfl

theorem inert_severalRegional : (Behind.of .severalRegional).Inert :=
  inert_of fun n hn _ _ hjoiner => by rw [joins?, hn, if_neg Bool.false_ne_true, if_neg hjoiner]

theorem inert_joinedRegional (even first : Bool) :
    (Behind.of (.joinedRegional even first)).Inert :=
  inert_of fun n hn _ _ hjoiner => by
    rw [joins?, hn, if_neg Bool.false_ne_true, if_neg]
    rw [Bool.and_eq_true, decide_eq_true_eq]
    exact fun h => hjoiner h.1

/-- The first regional indicator of a pair. Only by itself it joins with the second one. -/
theorem goes_first {l : Behind} (hn : isRegional c.toNat = true) (hodd : ctx.oddRegional = false)
    (hl : l = .of .severalRegional ∧ 0 ≤ saved ∨
      ∃ even first, l = .of (.joinedRegional even first) ∧ (if even then 2 else -2) ≤ saved) :
    Goes ctx c (add c l) (add c (.of .regional)) saved := by
  have hadd : ∀ f : Following, add c (.of f) = react c.toNat f := by
    have hin := hn
    simp only [isRegional, Bool.and_eq_true, decide_eq_true_eq] at hin
    exact add_of (by omega) (by omega) (by omega)
  have hr : add c (.of .regional) = (1, .of .severalRegional) := by
    rw [hadd, react_of_not_transparent rfl, joins?, if_pos hn]
    rfl
  rw [hr]
  rcases hl with ⟨rfl, hsaved⟩ | ⟨even, first, rfl, hsaved⟩
  · rw [hadd, react_of_not_transparent rfl, joins?, if_pos hn]
    exact goes_same (by omega)
  · have hprepended : ctx.breaksBefore (clusterClass c) = false →
        ctx.before = some .prepending := fun hbreak => by
      rw [clusterClass_of_isRegional hn] at hbreak
      exact (breaksBefore_regional hbreak).resolve_right fun h => by
        rw [hodd] at h
        cases h.2
    rw [hadd, react_of_not_transparent rfl, joins?, if_pos hn]
    cases even with
    | false =>
        exact ⟨fun _ => by simp at hsaved ⊢; omega, fun hbreak =>
          .prepended (by simp at hsaved ⊢; omega) (hprepended hbreak) (inert_joinedRegional _ _)
            inert_severalRegional⟩
    | true =>
        exact ⟨fun _ => by simp at hsaved ⊢; omega, fun hbreak =>
          .prepended (by simp at hsaved ⊢; omega) (hprepended hbreak) (inert_joinedRegional _ _)
            inert_severalRegional⟩

/-- In front of the second regional indicator of a pair is the first one, or none. -/
theorem goes_of_regional {l : Behind}
    (hl : l = .of .severalRegional ∧ 0 ≤ saved ∨
      ∃ even first, l = .of (.joinedRegional even first) ∧ (if even then 2 else -2) ≤ saved)
    (hctx : (ctx.next c).before = some .prepending ∧ 0 ≤ saved ∨
      (ctx.next c).before = some .regional ∧ (ctx.next c).oddRegional = true) :
    Goes ctx c (add c l) (add c (.of .regional)) saved := by
  rcases hctx with ⟨hbefore, hsaved⟩ | ⟨hbefore, hodd⟩
  · have hc : clusterClass c = .prepending := Option.some.inj hbefore
    have hadd : add c l = add c .nothing := by
      rcases hl with ⟨rfl, -⟩ | ⟨even, first, rfl, -⟩
      · exact inert_severalRegional c hc
      · exact inert_joinedRegional even first c hc
    rw [hadd, inert_regional c hc]
    exact goes_same (by omega)
  · have hc : clusterClass c = .regional := Option.some.inj hbefore
    have hfirst : (clusterClass c == .regional && !ctx.oddRegional) = true := hodd
    rw [hc] at hfirst
    exact goes_first (isRegional_of_clusterClass hc) (by simpa using hfirst) hl

/-! ### Controls -/

/-- Behind a control begins a cluster, so it is read with nothing that is there. -/
theorem goes_control (hsaved : 0 ≤ saved) (hbeyond : 0xA0 < c.toNat)
    (hcontrol : clusterClass c = .control) (b : Behind) :
    Goes ctx c (add c b) (add c .nothing) saved := by
  have hbase := not_presentationBase_of_control (Or.inl hcontrol)
  have hnarrow : narrowsAsText c.toNat = false := by
    unfold narrowsAsText
    rw [hbase]
    rfl
  obtain ⟨hemoji, htext⟩ := not_or.1 fun hn : c.toNat = 0xFE0F ∨ c.toNat = 0xFE0E => by
    rw [clusterClass_of_selector hn] at hcontrol
    cases hcontrol
  have hadd : ∀ b : Behind, add c b = react c.toNat b.unselected.following := fun b => by
    rw [add_beyond hbeyond fun _ => hbase,
      addBeyondLatin_eq_react hemoji htext b.asEmoji_unselected fun _ => hnarrow]
  have hregional : isRegional c.toNat ≠ true := fun h => by
    rw [clusterClass_of_isRegional h] at hcontrol
    cases hcontrol
  rw [hadd b, hadd .nothing]
  exact goes_react hsaved hemoji htext fun _ h => absurd h hregional

/-- A control or the end of a line, with whatever behind it. -/
theorem goes_hard (hsaved : 0 ≤ saved) (hhard : IsHard (ctx.next c).before) (b : Behind) :
    Goes ctx c (add c b) (add c .nothing) saved := by
  have hclass : clusterClass c = .control ∨ clusterClass c = .carriageReturn ∨
      clusterClass c = .lineFeed := by
    rcases hhard with h | h | h | h
    · cases h
    · exact Or.inl (Option.some.inj h)
    · exact Or.inr (Or.inl (Option.some.inj h))
    · exact Or.inr (Or.inr (Option.some.inj h))
  have hbase := not_presentationBase_of_control hclass
  by_cases hlatin : c.toNat ≤ 0xA0
  · have hplain : ∀ b : Behind, b.asEmoji = true → presentationBase.contains c.toNat = false :=
      fun _ _ => hbase
    obtain ⟨hl, hle, -⟩ := add_latin hlatin (hplain b)
    obtain ⟨hr, -, hone⟩ := add_latin hlatin (hplain .nothing)
    rw [← Prod.eta (add c b), ← Prod.eta (add c .nothing), hl, hr]
    exact goes_same (by rw [hone (by decide)]; omega)
  · refine goes_control hsaved (Nat.not_le.1 hlatin) (hclass.resolve_right fun h => hlatin ?_) b
    rcases h with h | h
    · rw [carriageReturn_of_clusterClass h]
      decide
    · rw [lineFeed_of_clusterClass h]
      decide

/-! ### All characters -/

/-- **One more character in front** of two readings of a cluster. -/
theorem Ahead.goes (hctx : Counts ctx) {l r : Behind} (h : Ahead (ctx.next c) l r saved) :
    Goes ctx c (add c l) (add c r) saved := by
  cases h with
  | same hsaved => exact goes_same (by omega)
  | hard hsaved hhard => exact goes_hard hsaved hhard l
  | joining hsaved hr hemoji htext hpair =>
      exact goes_of_joining hctx hsaved hr hemoji htext hpair
  | kirat hsaved => exact goes_kirat hsaved
  | modified hsaved => exact goes_modified hsaved
  | regional hl hbefore => exact goes_of_regional hl hbefore
  | prepended hsaved hbefore hl hr =>
      have hc : clusterClass c = .prepending := Option.some.inj hbefore
      rw [hl c hc, hr c hc]
      exact goes_same (by omega)

/-! ### The beginning of a cluster -/

/-- **A cluster begins.** Nothing of the text behind it was read with it so far. -/
theorem ahead_of_breaksBefore (hbreak : ctx.breaksBefore (clusterClass c) = true) (b : Behind) :
    Ahead ctx (add c b).2 .nothing 0 := by
  by_cases hn : c.toNat = 0xFE0F ∨ c.toNat = 0xFE0E
  · refine .hard (Int.le_refl 0) ?_
    rw [clusterClass_of_selector hn] at hbreak
    unfold Context.breaksBefore at hbreak
    unfold IsHard
    cases hbefore : ctx.before with
    | none => exact Or.inl rfl
    | some before =>
        rw [hbefore] at hbreak
        cases before with
        | control => exact Or.inr (Or.inl rfl)
        | carriageReturn => exact Or.inr (Or.inr (Or.inl rfl))
        | lineFeed => exact Or.inr (Or.inr (Or.inr rfl))
        | _ => cases hbreak
  · obtain ⟨f, hf, hregional⟩ := leftBy_add hn b
    rw [hf]
    refine .joining (Int.le_refl 0) rfl rfl (fun _ => rfl) fun hpair hbefore => ?_
    rw [clusterClass_of_isRegional (hregional hpair)] at hbreak
    refine Bool.eq_false_iff.2 fun hodd => ?_
    rw [breaksBefore_second ⟨hbefore, hodd⟩] at hbreak
    cases hbreak

/-- **At the beginning of a text** nothing is lost. -/
theorem Ahead.nonneg {l r : Behind} (h : Ahead ctx l r saved) (hctx : ctx.before = none) :
    0 ≤ saved := by
  cases h with
  | same hsaved => exact hsaved
  | hard hsaved => exact hsaved
  | joining hsaved => exact hsaved
  | kirat hsaved => exact Int.le_trans (Int.natCast_nonneg _) hsaved
  | modified hsaved => exact hsaved
  | regional _ hbefore =>
      rw [hctx] at hbefore
      rcases hbefore with ⟨h, -⟩ | ⟨h, -⟩ <;> cases h
  | prepended hsaved => exact hsaved

end Step

/-! ## All clusters of a text -/

/-- **A text read at once, and cluster by cluster.** -/
theorem ahead_divide {ctx : Context} (hctx : Counts ctx) (text : List Char) :
    ∃ saved, Ahead ctx (scan text).2 (scan (divide ctx text).1).2 saved ∧
      (scan text).1 + saved ≤ columnsOf (divide ctx text).2 + (scan (divide ctx text).1).1 := by
  induction text generalizing ctx with
  | nil => exact ⟨0, .same (Int.le_refl 0), Int.le_refl _⟩
  | cons c rest ih =>
      obtain ⟨saved, hahead, hle⟩ := ih (counts_next ctx c)
      obtain ⟨hbegins, hgoes⟩ := hahead.goes hctx
      rw [divide]
      dsimp only
      cases hbreak : ctx.breaksBefore (clusterClass c) with
      | true =>
          have hsaved := hbegins hbreak
          have hwidth : (scan (c :: (divide (ctx.next c) rest).1)).1 ≤
              displayWidth (c :: (divide (ctx.next c) rest).1) := Int.self_le_toNat _
          rw [if_pos rfl]
          refine ⟨0, ahead_of_breaksBefore hbreak _, ?_⟩
          rw [columnsOf_cons]
          simp only [scan] at hwidth ⊢
          push_cast
          omega
      | false =>
          rw [if_neg Bool.false_ne_true]
          refine ⟨_, hgoes hbreak, ?_⟩
          simp only [scan]
          omega

end Width

/-- **A text is no wider than its clusters.** -/
theorem displayWidth_le_columnsOf (text : List Char) :
    displayWidth text ≤ columnsOf (clusters text) := by
  obtain ⟨saved, hahead, hle⟩ := Width.ahead_divide Width.counts_start text
  rw [divide_start_fst] at hahead hle
  have hsaved := hahead.nonneg rfl
  have hnothing : (Width.scan []).1 = 0 := rfl
  rw [hnothing] at hle
  show (Width.scan text).1.toNat ≤ columnsOf (divide .start text).2
  omega

end Promptline.Unicode
