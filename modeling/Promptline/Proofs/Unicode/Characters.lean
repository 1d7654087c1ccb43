import Mathlib.Logic.Basic
import Mathlib.Tactic.SplitIfs
import Promptline.Proofs.Unicode.CodePointSet
import Promptline.Unicode.Cluster
import Promptline.Unicode.Width

set_option autoImplicit false

/-! # Characters and their widths

What the sets of code points say together is looked up once (`tables`). From that it follows that a
character of no width offers nothing to the one in front of it (`offers_of_ownWidth_eq_zero`), what
the characters offer that join with others, and which characters have the cluster classes that
matter for the width of a cluster. -/

namespace Promptline.Unicode

open CodePointSet

namespace Width

variable {n : Nat}

/-! ## What the tables say -/

/-- Where the characters are that offer something to the one in front of them, alefs and variation
    selectors apart. -/
def offeringPlaces : List (Nat × Nat) :=
  [(0x05DC, 0x05DC), (0x1780, 0x17AF), (0x1A10, 0x1A10), (0x231A, 0x2B55), (0x2D31, 0x2D6F),
    (0xA4FC, 0xA4FD), (0x10C03, 0x10C03), (0x16D67, 0x16D68), (0x1F004, 0x1FAFF)]

/-- What the tables of characters say, as far as it matters for the widths of clusters. -/
structure Tables : Prop where
  emoji : ∀ s ∈ [emojiPresentation, emojiModifierBase],
    s.liesIn [(0x231A, 0x2B55), (0x1F004, 0x1FAFF)] = true
  /-- Regional indicators and modifiers are not modified. -/
  modifierBase : emojiModifierBase.avoids 0x1F1E6 0x1F1FF = true ∧
    emojiModifierBase.avoids 0x1F3FB 0x1F3FF = true
  alef : joiningAlef.liesIn [(0x622, 0x6FF), (0x773, 0x882)] = true
  lam : joiningLam.liesIn [(0x644, 0x8C7)] = true
  alef_lam : joiningAlef.isApart joiningLam = true
  prepending : prepending.liesIn [(0x600, 0xD4E), (0x110BD, 0x11F02)] = true
  /-- What offers something is not without width. -/
  marks : ∀ s ∈ [graphemeExtend, defaultIgnorable], s.isApart joiningAlef = true ∧
    ∀ place ∈ offeringPlaces, s.avoids place.1 place.2 = true
  controls : presentationBase.avoids 0 0x1F = true ∧ presentationBase.avoids 0x7F 0x7F = true ∧
    presentationBase.isApart controlLike = true
  /-- Joiners, and letters that join with the one behind them, offer nothing by themselves. -/
  joining : ∀ n ∈ [0x034F, 0x05D0, 0x17D2, 0x1A15, 0x1A17, 0x200D, 0x20E3, 0x2D7F, 0x10C32, 0x16D63,
    0x16D69, 0xE007F], offers n = .nothing
  narrow : ∀ n ∈ [0x2D7F, 0x16D67, 0x16D68, 0x16D69], ownWidth n = 1
  kirat : offers 0x16D67 = .of .kiratE ∧ offers 0x16D68 = .of .kiratAi
  flag : offers 0x1F3F4 = .of .emoji
  selectors : ∀ n ∈ [0xFE0E, 0xFE0F], ownWidth n = 0 ∧ clusterClassBeyondAscii n = .extending
  modifiers : ∀ i : Fin 5, offers (0x1F3FB + i) = .of .emojiModifier
  /-- Regional indicators have a width and a class of their own. -/
  regional : ∀ s ∈ [graphemeExtend, defaultIgnorable, eastAsianWide, controlLike, spacingMark,
    Unicode.prepending], s.avoids 0x1F1E6 0x1F1FF = true
  /-- Tifinagh consonants have no class of their own. -/
  tifinagh : ∀ s ∈ [graphemeExtend, controlLike, spacingMark, Unicode.prepending, pictographic,
    conjunctConsonant], s.avoids 0x2D31 0x2D6F = true

-- Below it is `(tables).emoji` and not `tables.emoji`: that might be a name inside of this proof,
-- and would be looked up only when the proof is checked.
/-- **The tables** do say so. -/
theorem tables : Tables := by
  constructor <;> decide +kernel

/-! ## What characters offer -/

/-- Where emoji are that are shown as such by default, or can be modified. -/
def InEmoji (n : Nat) : Prop :=
  (0x231A ≤ n ∧ n ≤ 0x2B55) ∨ (0x1F004 ≤ n ∧ n ≤ 0x1FAFF)

theorem inEmoji_of_contains {s : CodePointSet}
    (hs : s.liesIn [(0x231A, 0x2B55), (0x1F004, 0x1FAFF)] = true) (h : s.contains n = true) :
    InEmoji n := by
  obtain ⟨stretch, hstretch, hin⟩ := exists_stretch _ hs h
  rcases List.mem_cons.1 hstretch with rfl | hstretch
  · exact Or.inl hin
  · obtain rfl := List.mem_singleton.1 hstretch
    exact Or.inr hin

theorem inEmoji_presentation (h : emojiPresentation.contains n = true) : InEmoji n :=
  inEmoji_of_contains ((tables).emoji _ (by simp)) h

theorem inEmoji_modifierBase (h : emojiModifierBase.contains n = true) : InEmoji n :=
  inEmoji_of_contains ((tables).emoji _ (by simp)) h

/-- No alef is where a stretch of letters of another script is. -/
theorem not_joiningAlef (h : 0x882 < n) : joiningAlef.contains n = false := by
  rw [Bool.eq_false_iff]
  intro hcontains
  obtain ⟨stretch, hstretch, hin⟩ := exists_stretch _ (tables).alef hcontains
  simp only [List.mem_cons, List.not_mem_nil, or_false] at hstretch
  rcases hstretch with rfl | rfl
  · omega
  · omega

/-- Characters outside of these stretches offer nothing, unless they are a form of alef. -/
theorem offers_eq_nothing (halef : joiningAlef.contains n = false) (hemoji : ¬ InEmoji n)
    (h : n ≠ 0x05DC ∧ (n < 0x1780 ∨ 0x17AF < n) ∧ n ≠ 0x1A10 ∧ (n < 0x2D31 ∨ 0x2D6F < n) ∧
      n ≠ 0xA4FC ∧ n ≠ 0xA4FD ∧ n ≠ 0xFE0E ∧ n ≠ 0xFE0F ∧ n ≠ 0x10C03 ∧ n ≠ 0x16D67 ∧
      n ≠ 0x16D68) : offers n = .nothing := by
  have hpresentation : emojiPresentation.contains n = false := by
    rw [Bool.eq_false_iff]
    exact fun hcontains => hemoji (inEmoji_presentation hcontains)
  unfold InEmoji at hemoji
  have hkhmer : isKhmerLetter n = false := by
    simp [isKhmerLetter]
    omega
  have htifinagh : isTifinaghConsonant n = false := by
    simp [isTifinaghConsonant]
    omega
  have hregional : isRegional n = false := by
    simp [isRegional]
    omega
  have hmodifier : isEmojiModifier n = false := by
    simp [isEmojiModifier]
    omega
  unfold offers
  rw [halef, hkhmer, htifinagh, hregional, hmodifier, hpresentation]
  simp [h]

/-- What emoji offer. -/
theorem offers_of_inEmoji (h : InEmoji n) (hregional : isRegional n = false)
    (hmodifier : isEmojiModifier n = false) :
    offers n = if emojiPresentation.contains n then .of .emoji else .nothing := by
  have halef : joiningAlef.contains n = false := by
    refine not_joiningAlef ?_
    unfold InEmoji at h
    omega
  unfold InEmoji at h
  have hkhmer : isKhmerLetter n = false := by
    simp [isKhmerLetter]
    omega
  have htifinagh : isTifinaghConsonant n = false := by
    simp [isTifinaghConsonant]
    omega
  have hothers : n ≠ 0x05DC ∧ n ≠ 0x1A10 ∧ n ≠ 0xA4FC ∧ n ≠ 0xA4FD ∧ n ≠ 0xFE0E ∧ n ≠ 0xFE0F ∧
      n ≠ 0x10C03 ∧ n ≠ 0x16D67 ∧ n ≠ 0x16D68 := by omega
  unfold offers
  rw [halef, hkhmer, htifinagh, hregional, hmodifier]
  simp [hothers]

theorem ownWidth_pos (hextend : graphemeExtend.contains n = false)
    (hignorable : defaultIgnorable.contains n = false) (hjamo : isFollowingJamo n = false)
    (hmark : isSurroundingMark n = false) : 0 < ownWidth n := by
  unfold ownWidth
  rw [hextend, hignorable, hjamo, hmark]
  split_ifs <;> simp_all

theorem ownWidth_pos_of_mem_offeringPlaces {place : Nat × Nat} (hplace : place ∈ offeringPlaces)
    (hin : place.1 ≤ n ∧ n ≤ place.2) : 0 < ownWidth n := by
  have hnot : ∀ s ∈ [graphemeExtend, defaultIgnorable], s.contains n = false := fun s hs =>
    not_contains_of_avoids (((tables).marks s hs).2 place hplace) hin.1 hin.2
  obtain ⟨first, last⟩ := place
  simp only [offeringPlaces, List.mem_cons, Prod.mk.injEq, List.not_mem_nil, or_false] at hplace
  dsimp only at hin
  refine ownWidth_pos (hnot _ (by simp)) (hnot _ (by simp)) ?_ ?_
  · simp [isFollowingJamo]
    omega
  · simp [isSurroundingMark]
    omega

theorem ownWidth_pos_of_joiningAlef (h : joiningAlef.contains n = true) : 0 < ownWidth n := by
  have hnot : ∀ s ∈ [graphemeExtend, defaultIgnorable], s.contains n = false := fun s hs =>
    not_contains_of_isApart ((tables).marks s hs).1 h
  obtain ⟨stretch, hstretch, hin⟩ := exists_stretch _ (tables).alef h
  simp only [List.mem_cons, List.not_mem_nil, or_false] at hstretch
  refine Width.ownWidth_pos (hnot _ (by simp)) (hnot _ (by simp)) ?_ ?_
  · simp [isFollowingJamo]
    rcases hstretch with rfl | rfl <;> dsimp only at hin <;> omega
  · simp [isSurroundingMark]
    rcases hstretch with rfl | rfl <;> dsimp only at hin <;> omega

/-- **A character of no width** offers nothing, unless it is a variation selector. -/
theorem offers_of_ownWidth_eq_zero (h : ownWidth n = 0) (htext : n ≠ 0xFE0E)
    (hemoji : n ≠ 0xFE0F) : offers n = .nothing := by
  have halef : joiningAlef.contains n = false := by
    rw [Bool.eq_false_iff]
    exact fun hcontains => Nat.ne_of_gt (ownWidth_pos_of_joiningAlef hcontains) h
  have hplaces : ∀ place ∈ offeringPlaces, ¬ (place.1 ≤ n ∧ n ≤ place.2) := fun _ hplace hin =>
    Nat.ne_of_gt (ownWidth_pos_of_mem_offeringPlaces hplace hin) h
  simp only [offeringPlaces, List.forall_mem_cons] at hplaces
  refine offers_eq_nothing halef ?_ (by omega)
  unfold InEmoji
  omega

theorem offers_of_joiningLam (h : joiningLam.contains n = true) : offers n = .nothing := by
  obtain ⟨stretch, hstretch, hin⟩ := exists_stretch _ (tables).lam h
  obtain rfl := List.mem_singleton.1 hstretch
  refine offers_eq_nothing (not_contains_of_isApart (tables).alef_lam h) ?_ (by omega)
  unfold InEmoji
  omega

theorem offers_of_undisplayed (h : isUndisplayedMark n = true) (htext : n ≠ 0xFE0E)
    (hemoji : n ≠ 0xFE0F) : offers n = .nothing := by
  simp only [isUndisplayedMark, Bool.or_eq_true, Bool.and_eq_true, decide_eq_true_eq] at h
  by_cases hjoiner : n = 0x34F
  · exact (tables).joining n (by simp [hjoiner])
  refine offers_eq_nothing (not_joiningAlef (by omega)) ?_ (by omega)
  unfold InEmoji
  omega

theorem offers_of_modifierBase (h : emojiModifierBase.contains n = true) :
    offers n = .nothing ∨ offers n = .of .emoji := by
  have hregional : ¬ (0x1F1E6 ≤ n ∧ n ≤ 0x1F1FF) := fun hin =>
    absurd h (Bool.eq_false_iff.1 (not_contains_of_avoids (tables).modifierBase.1 hin.1 hin.2))
  have hmodifier : ¬ (0x1F3FB ≤ n ∧ n ≤ 0x1F3FF) := fun hin =>
    absurd h (Bool.eq_false_iff.1 (not_contains_of_avoids (tables).modifierBase.2 hin.1 hin.2))
  rw [offers_of_inEmoji (inEmoji_modifierBase h) (by simp [isRegional]; omega)
    (by simp [isEmojiModifier]; omega)]
  split
  · exact Or.inr rfl
  · exact Or.inl rfl

theorem offers_of_presentation (h : emojiPresentation.contains n = true)
    (hregional : isRegional n = false) (hmodifier : isEmojiModifier n = false) :
    offers n = .of .emoji := by
  rw [offers_of_inEmoji (inEmoji_presentation h) hregional hmodifier, if_pos h]

theorem offers_of_isEmojiModifier (h : isEmojiModifier n = true) :
    offers n = .of .emojiModifier := by
  simp only [isEmojiModifier, Bool.and_eq_true, decide_eq_true_eq] at h
  have hn : n = 0x1F3FB + (n - 0x1F3FB) := by omega
  rw [hn]
  exact (tables).modifiers ⟨n - 0x1F3FB, by omega⟩

theorem offers_of_isTag (h : isTagLetter n = true ∨ isTagDigit n = true) : offers n = .nothing := by
  simp only [isTagLetter, isTagDigit, Bool.and_eq_true, decide_eq_true_eq] at h
  refine offers_eq_nothing (not_joiningAlef (by omega)) ?_ (by omega)
  unfold InEmoji
  omega

theorem offers_of_lisuTone (h : (decide (0xA4F8 ≤ n) && decide (n ≤ 0xA4FB)) = true) :
    offers n = .nothing := by
  simp only [Bool.and_eq_true, decide_eq_true_eq] at h
  refine offers_eq_nothing (not_joiningAlef (by omega)) ?_ (by omega)
  unfold InEmoji
  omega

theorem offers_of_isRegional (h : isRegional n = true) : offers n = .of .regional := by
  have hin := h
  simp only [isRegional, Bool.and_eq_true, decide_eq_true_eq] at hin
  have hkhmer : isKhmerLetter n = false := by
    simp [isKhmerLetter]
    omega
  have htifinagh : isTifinaghConsonant n = false := by
    simp [isTifinaghConsonant]
    omega
  have hothers : n ≠ 0x05DC ∧ n ≠ 0x1A10 ∧ n ≠ 0xA4FC ∧ n ≠ 0xA4FD ∧ n ≠ 0xFE0E ∧ n ≠ 0xFE0F ∧
      n ≠ 0x10C03 ∧ n ≠ 0x16D67 ∧ n ≠ 0x16D68 := by omega
  unfold offers
  rw [not_joiningAlef (by omega), hkhmer, htifinagh, h]
  simp [hothers]

theorem ownWidth_of_isRegional (h : isRegional n = true) : ownWidth n = 1 := by
  simp only [isRegional, Bool.and_eq_true, decide_eq_true_eq] at h
  have hnot : ∀ s ∈ [graphemeExtend, defaultIgnorable, eastAsianWide, controlLike, spacingMark,
      Unicode.prepending], s.contains n = false := fun s hs =>
    not_contains_of_avoids ((tables).regional s hs) h.1 h.2
  have hjamo : isFollowingJamo n = false := by
    simp [isFollowingJamo]
    omega
  have hmark : isSurroundingMark n = false := by
    simp [isSurroundingMark]
    omega
  unfold ownWidth
  rw [hnot graphemeExtend (by simp), hnot defaultIgnorable (by simp),
    hnot eastAsianWide (by simp), hjamo, hmark]
  simp only [Bool.or_false, Bool.or_eq_true, decide_eq_true_eq, Bool.false_eq_true, ite_false]
  simp (disch := omega) only [if_neg]

theorem offers_of_isTifinaghConsonant (h : isTifinaghConsonant n = true) :
    offers n = .of (.tifinagh false) := by
  have hin := h
  simp only [isTifinaghConsonant, Bool.or_eq_true, Bool.and_eq_true, decide_eq_true_eq] at hin
  have hkhmer : isKhmerLetter n = false := by
    simp [isKhmerLetter]
    omega
  have hothers : n ≠ 0x05DC ∧ n ≠ 0x1A10 := by omega
  unfold offers
  rw [not_joiningAlef (by omega), hkhmer, h]
  simp [hothers]

/-! ## Classes of characters -/

section Classes

variable {c : Char}

theorem clusterClass_of_le (h : 0x80 ≤ c.toNat) :
    clusterClass c = clusterClassBeyondAscii c.toNat := by
  unfold clusterClass
  dsimp only
  rw [if_neg (Nat.not_lt.2 h)]

theorem clusterClass_of_isRegional (h : isRegional c.toNat = true) :
    clusterClass c = .regional := by
  simp only [isRegional, Bool.and_eq_true, decide_eq_true_eq] at h
  have hnot : ∀ s ∈ [graphemeExtend, defaultIgnorable, eastAsianWide, controlLike, spacingMark,
      Unicode.prepending], s.contains c.toNat = false := fun s hs =>
    not_contains_of_avoids ((tables).regional s hs) h.1 h.2
  rw [clusterClass_of_le (by omega)]
  unfold clusterClassBeyondAscii
  rw [hnot graphemeExtend (by simp), hnot controlLike (by simp), hnot spacingMark (by simp),
    hnot Unicode.prepending (by simp)]
  simp only [Bool.false_or, Bool.or_eq_true, Bool.and_eq_true, decide_eq_true_eq,
    Bool.false_eq_true, ite_false]
  simp (disch := omega) only [if_neg, if_pos]

theorem clusterClass_of_isTifinaghConsonant (h : isTifinaghConsonant c.toNat = true) :
    clusterClass c = .other := by
  simp only [isTifinaghConsonant, Bool.or_eq_true, Bool.and_eq_true, decide_eq_true_eq] at h
  have hnot : ∀ s ∈ [graphemeExtend, controlLike, spacingMark, Unicode.prepending, pictographic,
      conjunctConsonant], s.contains c.toNat = false := fun s hs =>
    not_contains_of_avoids ((tables).tifinagh s hs) (by omega) (by omega)
  rw [clusterClass_of_le (by omega)]
  unfold clusterClassBeyondAscii
  rw [hnot graphemeExtend (by simp), hnot controlLike (by simp), hnot spacingMark (by simp),
    hnot Unicode.prepending (by simp), hnot pictographic (by simp),
    hnot conjunctConsonant (by simp)]
  simp only [Bool.false_or, Bool.or_eq_true, Bool.and_eq_true, decide_eq_true_eq,
    Bool.false_eq_true, ite_false]
  simp (disch := omega) only [if_neg]

theorem clusterClass_of_selector (h : c.toNat = 0xFE0F ∨ c.toNat = 0xFE0E) :
    clusterClass c = .extending := by
  rw [clusterClass_of_le (by omega)]
  exact ((tables).selectors _ (by simpa using h.symm)).2

/-- Only regional indicators have their class. -/
theorem isRegional_of_clusterClass (h : clusterClass c = .regional) :
    isRegional c.toNat = true := by
  unfold clusterClass clusterClassBeyondAscii at h
  simp only [ite_eq_iff, reduceCtorEq, and_false, false_or, and_true, or_false] at h
  simp only [isRegional, Bool.and_eq_true, decide_eq_true_eq] at h ⊢
  omega

theorem prepending_of_clusterClass (h : clusterClass c = .prepending) :
    prepending.contains c.toNat = true := by
  unfold clusterClass clusterClassBeyondAscii at h
  simp only [ite_eq_iff, reduceCtorEq, and_false, false_or, and_true, or_false] at h
  exact h.2.2.2.2.2

theorem control_of_clusterClass (h : clusterClass c = .control) :
    c.toNat < 0x20 ∨ c.toNat = 0x7F ∨ controlLike.contains c.toNat = true := by
  unfold clusterClass clusterClassBeyondAscii at h
  simp only [ite_eq_iff, reduceCtorEq, and_false, false_or, and_true, or_false] at h
  rcases h with ⟨-, -, -, hascii⟩ | ⟨-, -, -, hcontrol⟩
  · simp only [Bool.or_eq_true, decide_eq_true_eq] at hascii
    exact hascii.imp_right Or.inl
  · exact Or.inr (Or.inr hcontrol)

theorem carriageReturn_of_clusterClass (h : clusterClass c = .carriageReturn) :
    c.toNat = 0x0D := by
  unfold clusterClass clusterClassBeyondAscii at h
  simp only [ite_eq_iff, reduceCtorEq, and_false, and_true, or_false] at h
  exact h.2

theorem lineFeed_of_clusterClass (h : clusterClass c = .lineFeed) : c.toNat = 0x0A := by
  unfold clusterClass clusterClassBeyondAscii at h
  simp only [ite_eq_iff, reduceCtorEq, and_false, false_or, and_true, or_false] at h
  exact h.2.2

/-- Where the characters are that stay with the one behind them. -/
theorem place_of_prepending (h : clusterClass c = .prepending) :
    (0x600 ≤ c.toNat ∧ c.toNat ≤ 0xD4E) ∨ (0x110BD ≤ c.toNat ∧ c.toNat ≤ 0x11F02) := by
  obtain ⟨stretch, hstretch, hin⟩ :=
    exists_stretch _ (tables).prepending (prepending_of_clusterClass h)
  simp only [List.mem_cons, List.not_mem_nil, or_false] at hstretch
  rcases hstretch with rfl | rfl
  · exact Or.inl hin
  · exact Or.inr hin

/-- No control takes a variation selector. -/
theorem not_presentationBase_of_control
    (h : clusterClass c = .control ∨ clusterClass c = .carriageReturn ∨
      clusterClass c = .lineFeed) : presentationBase.contains c.toNat = false := by
  have hcontrol : c.toNat < 0x20 ∨ c.toNat = 0x7F ∨ controlLike.contains c.toNat = true := by
    rcases h with h | h | h
    · exact control_of_clusterClass h
    · exact Or.inl (carriageReturn_of_clusterClass h ▸ by decide)
    · exact Or.inl (lineFeed_of_clusterClass h ▸ by decide)
  rcases hcontrol with hlow | hdelete | hcontrol
  · exact not_contains_of_avoids (tables).controls.1 (Nat.zero_le _) (by omega)
  · exact not_contains_of_avoids (tables).controls.2.1 (Nat.le_of_eq hdelete.symm)
      (Nat.le_of_eq hdelete)
  · exact not_contains_of_isApart (tables).controls.2.2 hcontrol

end Classes

end Width

end Promptline.Unicode
