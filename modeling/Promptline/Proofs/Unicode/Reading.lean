import Promptline.Proofs.Unicode.Characters

set_option autoImplicit false

/-! # A character in front of a text

A character in front of a text takes the selector for emoji (`add_selected`), is one of Latin,
which joins with nothing but a line feed (`add_latin`), or comes to what it makes of the sequence
behind it (`react`), if it is not itself a selector and none makes it narrow
(`addBeyondLatin_eq_react`). What it leaves for the next place has no selectors then
(`leftBy_add`). -/

namespace Promptline.Unicode

namespace Width

variable {n : Nat} {c : Char} {b : Behind} {f : Following}

/-! ## Sequences -/

/-- What a character makes of what stands behind it, with no variation selector in between. -/
def react (n : Nat) (f : Following) : Int × Behind :=
  if f.isTransparent && n = 0x200D then (0, .of f.join)
  else if f.isTransparent && isUndisplayedMark n then (0, .of f)
  else (joins? n f).getD (ownWidth n, offers n)

theorem react_nothing (n : Nat) : react n .nothing = (↑(ownWidth n), offers n) :=
  rfl

theorem react_of_mark (hf : f.isTransparent = true) (hjoin : f.join = f)
    (hmark : isUndisplayedMark n = true) : react n f = (0, .of f) := by
  unfold react
  rw [hf, hmark, hjoin]
  split <;> rfl

theorem react_of_not_mark (hmark : isUndisplayedMark n = false) :
    react n f = (joins? n f).getD (↑(ownWidth n), offers n) := by
  have hjoiner : n ≠ 0x200D := by
    rintro rfl
    cases hmark
  unfold react
  rw [hmark]
  simp [hjoiner]

theorem react_of_not_transparent (hf : f.isTransparent = false) :
    react n f = (joins? n f).getD (↑(ownWidth n), offers n) := by
  unfold react
  rw [hf]
  rfl

/-- An even number of vowels of Kirat Rai that join in pairs, or an odd one. -/
def kirat (even : Bool) : Following :=
  if even then .kiratAi else .kiratE

/-- Such a vowel adds to the width only if an even number of them stands behind it. -/
theorem react_kirat (hmark : isUndisplayedMark n = false) (even : Bool) :
    react n (kirat even) =
      if n = 0x16D63 then (0, .nothing)
      else if n = 0x16D67 then (↑even.toNat, .of (kirat !even))
      else if n = 0x16D68 then (1, .of (kirat even))
      else if n = 0x16D69 then (↑even.toNat, .nothing)
      else (↑(ownWidth n), offers n) := by
  rw [react_of_not_mark hmark]
  cases even with
  | false =>
      show (joins? n .kiratE).getD _ = _
      rw [joins?]
      split_ifs <;> rfl
  | true =>
      show (joins? n .kiratAi).getD _ = _
      rw [joins?]
      have hwidth : n ∈ [0x2D7F, 0x16D67, 0x16D68, 0x16D69] → ownWidth n = 1 := (tables).narrow n
      split_ifs with haa he hai hau
      · rfl
      · rw [hwidth (by simp [he]), he, (tables).kirat.1]
        rfl
      · rw [hwidth (by simp [hai]), hai, (tables).kirat.2]
        rfl
      · rw [hwidth (by simp [hau]), (tables).joining n (by simp [hau])]
        rfl
      · rfl

/-- Regional indicators in front of a joined emoji. -/
def Following.isJoinedRegional : Following → Bool
  | .joinedRegional _ _ => true
  | _ => false

/-- They let no joiner or mark through. -/
theorem Following.isJoinedRegional_of_isTransparent (h : f.isTransparent = true) :
    f.isJoinedRegional = false ∧ f.join.isJoinedRegional = false := by
  cases f with
  | joinedRegional => cases h
  | _ => exact ⟨rfl, rfl⟩

theorem Following.isJoinedRegional_of_isLigature (h : f.isLigature = true) :
    f.isJoinedRegional = false := by
  cases f with
  | joinedRegional => cases h
  | _ => rfl

/-! ## Selectors -/

theorem addBeyondLatin_emoji (b : Behind) : addBeyondLatin 0xFE0F b = (0, b.selectEmoji) := by
  unfold addBeyondLatin
  split
  · next hnothing =>
      rw [hnothing, ((tables).selectors 0xFE0F (by simp)).1]
      rfl
  · rfl

theorem addBeyondLatin_text (b : Behind) : addBeyondLatin 0xFE0E b = (0, b.selectText) := by
  unfold addBeyondLatin
  split
  · next hnothing =>
      rw [hnothing, ((tables).selectors 0xFE0E (by simp)).1]
      rfl
  · rfl

theorem addBeyondLatin_narrow (hemoji : n ≠ 0xFE0F) (htext : n ≠ 0xFE0E) (hasText : b.asText = true)
    (hnarrow : narrowsAsText n = true) : addBeyondLatin n b = (1, .nothing) := by
  unfold addBeyondLatin
  rw [if_neg, if_neg hemoji, if_neg htext, if_pos]
  · simp [hasText, hnarrow]
  · rintro rfl
    cases hasText

theorem addBeyondLatin_eq_react (hemoji : n ≠ 0xFE0F) (htext : n ≠ 0xFE0E)
    (hasEmoji : b.asEmoji = false) (hnarrow : b.asText = true → narrowsAsText n = false) :
    addBeyondLatin n b = react n b.following := by
  by_cases hnothing : b = .nothing
  · subst hnothing
    rfl
  · have hwide : ¬ (b.asText && narrowsAsText n) = true := by
      rw [Bool.and_eq_true, not_and, Bool.not_eq_true]
      exact hnarrow
    obtain ⟨f, asEmoji, asText⟩ := b
    obtain rfl : asEmoji = false := hasEmoji
    unfold addBeyondLatin
    rw [if_neg hnothing, if_neg hemoji, if_neg htext, if_neg hwide]
    unfold react
    dsimp only
    split
    · rfl
    · split
      · rfl
      · cases joins? n f <;> rfl

namespace Behind

/-- What stands behind a place, once it is clear that no emoji is selected in front of it. -/
def unselected (b : Behind) : Behind :=
  if b.asEmoji then b.dropEmoji else b

theorem asEmoji_unselected (b : Behind) : b.unselected.asEmoji = false := by
  unfold unselected dropEmoji
  cases hemoji : b.asEmoji with
  | false => exact hemoji
  | true =>
      rw [if_pos rfl]
      split <;> rfl

/-- Without the selector it is the same sequence, or none. -/
theorem following_unselected (b : Behind) :
    b.unselected.following = b.following ∨ b.unselected.following = .nothing := by
  unfold unselected dropEmoji
  split
  · split
    · exact Or.inl rfl
    · exact Or.inr rfl
  · exact Or.inl rfl

theorem unselected_of_isLigature (hf : f.isLigature = true) (asEmoji asText : Bool) :
    (⟨f, asEmoji, asText⟩ : Behind).unselected = ⟨f, false, asText⟩ := by
  cases asEmoji with
  | false => rfl
  | true =>
      unfold unselected dropEmoji
      rw [if_pos rfl, if_pos hf]

theorem selectEmoji_of_nothing (h : b.following = .nothing) :
    b.selectEmoji = ⟨.nothing, true, false⟩ := by
  unfold selectEmoji
  rw [h]
  rfl

theorem selectText_of_nothing (h : b.following = .nothing) :
    b.selectText = ⟨.nothing, false, true⟩ := by
  unfold selectText
  rw [h]
  rfl

end Behind

/-! ## Any character -/

/-- A character that takes the selector for emoji. -/
theorem add_selected (hemoji : b.asEmoji = true)
    (hbase : presentationBase.contains c.toNat = true) :
    add c b =
      (if b.following = .joinedEmoji ∨ b.following = .keycap then 0 else 2, .of .emoji) := by
  unfold add
  simp [hemoji, hbase]

/-- A character of Latin that does not take it. -/
theorem add_latin (hlatin : c.toNat ≤ 0xA0)
    (hplain : b.asEmoji = true → presentationBase.contains c.toNat = false) :
    (add c b).2 = (if c.toNat = 0x0A then .of .lineFeed else .nothing) ∧ (add c b).1 ≤ 1 ∧
      (b.unselected ≠ .of .lineFeed → (add c b).1 = 1) := by
  have hbase : ¬ (b.asEmoji && presentationBase.contains c.toNat) = true := by
    rw [Bool.and_eq_true, not_and, Bool.not_eq_true]
    exact hplain
  have hunselected : (if b.asEmoji then b.dropEmoji else b) = b.unselected := rfl
  unfold add
  dsimp only
  rw [if_neg hbase, if_pos hlatin, hunselected]
  by_cases hfeed : c.toNat = 0x0A
  · rw [if_pos hfeed, if_pos hfeed]
    exact ⟨rfl, Int.le_refl _, fun _ => rfl⟩
  · rw [if_neg hfeed, if_neg hfeed]
    split
    · next hreturn =>
        rw [Bool.and_eq_true, decide_eq_true_eq, decide_eq_true_eq] at hreturn
        exact ⟨rfl, Int.zero_le_ofNat 1, fun hne => absurd hreturn.2 hne⟩
    · exact ⟨rfl, Int.le_refl _, fun _ => rfl⟩

/-- Any other character that does not take it. -/
theorem add_beyond (hbeyond : 0xA0 < c.toNat)
    (hplain : b.asEmoji = true → presentationBase.contains c.toNat = false) :
    add c b = addBeyondLatin c.toNat b.unselected := by
  have hbase : ¬ (b.asEmoji && presentationBase.contains c.toNat) = true := by
    rw [Bool.and_eq_true, not_and, Bool.not_eq_true]
    exact hplain
  unfold add
  dsimp only
  rw [if_neg hbase, if_neg (Nat.not_le.2 hbeyond)]
  rfl

/-- With no selector behind it a character comes to what it makes of the sequence. -/
theorem add_of (hbeyond : 0xA0 < c.toNat) (hemoji : c.toNat ≠ 0xFE0F) (htext : c.toNat ≠ 0xFE0E)
    (f : Following) : add c (.of f) = react c.toNat f := by
  rw [add_beyond hbeyond fun h => absurd h Bool.false_ne_true]
  exact addBeyondLatin_eq_react hemoji htext rfl fun h => absurd h Bool.false_ne_true

/-! ## What is left behind the next place -/

/-- A state without selectors; only a regional indicator leaves that of several in front of a joined
    emoji. -/
def LeftBy (n : Nat) (b : Behind) : Prop :=
  ∃ f, b = .of f ∧ (f.isJoinedRegional = true → isRegional n = true)

theorem leftBy_of (hf : f.isJoinedRegional = false) : LeftBy n (.of f) :=
  ⟨f, rfl, fun h => absurd (hf.symm.trans h) Bool.false_ne_true⟩

theorem leftBy_offers (hn : ¬ (n = 0xFE0F ∨ n = 0xFE0E)) : LeftBy n (offers n) := by
  unfold offers
  refine iteInduction (fun _ => leftBy_of rfl) fun _ => ?_
  refine iteInduction (fun _ => leftBy_of rfl) fun _ => ?_
  refine iteInduction (fun _ => leftBy_of rfl) fun _ => ?_
  refine iteInduction (fun _ => leftBy_of rfl) fun _ => ?_
  refine iteInduction (fun _ => leftBy_of rfl) fun _ => ?_
  refine iteInduction (fun _ => leftBy_of rfl) fun _ => ?_
  refine iteInduction (fun h => absurd (Or.inr h) hn) fun _ => ?_
  refine iteInduction (fun h => absurd (Or.inl h) hn) fun _ => ?_
  refine iteInduction (fun _ => leftBy_of rfl) fun _ => ?_
  refine iteInduction (fun _ => leftBy_of rfl) fun _ => ?_
  refine iteInduction (fun _ => leftBy_of rfl) fun _ => ?_
  refine iteInduction (fun _ => leftBy_of rfl) fun _ => ?_
  refine iteInduction (fun _ => leftBy_of rfl) fun _ => ?_
  exact iteInduction (fun _ => leftBy_of rfl) fun _ => leftBy_of rfl

theorem leftBy_joins? {answer : Int × Behind} (h : joins? n f = some answer) :
    LeftBy n answer.2 := by
  unfold joins? at h
  split at h
  all_goals
    repeat' split at h
    all_goals cases h
    all_goals exact ⟨_, rfl, fun hf => by first | assumption | cases hf⟩

theorem leftBy_react (hn : ¬ (n = 0xFE0F ∨ n = 0xFE0E)) (f : Following) :
    LeftBy n (react n f).2 := by
  unfold react
  split
  · next h =>
      rw [Bool.and_eq_true] at h
      exact leftBy_of (Following.isJoinedRegional_of_isTransparent h.1).2
  split
  · next h =>
      rw [Bool.and_eq_true] at h
      exact leftBy_of (Following.isJoinedRegional_of_isTransparent h.1).1
  · cases hjoins : joins? n f with
    | none => exact leftBy_offers hn
    | some answer => exact leftBy_joins? hjoins

/-- **What a character leaves behind the next place**, unless it is a variation selector. -/
theorem leftBy_add (hn : ¬ (c.toNat = 0xFE0F ∨ c.toNat = 0xFE0E)) (b : Behind) :
    LeftBy c.toNat (add c b).2 := by
  by_cases hselected : b.asEmoji = true ∧ presentationBase.contains c.toNat = true
  · rw [add_selected hselected.1 hselected.2]
    exact leftBy_of rfl
  have hplain : b.asEmoji = true → presentationBase.contains c.toNat = false := fun h =>
    Bool.eq_false_iff.2 fun hbase => hselected ⟨h, hbase⟩
  by_cases hlatin : c.toNat ≤ 0xA0
  · rw [(add_latin hlatin hplain).1]
    exact iteInduction (fun _ => leftBy_of rfl) fun _ => leftBy_of rfl
  rw [add_beyond (Nat.not_le.1 hlatin) hplain]
  obtain ⟨hemoji, htext⟩ := not_or.1 hn
  by_cases hnarrow : b.unselected.asText = true ∧ narrowsAsText c.toNat = true
  · rw [addBeyondLatin_narrow hemoji htext hnarrow.1 hnarrow.2]
    exact leftBy_of rfl
  · rw [addBeyondLatin_eq_react hemoji htext b.asEmoji_unselected fun h =>
      Bool.eq_false_iff.2 fun hnarrows => hnarrow ⟨h, hnarrows⟩]
    exact leftBy_react hn _

end Width

end Promptline.Unicode
