import Mathlib.Data.Finset.Card
import Mathlib.Data.Nat.SuccPred
import Mathlib.Order.Interval.Finset.Nat
import Mathlib.Order.SuccPred.Relation
import Promptline.Proofs.History.Expansion

set_option autoImplicit false

/-! # References that go round in a circle

An entry may hold references itself: a reference to an entry that is not there yet is recorded as it
is, and an entry that holds one may come to stand at another place. So a text that was expanded can
be expanded once more. It comes to an end unless the text leads to an entry that leads back to
itself (`Circular`): in a circle there is always one more reference (`Circular.expand`), and without
one no entry is met twice, so that after as many expansions as there are entries nothing is left to
replace (`expand_iterate_eq_self`). -/

namespace Promptline.History

open Unicode Relation

variable {h : History} {text : List Char} {i j : Nat}

/-- A word of a text stands for the entry with a number, and the entry is not the word itself. -/
def RefersTo (h : History) (text : List Char) (i : Nat) : Prop :=
  ∃ w ∈ words text, reference? w = some i ∧ ∃ entry, h.entry? i = some entry ∧ entry ≠ w

/-- An entry refers to another one, both given by number. -/
def Leads (h : History) (i j : Nat) : Prop :=
  ∃ entry, h.entry? i = some entry ∧ h.RefersTo entry j

/-- A text refers, directly or through entries, to an entry that refers to itself through one entry
    or more. -/
def Circular (h : History) (text : List Char) : Prop :=
  ∃ i j, h.RefersTo text i ∧ ReflTransGen h.Leads i j ∧ TransGen h.Leads j j

/-! ## One expansion -/

theorem expandWord_ne_self_of_refersTo (href : h.RefersTo text i) :
    ∃ w ∈ words text, h.expandWord w ≠ w := by
  obtain ⟨w, hw, hi, entry, hentry, hne⟩ := href
  exact ⟨w, hw, expandWord_ne_self_iff.2 ⟨i, entry, hi, hentry, hne⟩⟩

/-- A text without references is its own expansion. -/
theorem expand_eq_self_of_not_refersTo (hnone : ∀ i, ¬ h.RefersTo text i) :
    h.expand text = text := by
  refine expand_eq_self_of_forall fun w hw => Decidable.byContradiction fun hne => ?_
  obtain ⟨i, entry, hi, hentry, hother⟩ := expandWord_ne_self_iff.1 hne
  exact hnone i ⟨w, hw, hi, entry, hentry, hother⟩

/-- Where no entry is blank, a text with a reference is not its own expansion. -/
theorem RefersTo.expand_ne_self (hentries : ∀ entry ∈ h.entries, isBlankText entry = false)
    (href : h.RefersTo text i) : h.expand text ≠ text := by
  obtain ⟨w, hw, hne⟩ := expandWord_ne_self_of_refersTo href
  exact fun hsame => hne ((expand_eq_self_iff hentries).1 hsame w hw)

/-- **The references of an expansion** are those of the entries that the text refers to. -/
theorem refersTo_expand_iff :
    h.RefersTo (h.expand text) j ↔ ∃ i, h.RefersTo text i ∧ h.Leads i j := by
  constructor
  · rintro ⟨v, hv, hj, entry', hentry', hne'⟩
    rw [words_expand] at hv
    obtain ⟨w, hw, hv⟩ := List.mem_flatMap.1 hv
    by_cases hsame : h.expandWord w = w
    · -- a word that stays is no reference
      rw [hsame, words_of_mem_words hw] at hv
      obtain rfl := List.mem_singleton.1 hv
      exact absurd hsame (expandWord_ne_self_iff.2 ⟨j, entry', hj, hentry', hne'⟩)
    · obtain ⟨i, entry, hi, hentry, hne⟩ := expandWord_ne_self_iff.1 hsame
      rw [expandWord_of_entry hi hentry] at hv
      exact ⟨i, ⟨w, hw, hi, entry, hentry, hne⟩, entry, hentry, v, hv, hj, entry', hentry', hne'⟩
  · rintro ⟨i, ⟨w, hw, hi, entry, hentry, hne⟩, other, hother, v, hv, hj⟩
    obtain rfl : entry = other := Option.some.inj (hentry.symm.trans hother)
    refine ⟨v, ?_, hj⟩
    rw [words_expand]
    exact List.mem_flatMap.2 ⟨w, hw, by rwa [expandWord_of_entry hi hentry]⟩

theorem mem_Icc_of_refersTo (href : h.RefersTo text i) : i ∈ Finset.Icc 1 h.length := by
  obtain ⟨w, _, _, entry, hentry, _⟩ := href
  unfold entry? at hentry
  split at hentry
  · cases hentry
  · next hi =>
      obtain ⟨hlt, _⟩ := List.getElem?_eq_some_iff.1 hentry
      rw [Finset.mem_Icc, length]
      omega

/-! ## Many expansions -/

/-- In a circle, expanding leaves a reference that is in a circle. -/
theorem Circular.expand (hcircular : h.Circular text) : h.Circular (h.expand text) := by
  obtain ⟨i, j, href, hpath, hcircle⟩ := hcircular
  -- one step along the way to the circle, or around it
  obtain ⟨k, hik, hkj⟩ : ∃ k, h.Leads i k ∧ ReflTransGen h.Leads k j := by
    rcases hpath.cases_head with rfl | hstep
    · exact TransGen.head'_iff.1 hcircle
    · exact hstep
  exact ⟨k, j, refersTo_expand_iff.2 ⟨i, href, hik⟩, hkj, hcircle⟩

theorem Circular.iterate_expand (hcircular : h.Circular text) (n : Nat) :
    h.Circular (h.expand^[n] text) := by
  induction n with
  | zero => exact hcircular
  | succ n ih =>
      rw [Function.iterate_succ_apply']
      exact ih.expand

/-- In a circle, there is always one more reference to replace. -/
theorem Circular.expand_ne_self (hentries : ∀ entry ∈ h.entries, isBlankText entry = false)
    (hcircular : h.Circular text) (n : Nat) :
    h.expand (h.expand^[n] text) ≠ h.expand^[n] text := by
  obtain ⟨i, _, href, _⟩ := hcircular.iterate_expand n
  exact href.expand_ne_self hentries

/-- A reference that is left after `n` expansions is the last of `n + 1` that led to it. -/
theorem exists_path (n : Nat) (href : h.RefersTo (h.expand^[n] text) j) :
    ∃ p : Nat → Nat, h.RefersTo text (p 0) ∧ p n = j ∧ ∀ m < n, h.Leads (p m) (p (m + 1)) := by
  induction n generalizing j with
  | zero => exact ⟨fun _ => j, href, rfl, fun m hm => absurd hm (Nat.not_lt_zero m)⟩
  | succ n ih =>
      rw [Function.iterate_succ_apply'] at href
      obtain ⟨i, hi, hleads⟩ := refersTo_expand_iff.1 href
      obtain ⟨p, hfirst, hlast, hsteps⟩ := ih hi
      refine ⟨fun m => if m ≤ n then p m else j, hfirst, if_neg (Nat.not_succ_le_self n), ?_⟩
      intro m hm
      have hle : m ≤ n := Nat.le_of_lt_succ hm
      rcases Nat.lt_or_eq_of_le hle with hlt | rfl
      · simpa only [if_pos hle, if_pos (Nat.succ_le_of_lt hlt)] using hsteps m hlt
      · simpa only [if_pos hle, if_neg (Nat.not_succ_le_self m), hlast] using hleads

/-- **Without a circle, expanding comes to an end**, after no more expansions than there are
    entries. -/
theorem expand_iterate_eq_self (hcircular : ¬ h.Circular text) :
    h.expand (h.expand^[h.length] text) = h.expand^[h.length] text := by
  refine expand_eq_self_of_not_refersTo fun j href => hcircular ?_
  obtain ⟨p, hfirst, _, hsteps⟩ := exists_path h.length href
  -- there is one reference more on the way than there are entries, so one is met twice
  have hrange : ∀ m ∈ Finset.range (h.length + 1), p m ∈ Finset.Icc 1 h.length := by
    intro m hm
    cases m with
    | zero => exact mem_Icc_of_refersTo hfirst
    | succ m =>
        obtain ⟨_, _, href⟩ := hsteps m (Nat.lt_of_succ_lt_succ (Finset.mem_range.1 hm))
        exact mem_Icc_of_refersTo href
  have hcard : (Finset.Icc 1 h.length).card < (Finset.range (h.length + 1)).card := by
    rw [Nat.card_Icc, Finset.card_range]
    omega
  obtain ⟨a, b, hb, hab, hsame⟩ : ∃ a b, b ≤ h.length ∧ a < b ∧ p a = p b := by
    obtain ⟨x, hx, y, hy, hxy, hp⟩ := Finset.exists_ne_map_eq_of_card_lt_of_maps_to hcard hrange
    have hx := Nat.le_of_lt_succ (Finset.mem_range.1 hx)
    have hy := Nat.le_of_lt_succ (Finset.mem_range.1 hy)
    rcases Nat.lt_or_gt_of_ne hxy with hlt | hlt
    · exact ⟨x, y, hy, hlt, hp⟩
    · exact ⟨y, x, hx, hlt, hp.symm⟩
  have hto : ReflTransGen h.Leads (p 0) (p a) :=
    (reflTransGen_of_succ_of_le (fun x y => h.Leads (p x) (p y))
      (fun m hm => hsteps m (Nat.lt_trans hm.2 (Nat.lt_of_lt_of_le hab hb)))
      (Nat.zero_le a)).lift p fun _ _ => id
  have haround : TransGen h.Leads (p a) (p b) :=
    (transGen_of_succ_of_lt (fun x y => h.Leads (p x) (p y))
      (fun m hm => hsteps m (Nat.lt_of_lt_of_le hm.2 hb)) hab).lift p fun _ _ => id
  exact ⟨p 0, p a, hfirst, hto, hsame ▸ haround⟩

end Promptline.History
