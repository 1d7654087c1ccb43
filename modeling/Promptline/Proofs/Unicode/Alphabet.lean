import Mathlib.Data.List.Basic
import Promptline.Proofs.Text.Utf8
import Promptline.Proofs.Unicode.Prefix
import Promptline.Terminal.Visible
import Promptline.Unicode.Width

set_option autoImplicit false

/-! # Alphabets without surprises

In general neither the clusters nor the width of a text can be read off its characters. They can
for a text over a *plain* alphabet: there every character is a cluster of its own, and widths add
up. The printable ASCII characters are one (`plain_printableAscii`).

A terminal shows such a text as it is: nothing in it is a control, so `Visible.shown` keeps it
whole (`shown_eq_self`).

Less is asked of characters that are *separate*: a line feed may belong to the carriage return in
front of it, but nothing else of a text joins what is put in front of it (`joining_concat`). All of
ASCII is separate (`separate_ascii`). -/

namespace Promptline.Unicode

/-- Characters that a terminal does not print but obeys. -/
def isControl (c : Char) : Bool :=
  c.toNat < 0x20 || (0x7F ≤ c.toNat && c.toNat ≤ 0x9F)

/-- The widths of the characters of a text, each by itself, added up. -/
def widthSum : List Char → Nat
  | [] => 0
  | c :: rest => displayWidth [c] + widthSum rest

theorem widthSum_append (s t : List Char) : widthSum (s ++ t) = widthSum s + widthSum t := by
  induction s with
  | nil => rw [List.nil_append, widthSum, Nat.zero_add]
  | cons c rest ih => rw [List.cons_append, widthSum, widthSum, ih, Nat.add_assoc]

/-- All characters of a text belong to an alphabet. -/
def Over (A : Char → Prop) (s : List Char) : Prop :=
  ∀ c ∈ s, A c

instance (A : Char → Prop) [DecidablePred A] (s : List Char) : Decidable (Over A s) :=
  List.decidableBAll A s

/-- An alphabet over which every character is a cluster of its own and takes one or two columns,
    whatever stands beside it, and is printed. -/
structure PlainAlphabet (A : Char → Prop) : Prop where
  clusters_eq : ∀ s, Over A s → clusters s = s.map fun c => [c]
  displayWidth_eq : ∀ s, Over A s → displayWidth s = widthSum s
  width : ∀ c, A c → displayWidth [c] = 1 ∨ displayWidth [c] = 2
  printed : ∀ c, A c → isControl c = false

section Over

variable {A : Char → Prop} {s t : List Char}

theorem over_nil : Over A [] := by
  simp [Over]

theorem over_cons {c : Char} : Over A (c :: s) ↔ A c ∧ Over A s := by
  simp [Over]

theorem Over.mono {B : Char → Prop} (h : Over A s) (hAB : ∀ c, A c → B c) : Over B s :=
  fun c hc => hAB c (h c hc)

theorem over_append : Over A (s ++ t) ↔ Over A s ∧ Over A t := by
  simp only [Over, List.mem_append]
  exact ⟨fun h => ⟨fun c hc => h c (Or.inl hc), fun c hc => h c (Or.inr hc)⟩,
    fun h c hc => hc.elim (h.1 c) (h.2 c)⟩

theorem PlainAlphabet.clusterCount_eq (hA : PlainAlphabet A) (h : Over A s) :
    clusterCount s = s.length := by
  rw [clusterCount, hA.clusters_eq s h, List.length_map]

theorem PlainAlphabet.displayWidth_append (hA : PlainAlphabet A) (hs : Over A s)
    (ht : Over A t) : displayWidth (s ++ t) = displayWidth s + displayWidth t := by
  rw [hA.displayWidth_eq _ (over_append.2 ⟨hs, ht⟩), hA.displayWidth_eq _ hs,
    hA.displayWidth_eq _ ht, widthSum_append]

end Over

/-! ## What a terminal shows of a plain text -/

section Shown

open Terminal

/-- The bytes of a printed character are none that begins a sequence. -/
theorem escape_notMem_utf8EncodeChar {c : Char} (h : isControl c = false) :
    0x1B ∉ String.utf8EncodeChar c := by
  have hc : 0x20 ≤ c.toNat := by
    simp only [isControl, Bool.or_eq_false_iff, decide_eq_false_iff_not] at h
    omega
  generalize hbs : String.utf8EncodeChar c = bs
  have hform : Utf8.Form c bs := hbs ▸ Utf8.form_utf8EncodeChar c
  intro hmem
  cases hform with
  | one h =>
      have hn := congrArg UInt8.toNat (List.mem_singleton.1 hmem)
      rw [UInt8.toNat_ofNat'] at hn
      simp at hn
      omega
  | two h h' =>
      simp only [List.mem_cons, List.not_mem_nil, or_false, ← UInt8.toNat_inj,
        Utf8.toNat_leadOfTwo, Utf8.toNat_continuation] at hmem
      simp at hmem
  | three h h' hs =>
      simp only [List.mem_cons, List.not_mem_nil, or_false, ← UInt8.toNat_inj,
        Utf8.toNat_leadOfThree, Utf8.toNat_continuation] at hmem
      simp at hmem
  | four h h' =>
      simp only [List.mem_cons, List.not_mem_nil, or_false, ← UInt8.toNat_inj,
        Utf8.toNat_leadOfFour, Utf8.toNat_continuation] at hmem
      simp at hmem

/-- Bytes without an escape character are read outside of sequences throughout. -/
theorem shownFrom_ground {plain bytes : List UInt8} (h : 0x1B ∉ bytes) :
    Visible.shownFrom .ground plain bytes = Visible.shownPlain (plain.reverse ++ bytes) := by
  induction bytes generalizing plain with
  | nil => simp [Visible.shownFrom]
  | cons b rest ih =>
      obtain ⟨hb, hrest⟩ := not_or.1 (mt List.mem_cons.2 h)
      rw [Visible.shownFrom, if_pos rfl, if_neg (fun he => hb he.symm), ih hrest]
      simp

theorem shownChar_eq {c : Char} (h : isControl c = false) : Visible.shownChar c = [c] := by
  simp only [isControl, Bool.or_eq_false_iff, Bool.and_eq_false_iff,
    decide_eq_false_iff_not] at h
  rw [Visible.shownChar, if_neg]
  simp only [Bool.or_eq_true, Bool.and_eq_true, decide_eq_true_eq]
  omega

/-- A terminal shows all of a text without controls. -/
theorem shown_eq_self {s : List Char} (h : ∀ c ∈ s, isControl c = false) :
    Visible.shown s = s := by
  have hmem : 0x1B ∉ Utf8.encode s := by
    simp only [Utf8.encode, List.mem_flatMap, not_exists, not_and]
    exact fun c hc => escape_notMem_utf8EncodeChar (h c hc)
  -- no byte is taken out, and the bytes are cut into the characters they came from
  rw [Visible.shown, shownFrom_ground hmem, List.reverse_nil, List.nil_append,
    Visible.shownPlain, Utf8.pieces_encode, List.flatMap_map]
  calc s.flatMap Visible.shownChar
      = s.flatMap fun c => [c] := List.flatMap_congr fun c hc => shownChar_eq (h c hc)
    _ = s := List.flatMap_singleton' s

end Shown

/-! ## Printable ASCII -/

/-- The ASCII characters that are printed. -/
def PrintableAscii (c : Char) : Prop :=
  0x20 ≤ c.toNat ∧ c.toNat < 0x7F

instance : DecidablePred PrintableAscii :=
  fun _ => inferInstanceAs (Decidable (_ ∧ _))

theorem clusterClass_ascii {c : Char} (h : PrintableAscii c) : clusterClass c = .other := by
  obtain ⟨h1, h2⟩ := h
  simp only [clusterClass]
  rw [if_pos (by omega), if_neg (by omega), if_neg (by omega), if_neg (by simp; omega)]

/-- Behind a printable ASCII character, or nothing, every printable ASCII character begins a
    cluster. -/
theorem divide_ascii (ctx : Context) (hctx : ctx.before = none ∨ ctx.before = some .other)
    {s : List Char} (h : Over PrintableAscii s) :
    divide ctx s = ([], s.map fun c => [c]) := by
  induction s generalizing ctx with
  | nil => rfl
  | cons c rest ih =>
      obtain ⟨hc, hrest⟩ := over_cons.1 h
      have hcls := clusterClass_ascii hc
      have hbreak : ctx.breaksBefore .other = true := by
        rcases hctx with hb | hb <;> simp [Context.breaksBefore, hb]
      -- of the context only the class of the character before matters, which stays the same
      have hnext : (ctx.next c).before = some .other := by simp [Context.next, hcls]
      simp only [divide, ih (ctx.next c) (Or.inr hnext) hrest, hcls, hbreak]
      rfl

theorem scan_ascii {s : List Char} (h : Over PrintableAscii s) :
    Width.scan s = ((s.length : Int), .nothing) := by
  induction s with
  | nil => rfl
  | cons c rest ih =>
      obtain ⟨⟨h1, h2⟩, hrest⟩ := over_cons.1 h
      have hadd : Width.add c .nothing = (1, .nothing) := by
        have hlf : c.toNat ≠ 0x0A := by omega
        have hcr : c.toNat ≠ 0x0D := by omega
        have hle : c.toNat ≤ 0xA0 := by omega
        simp [Width.add, Width.Behind.nothing, hlf, hcr, hle]
      simp only [Width.scan, ih hrest, hadd, List.length_cons]
      rw [Prod.mk.injEq]
      exact ⟨by omega, rfl⟩

theorem displayWidth_ascii {s : List Char} (h : Over PrintableAscii s) :
    displayWidth s = s.length := by
  rw [displayWidth, scan_ascii h, Int.toNat_natCast]

/-- Printable ASCII is a plain alphabet, in which every character takes one column. -/
theorem plain_printableAscii : PlainAlphabet PrintableAscii where
  clusters_eq s h := by rw [clusters, divide_ascii _ (Or.inl rfl) h]
  displayWidth_eq s h := by
    rw [displayWidth_ascii h]
    induction s with
    | nil => rfl
    | cons c rest ih =>
        obtain ⟨hc, hrest⟩ := over_cons.1 h
        rw [widthSum, ← ih hrest, displayWidth_ascii (over_cons.2 ⟨hc, over_nil⟩), Nat.add_comm]
        rfl
  width c h := Or.inl (displayWidth_ascii (s := [c]) (by simpa [Over] using h))
  printed c h := by
    obtain ⟨h1, h2⟩ := h
    simp only [isControl, Bool.or_eq_false_iff, Bool.and_eq_false_iff, decide_eq_false_iff_not]
    exact ⟨by omega, by omega⟩

/-! ## Characters that join nothing -/

/-- A character that is no part of another: no mark, no joiner, and no half of anything. -/
def Separate (c : Char) : Prop :=
  clusterClass c = .other ∨ clusterClass c = .control ∨ clusterClass c = .carriageReturn ∨
    clusterClass c = .lineFeed

instance : DecidablePred Separate :=
  fun _ => inferInstanceAs (Decidable (_ ∨ _))

/-- The characters of one byte. -/
def Ascii (c : Char) : Prop :=
  c.toNat < 0x80

instance : DecidablePred Ascii :=
  fun _ => inferInstanceAs (Decidable (_ < _))

theorem separate_ascii {c : Char} (h : Ascii c) : Separate c := by
  have h : c.toNat < 0x80 := h
  unfold Separate clusterClass
  dsimp only
  rw [if_pos h]
  split
  · exact .inr (.inr (.inl rfl))
  split
  · exact .inr (.inr (.inr rfl))
  split
  · exact .inr (.inl rfl)
  · exact .inl rfl

/-- Behind an ordinary character, separate ones begin a cluster of their own. -/
theorem joining_concat (front : List Char) {c : Char} (hc : clusterClass c = .other)
    {text : List Char} (htext : Over Separate text) : joining (front ++ [c]) text = [] := by
  have hbehind : (Context.start.behind (front ++ [c])).before = some .other := by
    rw [Context.behind, List.foldl_append, ← hc]
    rfl
  cases text with
  | nil => rfl
  | cons d rest =>
      have hbreak : (Context.start.behind (front ++ [c])).breaksBefore (clusterClass d) = true := by
        rcases (over_cons.1 htext).1 with hd | hd | hd | hd <;>
          simp [Context.breaksBefore, hbehind, hd]
      rw [joining, divide]
      dsimp only
      rw [if_pos hbreak]

end Promptline.Unicode
