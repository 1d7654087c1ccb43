import Promptline.Proofs.Terminal.ControlKeys
import Promptline.Proofs.Unicode.Alphabet

set_option autoImplicit false

/-! # The texts of ASCII input

Bytes below `0x80` are characters by themselves, or keys, or belong to a control sequence, which
stands for no text. So all that they come to is printable ASCII; but they may break off a character
that other input has left open, and each byte of that is then shown as the replacement character
(`textOver_decodeChunks`). -/

namespace Promptline.Terminal

open Unicode

/-- The text of an event is over an alphabet, if it is a text. -/
def Event.TextOver (A : Char → Prop) (e : Event) : Prop :=
  ∀ s, e = .text s → Over A s

theorem Event.TextOver.of_isPlain {A : Char → Prop} {e : Event} (h : e.isPlain = false) :
    e.TextOver A := by
  rintro s rfl
  exact absurd h (by simp [Event.isPlain])

/-- A printable ASCII character, or the one that is shown for bytes that belong to none. -/
def Ordinary (c : Char) : Prop :=
  PrintableAscii c ∨ c = Utf8.replacement

theorem Ordinary.clusterClass_eq {c : Char} (h : Ordinary c) : clusterClass c = .other := by
  rcases h with h | rfl
  · exact clusterClass_ascii h
  · decide +kernel

namespace Decoder

/-! ## Gathering -/

section Gathering

variable {A : Char → Prop}

/-- What a piece adds to a text is over an alphabet. -/
def Piece.TextOver (A : Char → Prop) : Piece → Prop
  | char c => A c
  | invalid _ => A Utf8.replacement
  | event e => e.TextOver A
  | dropped _ | error _ => True

theorem textOver_of_mem_withRun {run : List Char} {es : List Event} (hrun : Over A run)
    (hes : ∀ e ∈ es, e.TextOver A) : ∀ e ∈ withRun run es, e.TextOver A := by
  unfold withRun
  split
  · exact hes
  · intro e he
    rcases List.mem_cons.1 he with rfl | he
    · intro s hs
      rwa [← Event.text.inj hs]
    · exact hes e he

theorem textOver_gather {ps : List Piece} (h : ∀ p ∈ ps, p.TextOver A) :
    Over A (gather ps).1 ∧ ∀ e ∈ (gather ps).2, e.TextOver A := by
  induction ps with
  | nil => exact ⟨over_nil, fun e he => absurd he List.not_mem_nil⟩
  | cons p rest ih =>
      obtain ⟨hp, hrest⟩ := List.forall_mem_cons.1 h
      obtain ⟨hrun, hes⟩ := ih hrest
      have hmore := textOver_of_mem_withRun hrun hes
      cases p with
      | char c => exact ⟨over_cons.2 ⟨hp, hrun⟩, hes⟩
      | invalid b => exact ⟨over_cons.2 ⟨hp, hrun⟩, hes⟩
      | dropped b => exact ⟨hrun, hes⟩
      | event e => exact ⟨over_nil, List.forall_mem_cons.2 ⟨hp, hmore⟩⟩
      | error e => exact ⟨over_nil, hmore⟩

/-- The texts of pieces are made up of what each of them adds. -/
theorem textOver_events {ps : List Piece} (h : ∀ p ∈ ps, p.TextOver A) :
    ∀ e ∈ events ps, e.TextOver A :=
  textOver_of_mem_withRun (textOver_gather h).1 (textOver_gather h).2

end Gathering

/-! ## Reading -/

theorem textOver_key? {A : Char → Prop} {b : UInt8} {e : Event} (h : key? b = some e) :
    e.TextOver A := by
  rintro s rfl
  unfold key? at h
  split at h <;> cases h

theorem printableAscii_of_key? {b : UInt8} (hb : b.toNat < 0x80) (hkey : key? b = none)
    (hlow : ¬ b < 0x20) : PrintableAscii (Char.ofNat b.toNat) := by
  have hdel : b.toNat ≠ 0x7F := by
    intro hdel
    have hb : b = 0x7F := UInt8.toNat_inj.1 hdel
    rw [hb] at hkey
    cases hkey
  have hleast : 0x20 ≤ b.toNat := Nat.le_of_not_lt fun hlt => hlow (UInt8.lt_iff_toNat_lt.2 hlt)
  have hvalid : b.toNat.isValidChar := .inl (by omega)
  rw [PrintableAscii, Utf8.toNat_charOfNat hvalid]
  omega

theorem textOver_readFresh (afterReturn : Bool) {b : UInt8} (hb : b.toNat < 0x80) :
    ∀ p ∈ (readFresh afterReturn b).1, p.TextOver Ordinary := by
  have hone : ∀ {p : Piece}, p.TextOver Ordinary → ∀ q ∈ [p], q.TextOver Ordinary := by
    intro p hp q hq
    rwa [List.mem_singleton.1 hq]
  have hnone : ∀ q ∈ ([] : List Piece), q.TextOver Ordinary := fun q hq =>
    absurd hq List.not_mem_nil
  have hnewline : (Piece.event .newline).TextOver Ordinary := fun s hs => nomatch hs
  unfold readFresh
  split
  · exact hnone
  split
  · exact hone hnewline
  split
  · split
    · exact hnone
    · exact hone hnewline
  split
  · next e he => exact hone (textOver_key? he)
  · next hkey =>
      split
      · exact hone trivial
      · next hlow =>
          split
          · exact hnone
          split
          · next c hc =>
              rw [Utf8.decode?, if_pos (UInt8.lt_iff_toNat_lt.2 hb)] at hc
              obtain rfl := Option.some.inj hc
              exact hone (.inl (printableAscii_of_key? hb hkey hlow))
          · exact hone (.inr rfl)

/-- One byte. It ends what is open, unless it goes on with a control sequence. -/
theorem textOver_read (d : Decoder) {b : UInt8} (hb : b.toNat < 0x80) :
    ∀ p ∈ (d.read b).1, p.TextOver Ordinary := by
  have hfresh := fun afterReturn => textOver_readFresh afterReturn hb
  have hnone : ∀ q ∈ ([] : List Piece), q.TextOver Ordinary := fun q hq =>
    absurd hq List.not_mem_nil
  cases d with
  | ready afterReturn => exact hfresh afterReturn
  | escape =>
      rw [read, readEscape]
      split
      · exact hnone
      · exact List.forall_mem_cons.2 ⟨trivial, hfresh false⟩
  | control parameters =>
      rw [read, readControl]
      split
      · exact hnone
      split
      · unfold controlPieces
        split
        · next es hes =>
            intro p hp
            obtain ⟨e, he, rfl⟩ := List.mem_map.1 hp
            exact .of_isPlain (ControlSequence.isPlain_of_mem_events hes e he)
        · exact List.forall_mem_cons.2 ⟨trivial, hnone⟩
      · exact List.forall_mem_cons.2 ⟨trivial, hfresh false⟩
  | character lead tail =>
      have hcontinues : Utf8.isContinuation b ≠ true := by
        rw [Ne, Utf8.isContinuation_iff]
        omega
      have hdecode : Utf8.decode? (lead :: tail ++ [b]) = none := by
        rw [Option.eq_none_iff_forall_ne_some]
        intro c hc
        obtain ⟨_, htail⟩ := Utf8.shape_of_decode? hc
        exact hcontinues (htail b (List.mem_append_right _ (List.mem_singleton_self b)))
      rw [read, readCharacter, if_neg fun h => hcontinues h.1, hdecode]
      intro p hp
      rcases List.mem_append.1 hp with hp | hp
      · obtain ⟨_, _, rfl⟩ := List.mem_map.1 hp
        exact .inr rfl
      · exact hfresh false p hp

theorem textOver_run (d : Decoder) {bytes : List UInt8} (hbytes : ∀ b ∈ bytes, b.toNat < 0x80) :
    ∀ p ∈ (d.run bytes).1, p.TextOver Ordinary := by
  induction bytes generalizing d with
  | nil => exact fun p hp => absurd hp List.not_mem_nil
  | cons b rest ih =>
      obtain ⟨hb, hrest⟩ := List.forall_mem_cons.1 hbytes
      rw [run_cons]
      intro p hp
      rcases List.mem_append.1 hp with hp | hp
      · exact textOver_read d hb p hp
      · exact ih _ hrest p hp

theorem textOver_decode (d : Decoder) {chunk : List UInt8} (hchunk : ∀ b ∈ chunk, b.toNat < 0x80) :
    ∀ e ∈ (d.decode chunk).1.events, e.TextOver Ordinary := by
  have hevents := textOver_events (textOver_run d hchunk)
  unfold decode
  dsimp only
  split
  · exact hevents
  · exact hevents

/-- **Texts of ASCII input**, in whatever state and whatever chunks it is decoded. -/
theorem textOver_decodeChunks (d : Decoder) {chunks : List (List UInt8)}
    (hchunks : ∀ b ∈ chunks.flatten, b.toNat < 0x80) :
    ∀ e ∈ (d.decodeChunks chunks).1.events, e.TextOver Ordinary := by
  induction chunks generalizing d with
  | nil => exact fun e he => absurd he List.not_mem_nil
  | cons chunk rest ih =>
      rw [List.flatten_cons, List.forall_mem_append] at hchunks
      obtain ⟨hchunk, hrest⟩ := hchunks
      intro e he
      rcases List.mem_append.1 he with he | he
      · exact textOver_decode d hchunk e he
      · exact ih _ hrest e he

end Decoder

end Promptline.Terminal
