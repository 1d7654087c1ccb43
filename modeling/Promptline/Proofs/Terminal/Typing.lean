import Promptline.Proofs.Terminal.Fragments
import Promptline.Proofs.Terminal.RoundTrip

set_option autoImplicit false

/-! # Typed lines

A line is typed as the bytes of its characters with a carriage return behind them, and arrives in
chunks that may end inside a character. Without an escape character, no more than a part of one
character is ever open (`Textual.run`), so nothing is given up at the end of a chunk. Each chunk
comes to the characters that it completes, and the chunk with the carriage return to the newline
too (`decode_typed`). -/

namespace Promptline.Terminal.Decoder

/-! ## Without escape characters -/

/-- Nothing is open but a part of one character. -/
def Textual : Decoder → Prop
  | ready _ => True
  | character lead tail => tail.length + 1 < Utf8.expectedLength lead
  | _ => False

theorem textual_of_pending {d : Decoder} (h : d.pending = []) : d.Textual := by
  cases d with
  | ready afterReturn => trivial
  | _ => exact absurd h (by simp [pending])

theorem textual_readFresh (afterReturn : Bool) {b : UInt8} (hb : b ≠ 0x1B) :
    (readFresh afterReturn b).2.Textual := by
  rcases readFresh_state afterReturn b with ⟨r, hr⟩ | ⟨hescape, -⟩ | ⟨hlead, hr⟩
  · rw [hr]
    trivial
  · exact absurd hescape hb
  · rw [hr]
    exact hlead

variable {d : Decoder}

theorem Textual.read (h : d.Textual) {b : UInt8} (hb : b ≠ 0x1B) : (d.read b).2.Textual := by
  cases d with
  | ready afterReturn => exact textual_readFresh afterReturn hb
  | escape => exact absurd h (by simp [Textual])
  | control parameters => exact absurd h (by simp [Textual])
  | character lead tail =>
      rw [Decoder.read, readCharacter]
      split
      · next hopen =>
          have hlength : (tail ++ [b]).length + 1 < Utf8.expectedLength lead := by
            rw [List.length_append]
            exact hopen.2
          exact hlength
      · split
        · trivial
        · exact textual_readFresh false hb

theorem Textual.run (h : d.Textual) {bytes : List UInt8} (hbytes : 0x1B ∉ bytes) :
    (d.run bytes).2.Textual := by
  induction bytes generalizing d with
  | nil => exact h
  | cons b rest ih =>
      obtain ⟨hb, hrest⟩ := not_or.1 (mt List.mem_cons.2 hbytes)
      exact ih (h.read fun he => hb he.symm) hrest

theorem Textual.pending_le (h : d.Textual) : d.pending.length ≤ maxPending := by
  cases d with
  | ready afterReturn => exact Nat.zero_le _
  | character lead tail =>
      have hopen : tail.length + 1 < Utf8.expectedLength lead := h
      have hlength : Utf8.expectedLength lead ≤ 4 := Utf8.expectedLength_le lead
      show tail.length + 1 ≤ 32
      omega
  | _ => exact absurd h (by simp [Textual])

/-- A chunk without escape characters is decoded without giving anything up. -/
theorem Textual.decode (h : d.Textual) {chunk : List UInt8} (hchunk : 0x1B ∉ chunk) :
    (d.decode chunk).1.events = events (d.run chunk).1 ∧
      (d.decode chunk).2 = (d.run chunk).2 := by
  rw [decode_eq_run (h.run hchunk).pending_le]
  exact ⟨rfl, rfl⟩

/-! ## Characters and a carriage return -/

/-- What a typed line is read as. -/
def typed (s : List Char) : List Piece :=
  s.map .char ++ [.event .newline]

theorem gather_map_char (s : List Char) (ps : List Piece) :
    gather (s.map .char ++ ps) = (s ++ (gather ps).1, (gather ps).2) := by
  induction s with
  | nil => rfl
  | cons c rest ih =>
      rw [List.map_cons, List.cons_append, gather, ih]
      rfl

theorem events_map_char (s : List Char) : events (s.map .char) = withRun s [] := by
  have hgather := gather_map_char s []
  rw [List.append_nil] at hgather
  rw [events, hgather]
  simp [gather]

theorem events_typed (s : List Char) : events (typed s) = withRun s [.newline] := by
  rw [events, typed, gather_map_char]
  simp [gather, withRun]

/-- A part of a typed line is some of its characters, or all of it. -/
theorem append_eq_typed {ps qs : List Piece} {s : List Char} (h : ps ++ qs = typed s) :
    (∃ s₁ s₂, s = s₁ ++ s₂ ∧ ps = s₁.map .char ∧ qs = typed s₂) ∨ ps = typed s ∧ qs = [] := by
  rcases List.append_eq_append_iff.1 h with ⟨more, hmap, hqs⟩ | ⟨more, hps, hlast⟩
  · obtain ⟨s₁, s₂, hs, hs₁, hs₂⟩ := List.map_eq_append_iff.1 hmap
    exact Or.inl ⟨s₁, s₂, hs, hs₁.symm, by rw [hqs, ← hs₂, typed]⟩
  · rcases List.singleton_eq_append_iff.1 hlast with ⟨hmore, hqs⟩ | ⟨hmore, hqs⟩
    · refine Or.inl ⟨s, [], (List.append_nil s).symm, ?_, hqs⟩
      rw [hps, hmore, List.append_nil]
    · refine Or.inr ⟨?_, hqs⟩
      rw [hps, hmore, typed]

/-- **One chunk of a typed line.** It completes some of the characters, and what is left to be read
    is a line typed without them; or it completes the line, and nothing is left. -/
theorem decode_typed (h : d.Textual) {chunk rest : List UInt8} (hchunk : 0x1B ∉ chunk)
    {s : List Char} (hrun : (d.run (chunk ++ rest)).1 = typed s) :
    (∃ s₁ s₂, s = s₁ ++ s₂ ∧ (d.decode chunk).1.events = withRun s₁ [] ∧
        ((d.decode chunk).2.run rest).1 = typed s₂) ∨
      (d.decode chunk).1.events = withRun s [.newline] ∧
        ((d.decode chunk).2.run rest).1 = [] := by
  obtain ⟨hevents, hlast⟩ := h.decode hchunk
  rw [run_append] at hrun
  rw [hevents, hlast]
  rcases append_eq_typed hrun with ⟨s₁, s₂, hs, hfirst, hrest⟩ | ⟨hfirst, hrest⟩
  · refine Or.inl ⟨s₁, s₂, hs, ?_, hrest⟩
    rw [hfirst, events_map_char]
  · refine Or.inr ⟨?_, hrest⟩
    rw [hfirst, events_typed]

/-- The escape character is not typed. -/
theorem escape_notMem_line {s : List Char} (h : ∀ c ∈ s, isAsciiControl c = false) :
    0x1B ∉ Utf8.encode s ++ [0x0D] := by
  intro hmem
  rcases List.mem_append.1 hmem with hmem | hreturn
  · obtain ⟨c, hc, hb⟩ := List.mem_flatMap.1 hmem
    have hcontrol := h c hc
    simp only [isAsciiControl, Bool.or_eq_false_iff, decide_eq_false_iff_not] at hcontrol
    have hle := (Utf8.form_utf8EncodeChar c).le_of_mem (Nat.le_of_not_lt hcontrol.1) _ hb
    exact absurd hle (by decide)
  · exact absurd (List.mem_singleton.1 hreturn) (by decide)

/-- A line and the return behind it are read as they were typed. -/
theorem run_typed (hd : d.pending = []) {s : List Char} (hs : ∀ c ∈ s, isAsciiControl c = false) :
    (d.run (Utf8.encode s ++ [0x0D])).1 = typed s := by
  cases d with
  | ready afterReturn =>
      obtain ⟨last, hrun⟩ := run_encode_text hs afterReturn
      rw [run_append, hrun]
      rfl
  | _ => exact absurd hd (by simp [pending])

end Promptline.Terminal.Decoder
