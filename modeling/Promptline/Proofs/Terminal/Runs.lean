import Promptline.Proofs.Text.Utf8
import Promptline.Terminal.Decoder

set_option autoImplicit false

/-! # What the decoder reads

Runs of the decoder over bytes that belong together: the bytes of one character, the parameters of
a control sequence, a complete control sequence. -/

namespace Promptline.Terminal.ControlSequence

theorem isParameterByte_iff {b : UInt8} :
    isParameterByte b = true ↔ 0x20 ≤ b.toNat ∧ b.toNat ≤ 0x3F := by
  simp [isParameterByte, UInt8.le_iff_toNat_le]

theorem isFinalByte_iff {b : UInt8} :
    isFinalByte b = true ↔ 0x40 ≤ b.toNat ∧ b.toNat ≤ 0x7E := by
  simp [isFinalByte, UInt8.le_iff_toNat_le]

end Promptline.Terminal.ControlSequence

namespace Promptline.Terminal.Decoder

@[simp]
theorem run_nil (d : Decoder) : d.run [] = ([], d) :=
  rfl

theorem run_cons (d : Decoder) (b : UInt8) (rest : List UInt8) :
    d.run (b :: rest) =
      ((d.read b).1 ++ ((d.read b).2.run rest).1, ((d.read b).2.run rest).2) :=
  rfl

/-! ## Characters -/

theorem key?_eq_none {b : UInt8} (h : 0x20 ≤ b.toNat) (hdel : b.toNat ≠ 0x7F) :
    key? b = none := by
  unfold key?
  split
  all_goals first | rfl | exact absurd h (by decide) | exact absurd rfl hdel

/-- A byte that is no control character begins a character, or is one, or is invalid. -/
theorem readFresh_printed {b : UInt8} (h : 0x20 ≤ b.toNat) (hdel : b.toNat ≠ 0x7F)
    (afterReturn : Bool) :
    readFresh afterReturn b =
      if 1 < Utf8.expectedLength b then ([], character b [])
      else match Utf8.decode? [b] with
        | some c => ([.char c], ready false)
        | none => ([.invalid b], ready false) := by
  have hne : ∀ n : UInt8, n.toNat < 0x20 → b ≠ n := fun n hn he => by
    rw [he] at h
    exact absurd h (Nat.not_le.2 hn)
  have hlow : ¬ b < 0x20 := by
    rw [UInt8.lt_iff_toNat_lt]
    exact Nat.not_lt.2 h
  rw [readFresh, if_neg (hne _ (by decide)), if_neg (hne _ (by decide)),
    if_neg (hne _ (by decide)), key?_eq_none h hdel]
  exact if_neg hlow

/-- A lead byte opens a character. -/
theorem readFresh_lead {b : UInt8} (h : 1 < Utf8.expectedLength b) (afterReturn : Bool) :
    readFresh afterReturn b = ([], character b []) := by
  have hb := Utf8.lead_of_expectedLength h
  rw [readFresh_printed (by omega) (by omega), if_pos h]

/-- What may be open behind a byte that is read afresh: nothing, an escape character, or a
    character that the byte begins. -/
theorem readFresh_state (afterReturn : Bool) (b : UInt8) :
    (∃ r, (readFresh afterReturn b).2 = ready r) ∨
      b = 0x1B ∧ (readFresh afterReturn b).2 = escape ∨
      1 < Utf8.expectedLength b ∧ (readFresh afterReturn b).2 = character b [] := by
  unfold readFresh
  split
  · next hb => exact .inr (.inl ⟨hb, rfl⟩)
  split
  · exact .inl ⟨_, rfl⟩
  split
  · exact .inl ⟨_, rfl⟩
  split
  · exact .inl ⟨_, rfl⟩
  split
  · exact .inl ⟨_, rfl⟩
  split
  · next hlead => exact .inr (.inr ⟨hlead, rfl⟩)
  split
  · exact .inl ⟨_, rfl⟩
  · exact .inl ⟨_, rfl⟩

/-- A continuation byte that is not the last one stays open. -/
theorem readCharacter_open {lead b : UInt8} {tail : List UInt8}
    (hb : Utf8.isContinuation b = true)
    (hlength : tail.length + 2 < Utf8.expectedLength lead) :
    readCharacter lead tail b = ([], character lead (tail ++ [b])) := by
  rw [readCharacter, if_pos ⟨hb, hlength⟩]

/-- Continuation bytes stay open as long as there are too few of them. -/
theorem run_continuing {lead : UInt8} {tail bs : List UInt8}
    (hbs : ∀ b ∈ bs, Utf8.isContinuation b = true)
    (hlength : tail.length + bs.length + 1 < Utf8.expectedLength lead) :
    (character lead tail).run bs = ([], character lead (tail ++ bs)) := by
  induction bs generalizing tail with
  | nil => rw [run_nil, List.append_nil]
  | cons b rest ih =>
      rw [List.length_cons] at hlength
      have hmore : (tail ++ [b]).length + rest.length + 1 < Utf8.expectedLength lead := by
        rw [List.length_append, List.length_singleton]
        omega
      rw [run_cons, read, readCharacter_open (hbs b (List.mem_cons_self ..)) (by omega),
        ih (fun c hc => hbs c (List.mem_cons_of_mem _ hc)) hmore]
      simp

/-- The last byte of a character completes it. -/
theorem readCharacter_complete {lead b : UInt8} {tail : List UInt8} {c : Char}
    (hlength : Utf8.expectedLength lead = tail.length + 2)
    (hc : Utf8.decode? (lead :: tail ++ [b]) = some c) :
    readCharacter lead tail b = ([.char c], ready false) := by
  rw [readCharacter, if_neg fun h => absurd h.2 (by omega), hc]

/-- **Characters are read as they were written.** -/
theorem run_utf8EncodeChar {c : Char} (hc : isAsciiControl c = false) (afterReturn : Bool) :
    (ready afterReturn).run (String.utf8EncodeChar c) = ([.char c], ready false) := by
  simp only [isAsciiControl, Bool.or_eq_false_iff, decide_eq_false_iff_not, beq_eq_false_iff_ne]
    at hc
  generalize hbs : String.utf8EncodeChar c = bs
  have hform : Utf8.Form c bs := hbs ▸ Utf8.form_utf8EncodeChar c
  have hdecode := hform.decode?_eq
  -- one case for each number of bytes: the last one completes the character
  cases hform with
  | one h =>
      have hn : (UInt8.ofNat c.toNat).toNat = c.toNat := by
        rw [UInt8.toNat_ofNat']
        omega
      have hlength : Utf8.expectedLength (UInt8.ofNat c.toNat) = 1 := by
        rw [Utf8.expectedLength_eq, hn, if_pos (by omega)]
      rw [run_cons, run_nil, read, readFresh_printed (by omega) (by omega), hlength,
        if_neg (by decide), hdecode]
      rfl
  | two h h' =>
      rw [run_cons, read, readFresh_lead (by simp), run_cons, read,
        readCharacter_complete (c := c) (by simp) (by exact hdecode)]
      rfl
  | three h h' hs =>
      rw [run_cons, read, readFresh_lead (by simp), run_cons, read,
        readCharacter_open (by simp) (by simp), run_cons, read,
        readCharacter_complete (c := c) (by simp) (by exact hdecode)]
      rfl
  | four h h' =>
      rw [run_cons, read, readFresh_lead (by simp), run_cons, read,
        readCharacter_open (by simp) (by simp), run_cons, read,
        readCharacter_open (by simp) (by simp), run_cons, read,
        readCharacter_complete (c := c) (by simp) (by exact hdecode)]
      rfl

/-! ## Control sequences -/

/-- Parameter bytes are collected. -/
theorem run_parameters {qs : List UInt8}
    (hqs : ∀ q ∈ qs, ControlSequence.isParameterByte q = true) (ps : List UInt8) :
    (control ps).run qs = ([], control (ps ++ qs)) := by
  induction qs generalizing ps with
  | nil => rw [run_nil, List.append_nil]
  | cons q rest ih =>
      rw [run_cons, read, readControl, if_pos (hqs q (List.mem_cons_self ..)),
        ih fun r hr => hqs r (List.mem_cons_of_mem _ hr)]
      simp

/-- No byte can both stand in a control sequence and end it. -/
theorem isParameterByte_of_isFinalByte {b : UInt8} (h : ControlSequence.isFinalByte b = true) :
    ControlSequence.isParameterByte b = false := by
  rw [ControlSequence.isFinalByte_iff] at h
  rw [Bool.eq_false_iff, ne_eq, ControlSequence.isParameterByte_iff]
  omega

/-- A complete control sequence comes to what its parameters and its last byte mean. -/
theorem run_controlSequence {ps : List UInt8} {final : UInt8}
    (hps : ∀ p ∈ ps, ControlSequence.isParameterByte p = true)
    (hfinal : ControlSequence.isFinalByte final = true) (afterReturn : Bool) :
    (ready afterReturn).run (0x1B :: 0x5B :: (ps ++ [final])) =
      (controlPieces ps final, ready false) := by
  have hopen : (ready afterReturn).run [0x1B, 0x5B] = ([], control []) := rfl
  have hbytes : 0x1B :: 0x5B :: (ps ++ [final]) = [0x1B, 0x5B] ++ (ps ++ [final]) := rfl
  rw [hbytes, run_append, hopen, run_append, run_parameters hps, run_cons, run_nil, read,
    readControl, isParameterByte_of_isFinalByte hfinal, if_neg (by simp), if_pos hfinal]
  simp

end Promptline.Terminal.Decoder
