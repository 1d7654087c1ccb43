import Promptline.Proofs.Terminal.ControlKeys

set_option autoImplicit false

/-! # What a decoder keeps

Between two chunks a decoder keeps the bytes of the sequence that is not complete, and whether a
carriage return came last. What is kept is always the beginning of a sequence that may still be
completed (`Unfinished`), and it is determined by the end of the input alone: the bytes that are
open are those of the unfinished sequence that the input ends in (`pending_run_eq_iff`). So no
decoder holds more than 32 bytes, and the only sequence that can be given up for its length is a
control sequence (`decode_keeps_unfinished`).

The reason is that a byte that begins an unfinished sequence does so whatever is open in front of
it (`read_opening`), and that all bytes behind it go on with that sequence. -/

namespace Promptline.Terminal.Decoder

open ControlSequence

/-- The bytes of a sequence that more bytes may still complete: an escape character, a control
    sequence without its final byte, or the first bytes of a character that takes more. -/
inductive Unfinished : List UInt8 → Prop
  | escape : Unfinished [0x1B]
  | control {parameters : List UInt8}
      (hparameters : ∀ p ∈ parameters, 0x20 ≤ p.toNat ∧ p.toNat ≤ 0x3F) :
      Unfinished (0x1B :: 0x5B :: parameters)
  | character {lead : UInt8} {tail : List UInt8} (hlead : 0xC0 ≤ lead.toNat ∧ lead.toNat ≤ 0xF7)
      (htail : ∀ b ∈ tail, 0x80 ≤ b.toNat ∧ b.toNat ≤ 0xBF)
      (hlength : tail.length + 1 < Utf8.expectedLength lead) :
      Unfinished (lead :: tail)

variable {d : Decoder}

/-! ## What is open may be completed -/

/-- What is open may still be completed. -/
def Formed : Decoder → Prop
  | ready _ => True
  | escape => True
  | control parameters => ∀ p ∈ parameters, isParameterByte p = true
  | character lead tail =>
    (∀ b ∈ tail, Utf8.isContinuation b = true) ∧ tail.length + 1 < Utf8.expectedLength lead

theorem Formed.unfinished (h : d.Formed) : d.pending = [] ∨ Unfinished d.pending := by
  cases d with
  | ready afterReturn => exact .inl rfl
  | escape => exact .inr .escape
  | control parameters => exact .inr (.control fun p hp => isParameterByte_iff.1 (h p hp))
  | character lead tail =>
      obtain ⟨htail, hlength⟩ := h
      have hlead := Utf8.lead_of_expectedLength (Nat.lt_of_le_of_lt (Nat.le_add_left _ _) hlength)
      refine .inr (.character hlead (fun b hb => ?_) hlength)
      have hrange := (Utf8.isContinuation_iff b).1 (htail b hb)
      omega

theorem formed_readFresh (afterReturn : Bool) (b : UInt8) : (readFresh afterReturn b).2.Formed := by
  rcases readFresh_state afterReturn b with ⟨r, hr⟩ | ⟨-, hr⟩ | ⟨hlead, hr⟩
  · rw [hr]
    trivial
  · rw [hr]
    trivial
  · rw [hr]
    exact ⟨fun c hc => absurd hc List.not_mem_nil, hlead⟩

theorem Formed.read (h : d.Formed) (b : UInt8) : (d.read b).2.Formed := by
  have hsnoc : ∀ {p : UInt8 → Bool} {bs : List UInt8}, (∀ c ∈ bs, p c = true) → p b = true →
      ∀ c ∈ bs ++ [b], p c = true := by
    intro p bs hbs hb c hc
    rcases List.mem_append.1 hc with hc | hc
    · exact hbs c hc
    · rw [List.mem_singleton.1 hc]
      exact hb
  cases d with
  | ready afterReturn => exact formed_readFresh afterReturn b
  | escape =>
      rw [Decoder.read, readEscape]
      split
      · exact fun p hp => absurd hp List.not_mem_nil
      · exact formed_readFresh false b
  | control parameters =>
      rw [Decoder.read, readControl]
      split
      · next hb => exact hsnoc h hb
      · split
        · trivial
        · exact formed_readFresh false b
  | character lead tail =>
      rw [Decoder.read, readCharacter]
      split
      · next hb =>
          refine ⟨hsnoc h.1 hb.1, ?_⟩
          rw [List.length_append]
          exact hb.2
      · split
        · trivial
        · exact formed_readFresh false b

theorem Formed.run (h : d.Formed) (bytes : List UInt8) : (d.run bytes).2.Formed := by
  induction bytes generalizing d with
  | nil => exact h
  | cons b rest ih => exact ih (h.read b)

theorem Formed.decode (h : d.Formed) (chunk : List UInt8) : (d.decode chunk).2.Formed := by
  unfold Decoder.decode
  dsimp only
  split
  · trivial
  · exact h.run chunk

theorem Formed.decodeChunks (h : d.Formed) (chunks : List (List UInt8)) :
    (d.decodeChunks chunks).2.Formed := by
  induction chunks generalizing d with
  | nil => exact h
  | cons chunk rest ih => exact ih (h.decode chunk)

/-! ## What is open stands last -/

theorem pending_readFresh_suffix (afterReturn : Bool) (b : UInt8) :
    (readFresh afterReturn b).2.pending <:+ [b] := by
  rcases readFresh_state afterReturn b with ⟨r, hr⟩ | ⟨hb, hr⟩ | ⟨-, hr⟩
  · rw [hr]
    exact List.nil_suffix
  · rw [hr, hb]
    exact List.suffix_refl _
  · rw [hr]
    exact List.suffix_refl _

theorem pending_read_suffix (d : Decoder) (b : UInt8) :
    (d.read b).2.pending <:+ d.pending ++ [b] := by
  have hfresh : ∀ front, (readFresh false b).2.pending <:+ front ++ [b] := fun front =>
    (pending_readFresh_suffix false b).trans (List.suffix_append front [b])
  cases d with
  | ready afterReturn => exact pending_readFresh_suffix afterReturn b
  | escape =>
      rw [read, readEscape]
      split
      · next hb =>
          rw [hb]
          exact List.suffix_refl _
      · exact hfresh _
  | control parameters =>
      rw [read, readControl]
      split
      · exact List.suffix_refl _
      · split
        · exact List.nil_suffix
        · exact hfresh _
  | character lead tail =>
      rw [read, readCharacter]
      split
      · exact List.suffix_refl _
      · split
        · exact List.nil_suffix
        · exact hfresh _

/-- What is open was read last. -/
theorem pending_run_suffix (d : Decoder) (bytes : List UInt8) :
    (d.run bytes).2.pending <:+ d.pending ++ bytes := by
  induction bytes generalizing d with
  | nil => simp
  | cons b rest ih =>
      have hread : (d.read b).2.pending ++ rest <:+ d.pending ++ [b] ++ rest :=
        List.suffix_append_self_iff.2 (pending_read_suffix d b)
      rw [List.append_assoc, List.singleton_append] at hread
      exact (ih (d.read b).2).trans hread

theorem pending_decode_suffix (d : Decoder) (chunk : List UInt8) :
    (d.decode chunk).2.pending <:+ d.pending ++ chunk := by
  unfold decode
  dsimp only
  split
  · exact List.nil_suffix
  · exact pending_run_suffix d chunk

theorem pending_decodeChunks_suffix (d : Decoder) (chunks : List (List UInt8)) :
    (d.decodeChunks chunks).2.pending <:+ d.pending ++ chunks.flatten := by
  induction chunks generalizing d with
  | nil => simp [decodeChunks]
  | cons chunk rest ih =>
      have hchunk : (d.decode chunk).2.pending ++ rest.flatten <:+
          d.pending ++ chunk ++ rest.flatten :=
        List.suffix_append_self_iff.2 (pending_decode_suffix d chunk)
      rw [List.append_assoc, ← List.flatten_cons] at hchunk
      exact (ih (d.decode chunk).2).trans hchunk

/-! ## What stands last is open -/

/-- A byte that begins an unfinished sequence begins it whatever is open. -/
theorem read_opening {b : UInt8} (hb : b = 0x1B ∨ 1 < Utf8.expectedLength b) (d : Decoder) :
    (d.read b).2 = (readFresh false b).2 := by
  have hrange : b.toNat = 0x1B ∨ 0xC0 ≤ b.toNat := by
    rcases hb with rfl | hb
    · exact .inl rfl
    · exact .inr (Utf8.lead_of_expectedLength hb).1
  have hparameter : isParameterByte b = false := by
    rw [Bool.eq_false_iff, ne_eq, isParameterByte_iff]
    omega
  have hfinal : isFinalByte b = false := by
    rw [Bool.eq_false_iff, ne_eq, isFinalByte_iff]
    omega
  have hcontinues : ¬ Utf8.isContinuation b = true := by
    rw [Utf8.isContinuation_iff]
    omega
  cases d with
  | ready afterReturn =>
      rcases hb with rfl | hb
      · rfl
      · rw [read, readFresh_lead hb, readFresh_lead hb]
  | escape =>
      have hbracket : b ≠ 0x5B := by
        rintro rfl
        exact absurd hrange (by decide)
      rw [read, readEscape, if_neg hbracket]
  | control parameters =>
      rw [read, readControl, hparameter, hfinal]
      rfl
  | character lead tail =>
      rw [read, readCharacter, if_neg fun h => hcontinues h.1]
      split
      · next c hc =>
          have hlast := (Utf8.shape_of_decode? hc).2 b
            (List.mem_append_right _ (List.mem_singleton_self b))
          exact absurd hlast hcontinues
      · rfl

/-- **An unfinished sequence is open at its end**, whatever was open in front of it. -/
theorem Unfinished.pending_run {tail : List UInt8} (h : Unfinished tail) (d : Decoder) :
    (d.run tail).2.pending = tail := by
  cases h with
  | escape =>
      rw [run_cons, read_opening (.inl rfl)]
      rfl
  | @control parameters hparameters =>
      have hopen : (d.run (0x1B :: 0x5B :: parameters)).2 = ((Decoder.control []).run parameters).2 := by
        rw [run_cons, read_opening (.inl rfl)]
        rfl
      rw [hopen, run_parameters fun p hp => isParameterByte_iff.2 (hparameters p hp)]
      rfl
  | @character lead tail hlead htail hlength =>
      have htail' : ∀ b ∈ tail, Utf8.isContinuation b = true := fun b hb =>
        (Utf8.isContinuation_iff b).2 (by have := htail b hb; omega)
      have hopens : 1 < Utf8.expectedLength lead :=
        Nat.lt_of_le_of_lt (Nat.le_add_left _ _) hlength
      have hopen : (d.run (lead :: tail)).2 = ((Decoder.character lead []).run tail).2 := by
        rw [run_cons, read_opening (.inr hopens), readFresh_lead hopens]
      rw [hopen, run_continuing htail' (by simpa using hlength)]
      rfl

/-- **What is open is the unfinished sequence that the input ends in**, the bytes that were open
    before included. -/
theorem pending_run_eq_iff (hd : Reached d) (chunk : List UInt8) {tail : List UInt8}
    (ht : Unfinished tail) :
    (d.run chunk).2.pending = tail ↔ tail <:+ d.pending ++ chunk := by
  constructor
  · rintro rfl
    exact pending_run_suffix d chunk
  · rintro ⟨front, hfront⟩
    have hrun : (ready d.afterReturn).run (d.pending ++ chunk) = d.run chunk := by
      rw [run_append, hd.coherent]
      rfl
    rw [← hrun, ← hfront, run_append]
    exact ht.pending_run _

/-! ## What is reported -/

theorem error_notMem_readFresh (afterReturn : Bool) (b : UInt8) (e : DecodeError) :
    .error e ∉ (readFresh afterReturn b).1 := by
  unfold readFresh
  split
  · simp
  split
  · simp
  split
  · cases afterReturn <;> simp
  split
  · simp
  split
  · simp
  split
  · simp
  split <;> simp

/-- No byte makes a sequence too long: that is found at the end of a chunk. -/
theorem sequenceTooLong_notMem_read (d : Decoder) (b : UInt8) (n : Nat) :
    .error (.sequenceTooLong n) ∉ (d.read b).1 := by
  have hfresh := error_notMem_readFresh false b (.sequenceTooLong n)
  cases d with
  | ready afterReturn => exact error_notMem_readFresh afterReturn b _
  | escape =>
      rw [read, readEscape]
      split
      · simp
      · simpa using hfresh
  | control parameters =>
      rw [read, readControl]
      split
      · simp
      · split
        · unfold controlPieces
          split
          · simp
          · next e he =>
              rw [List.mem_singleton, Piece.error.injEq]
              rintro rfl
              unfold ControlSequence.events at he
              dsimp only at he
              split at he
              · cases he
              · split at he
                · split at he <;> cases he
                · cases he
        · simpa using hfresh
  | character lead tail =>
      rw [read, readCharacter]
      split
      · simp
      · split
        · simp
        · simpa using hfresh

theorem mem_errors_iff {ps : List Piece} {e : DecodeError} : e ∈ errors ps ↔ .error e ∈ ps := by
  unfold errors
  rw [List.mem_filterMap]
  constructor
  · rintro ⟨p, hp, he⟩
    split at he
    · cases he
      exact hp
    · cases he
  · exact fun h => ⟨_, h, rfl⟩

theorem sequenceTooLong_notMem_run (d : Decoder) (bytes : List UInt8) (n : Nat) :
    .sequenceTooLong n ∉ errors (d.run bytes).1 := by
  rw [mem_errors_iff]
  induction bytes generalizing d with
  | nil => simp
  | cons b rest ih =>
      rw [run_cons, List.mem_append]
      exact not_or.2 ⟨sequenceTooLong_notMem_read d b n, ih _⟩

/-- A chunk reports a sequence as too long exactly if what is open at its end is. -/
theorem sequenceTooLong_mem_decode_iff (d : Decoder) (chunk : List UInt8) (n : Nat) :
    .sequenceTooLong n ∈ (d.decode chunk).1.errors ↔
      (d.run chunk).2.pending.length = n ∧ maxPending < n := by
  have hnone := sequenceTooLong_notMem_run d chunk n
  unfold decode
  dsimp only
  split
  · next hlong =>
      rw [List.mem_append, List.mem_singleton, DecodeError.sequenceTooLong.injEq]
      constructor
      · intro h
        obtain rfl := h.resolve_left hnone
        exact ⟨rfl, hlong⟩
      · exact fun h => .inr h.1.symm
  · next hshort =>
      refine iff_of_false hnone ?_
      rintro ⟨rfl, hlong⟩
      exact hshort hlong

/-- Only a control sequence can grow too long. -/
theorem Unfinished.exists_parameters {tail : List UInt8} (h : Unfinished tail)
    (hlong : maxPending < tail.length) :
    ∃ parameters, tail = 0x1B :: 0x5B :: parameters ∧
      ∀ p ∈ parameters, 0x20 ≤ p.toNat ∧ p.toNat ≤ 0x3F := by
  cases h with
  | escape => exact absurd hlong (by decide)
  | control hparameters => exact ⟨_, rfl, hparameters⟩
  | @character lead tail hlead htail hlength =>
      have hle := Utf8.expectedLength_le lead
      rw [maxPending, List.length_cons] at hlong
      omega

/-- What is reported as too long is a control sequence of more than 32 bytes that the chunk ends in,
    the bytes that were open before included. -/
theorem sequenceTooLong_mem_iff (hd : Reached d) (hformed : d.Formed) (chunk : List UInt8)
    (n : Nat) :
    .sequenceTooLong n ∈ (d.decode chunk).1.errors ↔
      ∃ parameters, (∀ p ∈ parameters, 0x20 ≤ p.toNat ∧ p.toNat ≤ 0x3F) ∧
        0x1B :: 0x5B :: parameters <:+ d.pending ++ chunk ∧
        parameters.length + 2 = n ∧ 32 < n := by
  rw [sequenceTooLong_mem_decode_iff]
  constructor
  · rintro ⟨rfl, hlong⟩
    have hopen : Unfinished (d.run chunk).2.pending :=
      (hformed.run chunk).unfinished.resolve_left fun hnil => by simp [hnil] at hlong
    obtain ⟨parameters, heq, hparameters⟩ := hopen.exists_parameters hlong
    refine ⟨parameters, hparameters, ?_, ?_, hlong⟩
    · rw [← heq]
      exact pending_run_suffix d chunk
    · rw [heq]
      rfl
  · rintro ⟨parameters, hparameters, hlast, rfl, hlong⟩
    rw [(pending_run_eq_iff hd chunk (.control hparameters)).2 hlast]
    exact ⟨rfl, hlong⟩

/-- An unfinished sequence is kept if it is open and not too long. -/
theorem Unfinished.pending_decode_eq_iff {chunk tail : List UInt8} (h : Unfinished tail) :
    (d.decode chunk).2.pending = tail ↔
      (d.run chunk).2.pending = tail ∧ tail.length ≤ 32 := by
  unfold decode
  dsimp only
  split
  · next hlong =>
      refine iff_of_false ?_ ?_
      · rintro rfl
        cases h
      · rintro ⟨rfl, hshort⟩
        exact absurd hlong (Nat.not_lt.2 hshort)
  · next hshort =>
      constructor
      · rintro rfl
        exact ⟨rfl, Nat.not_lt.1 hshort⟩
      · exact fun h => h.1

/-! ## Chunks -/

/-- Nothing is open behind a carriage return. -/
theorem pending_of_afterReturn (h : d.afterReturn = true) : d.pending = [] := by
  cases d with
  | ready afterReturn => rfl
  | _ => cases h

theorem decodeChunks_follows {previous : Option UInt8} (h : Follows d previous)
    (chunks : List (List UInt8)) :
    Follows (d.decodeChunks chunks).2 (lastByte previous chunks.flatten) := by
  induction chunks generalizing d previous with
  | nil => exact h
  | cons chunk rest ih =>
      rw [List.flatten_cons, lastByte_append]
      exact ih (decode_controlKeys h chunk).2

/-- **What is kept between chunks.** Whatever chunks a new decoder has been fed, after the next one
    it keeps nothing or the bytes of an unfinished sequence, at most 32 of them (so at most 30
    parameter bytes behind the bracket), and these are the last bytes of the whole input. More
    exactly, it keeps the unfinished sequence that the bytes kept before and the chunk end in, unless
    that is longer than 32 bytes. A sequence is reported as too long exactly if it is a control
    sequence of more than 32 bytes that they end in. A line feed would belong to a newline that was
    read already exactly if the last byte of the whole input is a carriage return, and then nothing
    is kept. -/
theorem decode_keeps_unfinished (earlier : List (List UInt8)) (chunk : List UInt8) :
    let before := (start.decodeChunks earlier).2
    let decoded := (before.decode chunk).1
    let after := (before.decode chunk).2
    let input := earlier.flatten ++ chunk
    (after.pending = [] ∨ Unfinished after.pending) ∧
      after.pending.length ≤ 32 ∧
      after.pending <:+ input ∧
      (∀ tail, Unfinished tail →
        (after.pending = tail ↔ tail <:+ before.pending ++ chunk ∧ tail.length ≤ 32)) ∧
      (∀ n, .sequenceTooLong n ∈ decoded.errors ↔
        ∃ parameters, (∀ p ∈ parameters, 0x20 ≤ p.toNat ∧ p.toNat ≤ 0x3F) ∧
          0x1B :: 0x5B :: parameters <:+ before.pending ++ chunk ∧
          parameters.length + 2 = n ∧ 32 < n) ∧
      (after.afterReturn = true ↔ input.getLast? = some 0x0D) ∧
      (after.afterReturn = true → after.pending = []) := by
  intro before decoded after input
  have hreached : Reached before := ⟨earlier, rfl⟩
  have hstart : start.Formed := trivial
  have hformed : before.Formed := hstart.decodeChunks earlier
  have hsuffix : before.pending <:+ earlier.flatten := pending_decodeChunks_suffix start earlier
  have hfollows : Follows after (lastByte none input) := by
    have hnone : Follows start none := ⟨fun h => absurd h (by decide), fun h => absurd h (by simp)⟩
    rw [lastByte_append]
    exact (decode_controlKeys (decodeChunks_follows hnone earlier) chunk).2
  refine ⟨(hformed.decode chunk).unfinished, pending_decode_le before chunk, ?_, ?_, ?_, ?_, ?_⟩
  · exact (pending_decode_suffix before chunk).trans (List.suffix_append_self_iff.2 hsuffix)
  · intro tail htail
    rw [← pending_run_eq_iff hreached chunk htail]
    exact htail.pending_decode_eq_iff
  · exact sequenceTooLong_mem_iff hreached hformed chunk
  · rw [lastByte_none] at hfollows
    exact hfollows
  · exact pending_of_afterReturn

/-- The longest control sequence that is kept, and one that is a byte longer. -/
example :
    (start.decode (0x1B :: 0x5B :: List.replicate 30 0x33)).2.pending.length = 32 ∧
      (start.decode (0x1B :: 0x5B :: List.replicate 31 0x33)).1.errors = [.sequenceTooLong 33] := by
  decide

end Promptline.Terminal.Decoder
