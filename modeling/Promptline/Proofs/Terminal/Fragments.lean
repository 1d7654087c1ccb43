import Promptline.Proofs.Terminal.JoinedText

set_option autoImplicit false

/-! # Input in fragments

A terminal cuts its input wherever it likes. Decoding the fragments one after another means what
decoding them as one means (`decodeChunks_eq_decode`), as long as no sequence grows beyond what is
kept: the events are the same with texts joined, the errors are the same, and the decoder is left in
the same state. -/

namespace Promptline.Terminal.Decoder

/-- Decodes chunks one after another: the events and errors of all of them, and the decoder then. -/
def decodeChunks (d : Decoder) : List (List UInt8) → Decoded × Decoder
  | [] => ({ events := [], errors := [] }, d)
  | chunk :: rest =>
    let (first, d') := d.decode chunk
    let (later, last) := d'.decodeChunks rest
    ({ events := first.events ++ later.events, errors := first.errors ++ later.errors }, last)

/-- The decoders that earlier input can leave. -/
def Reached (d : Decoder) : Prop :=
  ∃ earlier : List (List UInt8), (start.decodeChunks earlier).2 = d

variable {d : Decoder} {chunk : List UInt8} {chunks : List (List UInt8)}

/-! ## What is kept -/

theorem pending_decode_le (d : Decoder) (chunk : List UInt8) :
    (d.decode chunk).2.pending.length ≤ maxPending := by
  unfold decode
  dsimp only
  split
  · exact Nat.zero_le _
  · next h => exact Nat.le_of_not_lt h

theorem pending_decodeChunks_le (h : d.pending.length ≤ maxPending) (chunks : List (List UInt8)) :
    (d.decodeChunks chunks).2.pending.length ≤ maxPending := by
  induction chunks generalizing d with
  | nil => exact h
  | cons chunk rest ih => exact ih (pending_decode_le d chunk)

/-- No decoder keeps more than it may. -/
theorem Reached.pending_le (h : Reached d) : d.pending.length ≤ maxPending := by
  obtain ⟨earlier, rfl⟩ := h
  exact pending_decodeChunks_le (Nat.zero_le _) earlier

/-! ## Joining fragments -/

/-- Decoding a chunk, if what is then open is not too long. -/
theorem decode_eq_run (h : (d.run chunk).2.pending.length ≤ maxPending) :
    d.decode chunk =
      ({ events := events (d.run chunk).1, errors := errors (d.run chunk).1 },
        (d.run chunk).2) := by
  unfold decode
  dsimp only
  rw [if_neg (Nat.not_lt.2 h)]

/-- A chunk that leaves too much open says so. -/
theorem pending_run_le (h : ∀ n, .sequenceTooLong n ∉ (d.decode chunk).1.errors) :
    (d.run chunk).2.pending.length ≤ maxPending := by
  refine Nat.not_lt.1 fun hlong => ?_
  refine h (d.run chunk).2.pending.length ?_
  unfold decode
  dsimp only
  rw [if_pos hlong]
  exact List.mem_append_right _ (List.mem_singleton_self _)

/-- What decoding chunks comes to, in terms of the bytes of all of them. -/
theorem decodeChunks_eq_run (h : d.pending.length ≤ maxPending)
    (hlong : ∀ n, .sequenceTooLong n ∉ (d.decodeChunks chunks).1.errors) :
    joinTexts (d.decodeChunks chunks).1.events = joinTexts (events (d.run chunks.flatten).1) ∧
      (d.decodeChunks chunks).1.errors = errors (d.run chunks.flatten).1 ∧
      (d.decodeChunks chunks).2 = (d.run chunks.flatten).2 := by
  induction chunks generalizing d with
  | nil => exact ⟨rfl, rfl, rfl⟩
  | cons chunk rest ih =>
      have hfirst : ∀ n, .sequenceTooLong n ∉ (d.decode chunk).1.errors := fun n hn =>
        hlong n (List.mem_append_left _ hn)
      have hlater : ∀ n, .sequenceTooLong n ∉ ((d.decode chunk).2.decodeChunks rest).1.errors :=
        fun n hn => hlong n (List.mem_append_right _ hn)
      -- the first chunk is not too long, so the others start where its run has ended
      obtain ⟨hevents, herrors, hlast⟩ := ih (pending_decode_le d chunk) hlater
      rw [decodeChunks, List.flatten_cons, run_append]
      dsimp only
      rw [hlast, herrors, joinTexts_append, hevents, decode_eq_run (pending_run_le hfirst)]
      refine ⟨?_, (errors_append _ _).symm, rfl⟩
      rw [joinTexts_events_append, joinTexts_append]

/-- **Fragments mean what the whole means.** However bytes are cut into chunks for a decoder that
    earlier input has left, if no chunk ends in a sequence that is too long, the chunks have the
    same events as the bytes in one piece once texts are joined, the same errors, and leave the
    same decoder. -/
theorem decodeChunks_eq_decode (hd : Reached d)
    (hlong : ∀ n, .sequenceTooLong n ∉ (d.decodeChunks chunks).1.errors) :
    joinTexts (d.decodeChunks chunks).1.events = joinTexts (d.decode chunks.flatten).1.events ∧
      (d.decodeChunks chunks).1.errors = (d.decode chunks.flatten).1.errors ∧
      (d.decodeChunks chunks).2 = (d.decode chunks.flatten).2 := by
  have hrun := decodeChunks_eq_run hd.pending_le hlong
  have hpending := pending_decodeChunks_le hd.pending_le chunks
  rw [hrun.2.2] at hpending
  rw [decode_eq_run hpending]
  exact hrun

/-- A line break, a control sequence and a character, each cut in two. -/
theorem decodeChunks_cut_sequences :
    joinTexts (start.decodeChunks [[0x6C, 0x0D], [0x0A, 0x1B], [0x5B, 0x33], [], [0x41, 0xC3],
        [0xA9]]).1.events =
      joinTexts (start.decode [0x6C, 0x0D, 0x0A, 0x1B, 0x5B, 0x33, 0x41, 0xC3, 0xA9]).1.events := by
  have herrors : (start.decodeChunks [[0x6C, 0x0D], [0x0A, 0x1B], [0x5B, 0x33], [], [0x41, 0xC3],
      [0xA9]]).1.errors = [] := by
    decide
  have hreached : Reached start := ⟨[], rfl⟩
  refine (decodeChunks_eq_decode hreached fun n hn => ?_).1
  rw [herrors] at hn
  exact List.not_mem_nil hn

end Promptline.Terminal.Decoder
