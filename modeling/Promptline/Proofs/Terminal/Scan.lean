import Promptline.Proofs.Terminal.Fragments
import Promptline.Proofs.Terminal.Runs

set_option autoImplicit false

/-! # Reading the open bytes again

The decoder takes its input byte by byte and holds on to what it knows about an open sequence.
Another way to decode is to hold on to the open bytes alone, to put them in front of the next
chunk, and to look for whole sequences from there on (`scan`). What is open at the end of a chunk
is then judged by looking ahead: a character may be complete, broken, or short of bytes that can
still come.

Both ways agree for every decoder that input can leave (`decode_eq_rescan`). So no judgement that
the end of a chunk brings about is taken back when more input comes. -/

namespace Promptline.Terminal.Decoder

open ControlSequence

/-! ## Whole sequences -/

/-- A sequence at the front of input: what it means, and the input behind it. -/
structure Front where
  pieces : List Piece
  rest : List UInt8
  /-- Whether it is a carriage return. -/
  afterReturn : Bool := false

/-- The control sequence whose bytes behind the bracket are at the front of `body`. -/
def frontControl? (body : List UInt8) : Option Front :=
  match body.dropWhile isParameterByte with
  | [] => none
  | b :: rest =>
    if isFinalByte b then
      some { pieces := controlPieces (body.takeWhile isParameterByte) b, rest }
    else
      some { pieces := [.error (.malformedParameters (body.takeWhile isParameterByte ++ [b]))]
             rest := b :: rest }

/-- The sequence of an escape character in front of `rest`. -/
def frontEscape? : List UInt8 → Option Front
  | [] => none
  | b :: rest =>
    if b = 0x5B then frontControl? rest
    else some { pieces := [.error (.unsupportedEscape b)], rest := b :: rest }

/-- The character that `lead` begins in front of `rest`. If there are too few bytes, it is open as
    long as they could all belong to it; a byte that begins no character is invalid. -/
def frontCharacter? (lead : UInt8) (rest : List UInt8) : Option Front :=
  if rest.length + 1 < Utf8.expectedLength lead then
    if rest.all Utf8.isContinuation then none else some { pieces := [.invalid lead], rest }
  else match Utf8.decode? (lead :: rest.take (Utf8.expectedLength lead - 1)) with
    | some c => some { pieces := [.char c], rest := rest.drop (Utf8.expectedLength lead - 1) }
    | none => some { pieces := [.invalid lead], rest }

/-- The sequence that `b` begins in front of `rest`, if it is all there. -/
def front? (afterReturn : Bool) (b : UInt8) (rest : List UInt8) : Option Front :=
  if b = 0x1B then frontEscape? rest
  else if b = 0x0D then some { pieces := [.event .newline], rest, afterReturn := true }
  else if b = 0x0A then some { pieces := if afterReturn then [] else [.event .newline], rest }
  else match key? b with
    | some e => some { pieces := [.event e], rest }
    | none =>
      if b < 0x20 then some { pieces := [.dropped b], rest } else frontCharacter? b rest

theorem frontControl?_length {body : List UInt8} {f : Front} (h : frontControl? body = some f) :
    f.rest.length ≤ body.length := by
  have hdrop := (List.dropWhile_sublist (l := body) isParameterByte).length_le
  unfold frontControl? at h
  split at h
  · exact nomatch h
  · next b rest hbody =>
      rw [hbody, List.length_cons] at hdrop
      split at h
      · cases h
        exact Nat.le_of_succ_le hdrop
      · cases h
        exact hdrop

theorem frontCharacter?_length {lead : UInt8} {rest : List UInt8} {f : Front}
    (h : frontCharacter? lead rest = some f) : f.rest.length ≤ rest.length := by
  unfold frontCharacter? at h
  split at h
  · split at h
    · exact nomatch h
    · cases h
      exact Nat.le_refl _
  · split at h
    · cases h
      exact (List.drop_sublist ..).length_le
    · cases h
      exact Nat.le_refl _

/-- A whole sequence takes at least its first byte. -/
theorem front?_length {afterReturn : Bool} {b : UInt8} {rest : List UInt8} {f : Front}
    (h : front? afterReturn b rest = some f) : f.rest.length ≤ rest.length := by
  unfold front? at h
  split at h
  · cases rest with
    | nil => exact nomatch h
    | cons c rest =>
        rw [frontEscape?] at h
        split at h
        · exact Nat.le_succ_of_le (frontControl?_length h)
        · cases h
          exact Nat.le_refl _
  split at h
  · cases h
    exact Nat.le_refl _
  split at h
  · cases h
    exact Nat.le_refl _
  split at h
  · cases h
    exact Nat.le_refl _
  split at h
  · cases h
    exact Nat.le_refl _
  · exact frontCharacter?_length h

/-- What scanning comes to: the pieces, the bytes open at the end, and whether a carriage return
    stands right before them. -/
structure Scanned where
  pieces : List Piece
  pending : List UInt8
  afterReturn : Bool

/-- Takes whole sequences off the front of input until none is left. -/
def scan (afterReturn : Bool) : List UInt8 → Scanned
  | [] => { pieces := [], pending := [], afterReturn }
  | b :: rest =>
    match h : front? afterReturn b rest with
    | none => { pieces := [], pending := b :: rest, afterReturn := false }
    | some f =>
      have := front?_length h
      let later := scan f.afterReturn f.rest
      { later with pieces := f.pieces ++ later.pieces }
termination_by input => input.length

/-! ## One sequence, byte by byte -/

/-- Whether a line feed would belong to a newline that is already read. -/
def afterReturn : Decoder → Bool
  | ready afterReturn => afterReturn
  | _ => false

/-- What reading `input` byte by byte has to come to if `front` is at its front: the pieces of a
    whole sequence and then those of the input behind it, or a state that holds the open bytes. -/
def Reads (input : List UInt8) (front : Option Front) (r : List Piece × Decoder) : Prop :=
  match front with
  | none => r.1 = [] ∧ r.2.pending = input ∧ r.2.afterReturn = false
  | some f =>
    r = (f.pieces ++ ((ready f.afterReturn).run f.rest).1, ((ready f.afterReturn).run f.rest).2)

theorem reads_control (afterReturn : Bool) (body : List UInt8) :
    Reads (0x1B :: 0x5B :: body) (frontControl? body)
      ((ready afterReturn).run (0x1B :: 0x5B :: body)) := by
  have hparameters : ∀ p ∈ body.takeWhile isParameterByte, isParameterByte p = true :=
    List.all_eq_true.1 List.all_takeWhile
  have hrun : (ready afterReturn).run (0x1B :: 0x5B :: body) =
      (control (body.takeWhile isParameterByte)).run (body.dropWhile isParameterByte) := by
    calc (ready afterReturn).run (0x1B :: 0x5B :: body)
      _ = (control []).run body := rfl
      _ = (control []).run
            (body.takeWhile isParameterByte ++ body.dropWhile isParameterByte) := by
          rw [List.takeWhile_append_dropWhile]
      _ = _ := by
          rw [run_append, run_parameters hparameters]
          rfl
  rw [hrun, frontControl?]
  cases hbody : body.dropWhile isParameterByte with
  | nil =>
      have hall := List.takeWhile_append_dropWhile (p := isParameterByte) (l := body)
      rw [hbody, List.append_nil] at hall
      exact ⟨rfl, by rw [run_nil, pending, hall], rfl⟩
  | cons b rest =>
      have hne : body.dropWhile isParameterByte ≠ [] := by simp [hbody]
      have hb : isParameterByte b = false := by
        simpa only [hbody, List.head_cons] using List.head_dropWhile_not isParameterByte hne
      rw [run_cons, read, readControl, hb, if_neg (by simp)]
      dsimp only
      split
      · rfl
      · rfl

theorem reads_escape (afterReturn : Bool) (rest : List UInt8) :
    Reads (0x1B :: rest) (frontEscape? rest) ((ready afterReturn).run (0x1B :: rest)) := by
  cases rest with
  | nil => exact ⟨rfl, rfl, rfl⟩
  | cons b rest =>
      rw [frontEscape?]
      split
      · next hb =>
          rw [hb]
          exact reads_control afterReturn rest
      · next hb =>
          have hopen : (ready afterReturn).run (0x1B :: b :: rest) = escape.run (b :: rest) := rfl
          rw [hopen, run_cons, read, readEscape, if_neg hb]
          rfl

/-- Bytes that only continue characters are invalid where none is open. -/
theorem run_continuations {bs : List UInt8} (hbs : ∀ b ∈ bs, Utf8.isContinuation b = true)
    (rest : List UInt8) :
    (ready false).run (bs ++ rest) =
      (bs.map .invalid ++ ((ready false).run rest).1, ((ready false).run rest).2) := by
  induction bs with
  | nil => rfl
  | cons b bs ih =>
      have hb := (Utf8.isContinuation_iff b).1 (hbs b (List.mem_cons_self ..))
      have hlength : Utf8.expectedLength b = 1 := by
        rw [Utf8.expectedLength_eq, if_pos (by omega)]
      rw [List.cons_append, run_cons, read, readFresh_printed (by omega) (by omega), hlength,
        if_neg (by decide), Utf8.decode?_singleton_eq_none hb.1]
      dsimp only
      rw [ih fun c hc => hbs c (List.mem_cons_of_mem _ hc)]
      rfl

/-- Look-ahead finds a character whose bytes are all there. -/
theorem frontCharacter?_complete {lead : UInt8} {bs : List UInt8} {c : Char}
    (h : Utf8.decode? (lead :: bs) = some c) (rest : List UInt8) :
    frontCharacter? lead (bs ++ rest) = some { pieces := [.char c], rest } := by
  have hlength : Utf8.expectedLength lead - 1 = bs.length := by
    rw [← (Utf8.shape_of_decode? h).1]
    rfl
  have hall : ¬ (bs ++ rest).length + 1 < Utf8.expectedLength lead := by
    rw [List.length_append]
    omega
  rw [frontCharacter?, if_neg hall, hlength, List.take_left, List.drop_left, h]

/-- Look-ahead finds that a byte breaks a character. -/
theorem frontCharacter?_broken {lead b : UInt8} {tail : List UInt8}
    (hlength : tail.length + 1 < Utf8.expectedLength lead)
    (hb : ¬ (Utf8.isContinuation b = true ∧ tail.length + 2 < Utf8.expectedLength lead))
    (hnone : Utf8.decode? (lead :: (tail ++ [b])) = none) (rest : List UInt8) :
    frontCharacter? lead (tail ++ b :: rest) =
      some { pieces := [.invalid lead], rest := tail ++ b :: rest } := by
  rw [frontCharacter?]
  split
  · next hshort =>
      -- With all bytes in their place, `b` would be followed by others that are missing.
      refine if_neg fun hall => hb ⟨?_, ?_⟩
      · exact List.all_eq_true.1 hall b (List.mem_append_right _ (List.mem_cons_self ..))
      · rw [List.length_append, List.length_cons] at hshort
        omega
  · obtain ⟨m, hm⟩ := Nat.exists_eq_add_of_le hlength
    have htake : (tail ++ b :: rest).take (Utf8.expectedLength lead - 1) =
        tail ++ b :: rest.take m := by
      have hcount : Utf8.expectedLength lead - 1 = tail.length + (m + 1) := by omega
      rw [hcount, List.take_length_add_append, List.take_succ_cons]
    rw [htake]
    cases hdecode : Utf8.decode? (lead :: (tail ++ b :: rest.take m)) with
    | none => rfl
    | some c =>
        obtain ⟨hcount, hcontinue⟩ := Utf8.shape_of_decode? hdecode
        have hcontinues :=
          hcontinue b (List.mem_append_right _ (List.mem_cons_self ..))
        -- So `b` is the last byte, and the character is the one that is not there.
        have hm0 : m = 0 := by
          refine Decidable.byContradiction fun hne => hb ⟨hcontinues, ?_⟩
          omega
        rw [hm0, List.take_zero, hnone] at hdecode
        exact nomatch hdecode

/-- An open character goes on as the look-ahead over all of its bytes has it. -/
theorem reads_character {lead : UInt8} {tail : List UInt8}
    (htail : ∀ b ∈ tail, Utf8.isContinuation b = true)
    (hlength : tail.length + 1 < Utf8.expectedLength lead) (rest : List UInt8) :
    Reads (lead :: (tail ++ rest)) (frontCharacter? lead (tail ++ rest))
      ((character lead tail).run rest) := by
  induction rest generalizing tail with
  | nil =>
      rw [List.append_nil, frontCharacter?, if_pos hlength, if_pos (List.all_eq_true.2 htail)]
      exact ⟨rfl, rfl, rfl⟩
  | cons b rest ih =>
      rw [run_cons, read]
      by_cases hopen : Utf8.isContinuation b = true ∧ tail.length + 2 < Utf8.expectedLength lead
      · -- The character stays open, with `b` in its tail.
        have htail' : ∀ c ∈ tail ++ [b], Utf8.isContinuation c = true := by
          intro c hc
          rcases List.mem_append.1 hc with hc | hc
          · exact htail c hc
          · rw [List.mem_singleton.1 hc]
            exact hopen.1
        have hlonger : (tail ++ [b]).length + 1 < Utf8.expectedLength lead := by
          rw [List.length_append]
          exact hopen.2
        have hmore := ih htail' hlonger
        rw [List.append_assoc, List.singleton_append] at hmore
        rw [readCharacter_open hopen.1 hopen.2]
        exact hmore
      · have hbytes : tail ++ b :: rest = tail ++ [b] ++ rest := by simp
        cases hdecode : Utf8.decode? (lead :: (tail ++ [b])) with
        | some c =>
            have hlast : Utf8.expectedLength lead = tail.length + 2 := by
              rw [← (Utf8.shape_of_decode? hdecode).1, List.length_append]
              rfl
            rw [readCharacter_complete hlast hdecode, hbytes, frontCharacter?_complete hdecode]
            rfl
        | none =>
            rw [frontCharacter?_broken hlength hopen hdecode, readCharacter, if_neg hopen,
              List.cons_append, hdecode]
            dsimp only [Reads]
            rw [run_continuations htail, run_cons, read, List.map_cons]
            simp

/-- **One sequence.** What is read byte by byte begins with the sequence that is found at the
    front, or is all open if none is. -/
theorem reads_front (afterReturn : Bool) (b : UInt8) (rest : List UInt8) :
    Reads (b :: rest) (front? afterReturn b rest) ((ready afterReturn).run (b :: rest)) := by
  rw [front?]
  split
  · next hb =>
      rw [hb]
      exact reads_escape afterReturn rest
  · next hescape =>
      rw [run_cons, read, readFresh, if_neg hescape]
      split
      · rfl
      · split
        · rfl
        · cases hkey : key? b with
          | some e => rfl
          | none =>
              dsimp only
              split
              · rfl
              · split
                · next hlead =>
                    have hnil : ∀ c ∈ ([] : List UInt8), Utf8.isContinuation c = true :=
                      fun _ hc => absurd hc List.not_mem_nil
                    exact reads_character hnil hlead rest
                · next hlead =>
                    have hnone : Utf8.expectedLength b - 1 = 0 := by omega
                    rw [frontCharacter?, if_neg (by omega), hnone, List.take_zero,
                      List.drop_zero]
                    cases Utf8.decode? [b] with
                    | some c => rfl
                    | none => rfl

/-! ## Chunks -/

/-- **Scanning is reading.** Looking for whole sequences finds the pieces that reading byte by byte
    finds, and leaves the same bytes open. -/
theorem scan_eq_run (afterReturn : Bool) (input : List UInt8) :
    scan afterReturn input =
      { pieces := ((ready afterReturn).run input).1
        pending := ((ready afterReturn).run input).2.pending
        afterReturn := ((ready afterReturn).run input).2.afterReturn } := by
  fun_induction scan afterReturn input with
  | case1 afterReturn => rfl
  | case2 afterReturn b rest hfront =>
      have hreads := reads_front afterReturn b rest
      rw [hfront] at hreads
      obtain ⟨hpieces, hpending, hafter⟩ := hreads
      rw [hpieces, hpending, hafter]
  | case3 afterReturn b rest f hfront _ later ih =>
      have hreads := reads_front afterReturn b rest
      rw [hfront] at hreads
      rw [show (ready afterReturn).run (b :: rest) = _ from hreads]
      simp only [later, ih]

/-- The decoders that bytes can leave: their open bytes, read from nothing, lead to them. -/
def Coherent (d : Decoder) : Prop :=
  (ready d.afterReturn).run d.pending = ([], d)

variable {d : Decoder}

theorem coherent_readFresh (afterReturn : Bool) (b : UInt8) :
    Coherent (readFresh afterReturn b).2 := by
  rcases readFresh_state afterReturn b with ⟨r, hr⟩ | ⟨-, hr⟩ | ⟨hlead, hr⟩
  · rw [hr]
    rfl
  · rw [hr]
    rfl
  · rw [hr, Coherent, pending, run_cons, run_nil, read]
    dsimp only [Decoder.afterReturn]
    rw [readFresh_lead hlead]
    rfl

/-- A byte that stays open extends the bytes that lead to the state. -/
theorem Coherent.extend (h : Coherent d) {b : UInt8} {d' : Decoder} (hread : d.read b = ([], d'))
    (hpending : d'.pending = d.pending ++ [b]) (hafter : d'.afterReturn = d.afterReturn) :
    Coherent d' := by
  rw [Coherent, hpending, hafter, run_append, h, run_cons, run_nil, hread]
  rfl

theorem Coherent.read (h : Coherent d) (b : UInt8) : Coherent (d.read b).2 := by
  cases d with
  | ready afterReturn => exact coherent_readFresh afterReturn b
  | escape =>
      rw [Decoder.read, readEscape]
      split
      · rfl
      · exact coherent_readFresh false b
  | control parameters =>
      rw [Decoder.read, readControl]
      split
      · next hb =>
          refine h.extend (b := b) ?_ rfl rfl
          rw [Decoder.read, readControl, if_pos hb]
      · split
        · rfl
        · exact coherent_readFresh false b
  | character lead tail =>
      rw [Decoder.read, readCharacter]
      split
      · next hb =>
          refine h.extend (b := b) ?_ rfl rfl
          rw [Decoder.read, readCharacter, if_pos hb]
      · split
        · rfl
        · exact coherent_readFresh false b

theorem Coherent.run (h : Coherent d) (bytes : List UInt8) : Coherent (d.run bytes).2 := by
  induction bytes generalizing d with
  | nil => exact h
  | cons b rest ih => exact ih (h.read b)

theorem Coherent.decode (h : Coherent d) (chunk : List UInt8) : Coherent (d.decode chunk).2 := by
  unfold Decoder.decode
  dsimp only
  split
  · rfl
  · exact h.run chunk

theorem Reached.coherent (h : Reached d) : Coherent d := by
  obtain ⟨earlier, rfl⟩ := h
  suffices ∀ d, Coherent d → Coherent (d.decodeChunks earlier).2 from this start rfl
  induction earlier with
  | nil => exact fun d h => h
  | cons chunk rest ih => exact fun d h => ih _ (h.decode chunk)

/-- Decodes a chunk behind open bytes by scanning both: the events and errors, the bytes that are
    open then, and whether a carriage return stands right before them. -/
def rescan (pending : List UInt8) (afterReturn : Bool) (chunk : List UInt8) :
    Decoded × List UInt8 × Bool :=
  let scanned := scan afterReturn (pending ++ chunk)
  let length := scanned.pending.length
  if maxPending < length then
    ({ events := events scanned.pieces
       errors := errors scanned.pieces ++ [.sequenceTooLong length] }, [], scanned.afterReturn)
  else
    ({ events := events scanned.pieces, errors := errors scanned.pieces }, scanned.pending,
      scanned.afterReturn)

/-- **Open bytes may be read again.** A decoder that input has left decodes a chunk as if it
    looked for whole sequences in its open bytes and the chunk together. -/
theorem decode_eq_rescan (hd : Reached d) (chunk : List UInt8) :
    rescan d.pending d.afterReturn chunk =
      ((d.decode chunk).1, (d.decode chunk).2.pending, (d.decode chunk).2.afterReturn) := by
  have hrun : (ready d.afterReturn).run (d.pending ++ chunk) = d.run chunk := by
    rw [run_append, hd.coherent]
    rfl
  rw [rescan, scan_eq_run, hrun, Decoder.decode]
  dsimp only
  split
  · next hlong =>
      -- Where bytes are open, no carriage return stands before them.
      cases hlast : (d.run chunk).2 with
      | ready afterReturn =>
          rw [hlast] at hlong
          exact absurd hlong (Nat.not_lt_zero _)
      | _ => rfl
  · rfl

end Promptline.Terminal.Decoder
