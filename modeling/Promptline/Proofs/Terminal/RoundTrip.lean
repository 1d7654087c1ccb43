import Promptline.Proofs.Terminal.JoinedText
import Promptline.Proofs.Terminal.Numeral
import Promptline.Proofs.Terminal.Runs

set_option autoImplicit false

/-! # Events come back as they were written

What stands for one event is read as that event, whatever was read before it and whatever follows:
text as its characters, keys as their control characters, everything else as one complete control
sequence (`run_encode`). So a whole stream of events comes back, except that neighbouring texts
cannot be told apart (`decode_encode`). -/

namespace Promptline.Terminal

open Event ControlSequence

/-! ## Parameters -/

/-- The bytes of numbers with separators between them. -/
def parameterBytes (numbers : List UInt16) : List UInt8 :=
  [separator].intercalate (numbers.map decimalBytes)

theorem separator_notMem_decimalBytes (n : UInt16) : separator ∉ decimalBytes n := fun h =>
  absurd (toNat_of_mem_decimalBytes h).2 (by decide)

theorem decimalBytes_ne_nil (n : UInt16) : decimalBytes n ≠ [] := by
  simp [decimalBytes, decimal_ne_nil]

/-- What stands between the separators is the digits of each number. -/
theorem splitOn_parameterBytes {numbers : List UInt16} (h : numbers ≠ []) :
    (parameterBytes numbers).splitOn separator = numbers.map decimalBytes := by
  refine List.splitOn_intercalate separator ?_ (by simpa using h)
  intro digits hdigits
  obtain ⟨n, -, rfl⟩ := List.mem_map.1 hdigits
  exact separator_notMem_decimalBytes n

theorem slots_parameterBytes (numbers : List UInt16) :
    slots (parameterBytes numbers) = numbers.map decimalBytes := by
  cases numbers with
  | nil => rfl
  | cons n rest =>
      have hsplit := splitOn_parameterBytes (List.cons_ne_nil n rest)
      have hne : ¬ (parameterBytes (n :: rest)).isEmpty = true := by
        intro hempty
        rw [List.isEmpty_iff.1 hempty, List.splitOn_nil, List.map_cons] at hsplit
        exact decimalBytes_ne_nil n (List.cons.inj hsplit).1.symm
      rw [slots, if_neg hne, hsplit]

/-- **Parameters are read as they were written.** -/
theorem parameters?_parameterBytes (numbers : List UInt16) :
    parameters? (parameterBytes numbers) = some (numbers.map some) := by
  rw [parameters?, slots_parameterBytes]
  induction numbers with
  | nil => rfl
  | cons n rest ih =>
      rw [List.map_cons, List.mapM_cons, slot?_decimalBytes, ih]
      rfl

/-! ## The bytes of a control sequence -/

theorem encode_append (s t : List Char) :
    Utf8.encode (s ++ t) = Utf8.encode s ++ Utf8.encode t :=
  List.flatMap_append

theorem encode_numbers (numbers : List UInt16) :
    Utf8.encode ([';'].intercalate (numbers.map decimal)) = parameterBytes numbers := by
  induction numbers with
  | nil => rfl
  | cons n rest ih =>
      cases rest with
      | nil =>
          rw [parameterBytes, List.map_singleton, List.map_singleton, List.intercalate_singleton,
            List.intercalate_singleton, encode_decimal]
      | cons m rest =>
          rw [parameterBytes, List.map_cons, List.map_cons, List.intercalate_cons_cons,
            List.map_cons, List.map_cons, List.intercalate_cons_cons, encode_append,
            encode_append, encode_decimal, ← List.map_cons, ih, ← List.map_cons]
          rfl

theorem isParameterByte_of_mem {numbers : List UInt16} {b : UInt8}
    (h : b ∈ parameterBytes numbers) : isParameterByte b = true := by
  have hb : b.toNat = 0x3B ∨ 0x30 ≤ b.toNat ∧ b.toNat ≤ 0x39 := by
    induction numbers with
    | nil => exact absurd h List.not_mem_nil
    | cons n rest ih =>
        cases rest with
        | nil =>
            rw [parameterBytes, List.map_singleton, List.intercalate_singleton] at h
            exact Or.inr (toNat_of_mem_decimalBytes h)
        | cons m rest =>
            rw [parameterBytes, List.map_cons, List.map_cons, List.intercalate_cons_cons] at h
            rcases List.mem_append.1 h with h | h
            · rcases List.mem_append.1 h with h | h
              · exact Or.inr (toNat_of_mem_decimalBytes h)
              · rw [List.mem_singleton.1 h]
                exact Or.inl rfl
            · exact ih h
  rw [isParameterByte_iff]
  omega

theorem final_of_mem_commands {command : Char} (h : command ∈ commands) :
    isFinalByte (UInt8.ofNat command.toNat) = true ∧ command.toNat < 0x80 ∧
      Char.ofNat (UInt8.ofNat command.toNat).toNat = command := by
  have hall : commands.all (fun c => isFinalByte (UInt8.ofNat c.toNat) && decide (c.toNat < 0x80) &&
      Char.ofNat (UInt8.ofNat c.toNat).toNat == c) = true := by
    decide
  have hcommand := List.all_eq_true.1 hall command h
  simp only [Bool.and_eq_true, decide_eq_true_eq, beq_iff_eq] at hcommand
  exact ⟨hcommand.1.1, hcommand.1.2, hcommand.2⟩

theorem encode_controlSequence {command : Char} (h : command ∈ commands)
    (numbers : List UInt16) :
    Utf8.encode (controlSequence numbers command) =
      0x1B :: 0x5B :: (parameterBytes numbers ++ [UInt8.ofNat command.toNat]) := by
  have hlast : Utf8.encode [command] = [UInt8.ofNat command.toNat] :=
    encode_ascii fun c hc => by
      rw [List.mem_singleton.1 hc]
      exact (final_of_mem_commands h).2.1
  rw [controlSequence, encode_append, encode_append, encode_numbers, hlast]
  rfl

/-- A control sequence is read as the event that its command makes of its numbers. -/
theorem run_encode_controlSequence {numbers : List UInt16} {command : Char} {e : Event}
    (h : command ∈ commands) (he : events? command (numbers.map some) = some [e])
    (afterReturn : Bool) :
    (Decoder.ready afterReturn).run (Utf8.encode (controlSequence numbers command)) =
      ([.event e], .ready false) := by
  obtain ⟨hfinal, _, hcommand⟩ := final_of_mem_commands h
  rw [encode_controlSequence h,
    Decoder.run_controlSequence (fun p hp => isParameterByte_of_mem hp) hfinal,
    Decoder.controlPieces, events, hcommand, parameters?_parameterBytes]
  dsimp only
  rw [if_pos h, he]
  rfl

/-! ## One event -/

/-- The pieces that an event is read as. -/
def piecesOf : Event → List Decoder.Piece
  | .text run => run.map .char
  | e => [.event e]

theorem run_encode_text {run : List Char} (h : ∀ c ∈ run, isAsciiControl c = false)
    (afterReturn : Bool) :
    ∃ afterReturn', (Decoder.ready afterReturn).run (Utf8.encode run) =
      (run.map .char, .ready afterReturn') := by
  induction run generalizing afterReturn with
  | nil => exact ⟨afterReturn, rfl⟩
  | cons c rest ih =>
      obtain ⟨last, hrest⟩ := ih (fun d hd => h d (List.mem_cons_of_mem _ hd)) false
      refine ⟨last, ?_⟩
      rw [Utf8.encode, List.flatMap_cons, ← Utf8.encode, Decoder.run_append,
        Decoder.run_utf8EncodeChar (h c (List.mem_cons_self ..)), hrest]
      rfl

theorem attribute?_foregroundCode (color : Color) :
    attribute? (some color.foregroundCode) = some (.setForeground color) := by
  cases color <;> rfl

theorem attribute?_backgroundCode (color : Color) :
    attribute? (some color.backgroundCode) = some (.setBackground color) := by
  cases color <;> rfl

/-- **An event is read as it was written**, and nothing of it is left over. -/
theorem run_encode {e : Event} (h : e.WellFormed) (afterReturn : Bool) :
    ∃ afterReturn', (Decoder.ready afterReturn).run (Utf8.encode e.encode) =
      (piecesOf e, .ready afterReturn') := by
  cases e with
  | text run =>
      refine run_encode_text (fun c hc => ?_) afterReturn
      have hrun : isTextRun run = true := h
      rw [isTextRun, Bool.and_eq_true, List.all_eq_true] at hrun
      simpa using hrun.2 c hc
  | newline => exact ⟨true, rfl⟩
  | tab => exact ⟨false, rfl⟩
  | backspace => exact ⟨false, rfl⟩
  | delete => exact ⟨false, rfl⟩
  | interrupt => exact ⟨false, rfl⟩
  | endOfTransmission => exact ⟨false, rfl⟩
  | setForeground color =>
      have he : events? 'm' [some color.foregroundCode] = some [.setForeground color] := by
        simp [events?, attribute?_foregroundCode]
      exact ⟨false, run_encode_controlSequence (by decide) he afterReturn⟩
  | setBackground color =>
      have he : events? 'm' [some color.backgroundCode] = some [.setBackground color] := by
        simp [events?, attribute?_backgroundCode]
      exact ⟨false, run_encode_controlSequence (by decide) he afterReturn⟩
  | _ => exact ⟨false, run_encode_controlSequence (by decide) rfl afterReturn⟩

/-! ## Streams of events -/

/-- The text that stands for events, one after another. -/
def encodeAll (events : List Event) : List Char :=
  events.flatMap encode

theorem run_encodeAll {events : List Event} (h : ∀ e ∈ events, e.WellFormed)
    (afterReturn : Bool) :
    ∃ afterReturn', (Decoder.ready afterReturn).run (Utf8.encode (encodeAll events)) =
      (events.flatMap piecesOf, .ready afterReturn') := by
  induction events generalizing afterReturn with
  | nil => exact ⟨afterReturn, rfl⟩
  | cons e rest ih =>
      obtain ⟨middle, hfirst⟩ := run_encode (h e (List.mem_cons_self ..)) afterReturn
      obtain ⟨last, hrest⟩ := ih (fun d hd => h d (List.mem_cons_of_mem _ hd)) middle
      refine ⟨last, ?_⟩
      rw [encodeAll, List.flatMap_cons, ← encodeAll, encode_append, Decoder.run_append, hfirst,
        hrest]
      rfl

theorem foldr_addPiece_piecesOf {e : Event} (h : e.WellFormed) (more : List Event) :
    (piecesOf e).foldr Decoder.addPiece more = addEvent e more := by
  cases e with
  | text run =>
      cases run with
      | nil => exact absurd h (by simp [WellFormed, isTextRun])
      | cons c rest =>
          clear h
          rw [piecesOf]
          -- the characters are put in front one by one, each joined with those behind it
          induction rest generalizing c with
          | nil => rfl
          | cons d rest ih =>
              rw [List.map_cons, List.foldr_cons, ih d, Decoder.addPiece, addEvent_text_append]
              rfl
  | _ => rfl

theorem mem_piecesOf {e : Event} {p : Decoder.Piece} (h : p ∈ piecesOf e) :
    (∃ c, p = .char c) ∨ ∃ e', p = .event e' ∧ ∀ s, e' ≠ .text s := by
  cases e with
  | text run =>
      obtain ⟨c, _, rfl⟩ := List.mem_map.1 h
      exact Or.inl ⟨c, rfl⟩
  | _ => exact Or.inr ⟨_, List.mem_singleton.1 h, fun _ hs => nomatch hs⟩

/-- The events of what a stream is read as. -/
theorem events_flatMap_piecesOf {events : List Event} (h : ∀ e ∈ events, e.WellFormed) :
    Decoder.events (events.flatMap piecesOf) = joinTexts events ∧
      Decoder.errors (events.flatMap piecesOf) = [] := by
  have htext : ∀ s, .event (.text s) ∉ events.flatMap piecesOf := by
    intro s hs
    obtain ⟨_, _, hmem⟩ := List.mem_flatMap.1 hs
    rcases mem_piecesOf hmem with ⟨c, hc⟩ | ⟨e, he, hne⟩
    · exact nomatch hc
    · exact hne s (Decoder.Piece.event.inj he).symm
  have herrors : Decoder.errors (events.flatMap piecesOf) = [] := by
    rw [Decoder.errors, List.filterMap_eq_nil_iff]
    intro p hp
    obtain ⟨_, _, hmem⟩ := List.mem_flatMap.1 hp
    rcases mem_piecesOf hmem with ⟨c, rfl⟩ | ⟨e, rfl, _⟩
    · rfl
    · rfl
  refine ⟨?_, herrors⟩
  rw [(Decoder.events_eq_foldr herrors htext).1]
  clear htext herrors
  induction events with
  | nil => rfl
  | cons e rest ih =>
      rw [List.flatMap_cons, List.foldr_append, ih fun d hd => h d (List.mem_cons_of_mem _ hd),
        foldr_addPiece_piecesOf (h e (List.mem_cons_self ..)), joinTexts_cons]

/-- **Decoding undoes encoding.** Whatever events are written one after another, a decoder with
    nothing open reads just these events, neighbouring texts joined; it reports no errors and
    has nothing open then. So does reading the whole at once. -/
theorem decode_encodeAll {events : List Event} (h : ∀ e ∈ events, e.WellFormed) {d : Decoder}
    (hd : d.pending = []) :
    (d.decode (Utf8.encode (encodeAll events))).1 =
        { events := joinTexts events, errors := [] } ∧
      (d.decode (Utf8.encode (encodeAll events))).2.pending = [] ∧
      Decoder.decodeAll (Utf8.encode (encodeAll events)) = .ok (joinTexts events) := by
  obtain ⟨hevents, herrors⟩ := events_flatMap_piecesOf h
  obtain ⟨afterReturn, rfl⟩ : ∃ afterReturn, d = .ready afterReturn := by
    cases d with
    | ready afterReturn => exact ⟨afterReturn, rfl⟩
    | _ => exact absurd hd (by simp [Decoder.pending])
  -- the stream is run once by the decoder given, and once from the start
  obtain ⟨last, hrun⟩ := run_encodeAll h afterReturn
  obtain ⟨last', hrun'⟩ := run_encodeAll h false
  have hdecode : (Decoder.ready afterReturn).decode (Utf8.encode (encodeAll events)) =
      ({ events := joinTexts events, errors := [] }, .ready last) := by
    rw [Decoder.decode, hrun]
    dsimp only
    rw [hevents, herrors]
    rfl
  refine ⟨by rw [hdecode], by rw [hdecode]; rfl, ?_⟩
  rw [Decoder.decodeAll, Decoder.start, hrun']
  dsimp only
  rw [hevents, herrors]
  rfl

theorem decodeAll_encodeAll_line :
    Decoder.decodeAll (Utf8.encode (encodeAll
        [.text ['l', 'é'], .text ['s'], .newline, .cursorAbsolute 3 400, .setForeground .red])) =
      .ok [.text ['l', 'é', 's'], .newline, .cursorAbsolute 3 400, .setForeground .red] := by
  have hformed : ∀ e ∈ [Event.text ['l', 'é'], .text ['s'], .newline, .cursorAbsolute 3 400,
      .setForeground .red], e.WellFormed := by
    simp only [List.forall_mem_cons, List.not_mem_nil, false_implies, implies_true, and_true]
    exact ⟨rfl, rfl, trivial, trivial, trivial⟩
  exact (decode_encodeAll hformed (d := .ready true) rfl).2.2

end Promptline.Terminal
