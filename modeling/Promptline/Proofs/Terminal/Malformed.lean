import Promptline.Proofs.Terminal.Fragments
import Promptline.Proofs.Terminal.Runs

set_option autoImplicit false

/-! # Malformed input

Some sequences mean nothing: a complete control sequence that no command takes, one that is broken
off by a byte that cannot stand in it, and an escape character that no bracket follows. Such a
sequence is reported once and skipped, and nothing around it is touched: what stands in front of it
is decoded as if the input ended there, and what stands behind it as if the input began there
(`decode_malformed`). So the byte that breaks a sequence off is not lost with it.

The reason is that reading a malformed sequence comes to its error and then to reading the rest
afresh (`Malformed.run_append`), and that an error divides the events of what stands around it
(`events_append_error`). -/

namespace Promptline.Terminal.Decoder

open ControlSequence

/-- A malformed sequence in front of the rest of the input, and what is wrong with it. -/
inductive Malformed : List UInt8 → List UInt8 → DecodeError → Prop
  /-- A complete control sequence that is reported where it stands alone. -/
  | rejected {parameters rest : List UInt8} {final : UInt8} {e : DecodeError}
      (hparameters : ∀ p ∈ parameters, isParameterByte p = true)
      (hfinal : isFinalByte final = true)
      (hreported : e ∈ (start.decode (0x1B :: 0x5B :: (parameters ++ [final]))).1.errors) :
      Malformed (0x1B :: 0x5B :: (parameters ++ [final])) rest e
  /-- A control sequence that a byte breaks off which can neither stand in it nor end it. -/
  | broken {parameters rest : List UInt8} {b : UInt8}
      (hparameters : ∀ p ∈ parameters, isParameterByte p = true)
      (hparameter : isParameterByte b = false) (hfinal : isFinalByte b = false) :
      Malformed (0x1B :: 0x5B :: parameters) (b :: rest) (.malformedParameters (parameters ++ [b]))
  /-- An escape character that no bracket follows. -/
  | lone {rest : List UInt8} {b : UInt8} (hb : b ≠ 0x5B) :
      Malformed [0x1B] (b :: rest) (.unsupportedEscape b)

/-! ## What is around an error -/

theorem withRun_append (run : List Char) (xs ys : List Event) :
    withRun run (xs ++ ys) = withRun run xs ++ ys := by
  unfold withRun
  split
  · rfl
  · rfl

theorem gather_append_error (ps : List Piece) (e : DecodeError) (qs : List Piece) :
    gather (ps ++ .error e :: qs) = ((gather ps).1, (gather ps).2 ++ events qs) := by
  induction ps with
  | nil => rfl
  | cons p rest ih => cases p <;> simp [gather, ih, withRun_append]

/-- **An error divides events.** No text is joined across it. -/
theorem events_append_error (ps : List Piece) (e : DecodeError) (qs : List Piece) :
    events (ps ++ .error e :: qs) = events ps ++ events qs := by
  rw [events, gather_append_error]
  exact withRun_append _ _ _

theorem errors_append_error (ps : List Piece) (e : DecodeError) (qs : List Piece) :
    errors (ps ++ .error e :: qs) = errors ps ++ e :: errors qs := by
  rw [errors_append]
  rfl

/-! ## Complete control sequences -/

/-- Events that pieces are already are left as they are. -/
theorem events_map_event (es : List Event) : events (es.map .event) = es := by
  have hgather : gather (es.map .event) = ([], es) := by
    induction es with
    | nil => rfl
    | cons e rest ih =>
        rw [List.map_cons, gather, ih]
        rfl
  rw [events, hgather]
  rfl

theorem errors_map_event (es : List Event) : errors (es.map .event) = [] := by
  rw [errors, List.filterMap_eq_nil_iff]
  intro p hp
  obtain ⟨_, _, rfl⟩ := List.mem_map.1 hp
  rfl

section Control

variable {parameters : List UInt8} {final : UInt8}
  (hparameters : ∀ p ∈ parameters, isParameterByte p = true) (hfinal : isFinalByte final = true)
include hparameters hfinal

/-- A complete control sequence is decoded as its events or as one error. -/
theorem decode_controlPieces :
    start.decode (0x1B :: 0x5B :: (parameters ++ [final])) =
      (match ControlSequence.events parameters final with
        | .ok es => { events := es, errors := [] }
        | .error e => { events := [], errors := [e] }, start) := by
  have hrun : start.run (0x1B :: 0x5B :: (parameters ++ [final])) =
      (controlPieces parameters final, ready false) :=
    run_controlSequence hparameters hfinal false
  have hshort : (start.run (0x1B :: 0x5B :: (parameters ++ [final]))).2.pending.length ≤
      maxPending := by
    rw [hrun]
    exact Nat.zero_le _
  rw [decode_eq_run hshort, hrun, controlPieces]
  cases ControlSequence.events parameters final with
  | ok es => rw [events_map_event, errors_map_event]; rfl
  | error e => rfl

/-- A control sequence that is reported comes to its error alone. -/
theorem controlPieces_of_reported {e : DecodeError}
    (h : e ∈ (start.decode (0x1B :: 0x5B :: (parameters ++ [final]))).1.errors) :
    controlPieces parameters final = [.error e] := by
  rw [decode_controlPieces hparameters hfinal] at h
  rw [controlPieces]
  cases hevents : ControlSequence.events parameters final with
  | ok es =>
      rw [hevents] at h
      exact absurd h List.not_mem_nil
  | error found =>
      rw [hevents] at h
      rw [List.mem_singleton.1 h]

end Control

/-! ## Reading a malformed sequence -/

variable {m rest : List UInt8} {e : DecodeError}

/-- **A malformed sequence is skipped.** Reading it and the rest of the input comes to its error,
    and then to what reading the rest from the beginning comes to. -/
theorem Malformed.run_append (h : Malformed m rest e) (afterReturn : Bool) :
    (ready afterReturn).run (m ++ rest) =
      (.error e :: (start.run rest).1, (start.run rest).2) := by
  cases h with
  | @rejected parameters _ final _ hparameters hfinal hreported =>
      rw [Decoder.run_append, run_controlSequence hparameters hfinal,
        controlPieces_of_reported hparameters hfinal hreported]
      rfl
  | @broken parameters rest b hparameters hparameter hfinal =>
      have hopen : (ready afterReturn).run (0x1B :: 0x5B :: parameters) =
          ([], control parameters) := by
        show (control []).run parameters = _
        rw [run_parameters hparameters, List.nil_append]
      have hbreak : readControl parameters b =
          (.error (.malformedParameters (parameters ++ [b])) :: (readFresh false b).1,
            (readFresh false b).2) := by
        rw [readControl, hparameter, hfinal]
        rfl
      rw [Decoder.run_append, hopen, run_cons, read, hbreak]
      rfl
  | @lone rest b hb =>
      have hbreak : readEscape b =
          (.error (.unsupportedEscape b) :: (readFresh false b).1, (readFresh false b).2) := by
        rw [readEscape, if_neg hb]
      show escape.run (b :: rest) = _
      rw [run_cons, read, hbreak]
      rfl

/-- **Malformed input is skipped alone.** If input `p` leaves nothing open and has no sequence that
    is too long, then with a malformed sequence and the rest of the input behind it, the events are
    those of `p` and then those of the rest, each as they are alone, and no texts are joined; the
    errors are those of `p`, the one of the sequence, and those of the rest. The decoder is left as
    by the rest alone. -/
theorem decode_malformed {p : List UInt8} (hpending : (start.decode p).2.hasPending = false)
    (hlong : ∀ n, .sequenceTooLong n ∉ (start.decode p).1.errors) (h : Malformed m rest e) :
    (start.decode (p ++ m ++ rest)).1.events =
        (start.decode p).1.events ++ (start.decode rest).1.events ∧
      (start.decode (p ++ m ++ rest)).1.errors =
        (start.decode p).1.errors ++ e :: (start.decode rest).1.errors ∧
      (start.decode (p ++ m ++ rest)).2 = (start.decode rest).2 := by
  have hfront := decode_eq_run (pending_run_le hlong)
  obtain ⟨afterReturn, hready⟩ : ∃ afterReturn, (start.run p).2 = ready afterReturn := by
    rw [hfront] at hpending
    cases hlast : (start.run p).2 with
    | ready afterReturn => exact ⟨afterReturn, rfl⟩
    | _ =>
        rw [hlast] at hpending
        cases hpending
  have hrun : start.run (p ++ m ++ rest) =
      ((start.run p).1 ++ .error e :: (start.run rest).1, (start.run rest).2) := by
    rw [List.append_assoc, run_append, hready, h.run_append]
  rw [hfront]
  unfold decode
  rw [hrun]
  dsimp only
  rw [events_append_error, errors_append_error]
  split
  · exact ⟨rfl, by simp, rfl⟩
  · exact ⟨rfl, rfl, rfl⟩

/-- A control sequence breaks off at an interrupt, behind a return that a line feed would go with.
    The line feed is at the beginning of the rest and so is a newline of its own. -/
theorem decode_malformed_interrupt :
    Malformed [0x1B, 0x5B, 0x33, 0x3B] [0x03, 0x62] (.malformedParameters [0x33, 0x3B, 0x03]) ∧
      (start.decode [0x61, 0x0D, 0x1B, 0x5B, 0x33, 0x3B, 0x03, 0x62]).1.events =
        [.text ['a'], .newline, .interrupt, .text ['b']] ∧
      (start.decode [0x61, 0x0D, 0x1B, 0x5B, 0x33, 0x3B, 0x03, 0x62]).1.errors =
        [.malformedParameters [0x33, 0x3B, 0x03]] := by
  have hbroken : Malformed [0x1B, 0x5B, 0x33, 0x3B] [0x03, 0x62]
      (.malformedParameters [0x33, 0x3B, 0x03]) :=
    .broken (by simp [isParameterByte]) rfl rfl
  have hnone : (start.decode [0x61, 0x0D]).1.errors = [] := rfl
  have hlong : ∀ n, .sequenceTooLong n ∉ (start.decode [0x61, 0x0D]).1.errors := by
    intro n
    rw [hnone]
    exact List.not_mem_nil
  obtain ⟨hevents, herrors, -⟩ := decode_malformed (p := [0x61, 0x0D]) rfl hlong hbroken
  exact ⟨hbroken, hevents.trans (by decide), herrors.trans (by decide)⟩

end Promptline.Terminal.Decoder
