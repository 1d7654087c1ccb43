import Promptline.Proofs.Terminal.Scan

set_option autoImplicit false

/-! # Control keys

Some keys send a control character: enter, tab, backspace, delete, and the keys that interrupt and
that end the input. Such a byte may land anywhere, also inside a sequence or a character that it
breaks off. It is never lost there, and nothing else is ever taken for it: the control keys among
the events of input are those of its bytes, one by one (`filter_decodeChunks`).

The reason is that no byte of a control key can go on with what is open (`read_controlKeys`), and
that what is open never stands for a control key itself, nor for text (`isPlain_of_mem_events`). -/

namespace Promptline.Terminal

/-- Whether an event is a key that sends a control character. -/
def Event.isControlKey : Event → Bool
  | newline | tab | backspace | delete | interrupt | endOfTransmission => true
  | _ => false

/-- Whether an event is sent without a control sequence: a text, or a control key. -/
def Event.isPlain : Event → Bool
  | text _ => true
  | e => e.isControlKey

theorem Event.isControlKey_of_isPlain {e : Event} (h : e.isPlain = false) :
    e.isControlKey = false := by
  cases e <;> first | exact h | rfl

/-- The control key that a byte stands for behind `previous`. A line feed right behind a carriage
    return belongs to the newline that is there already. -/
def controlKey? (previous : Option UInt8) (b : UInt8) : Option Event :=
  match b with
  | 0x0D => some .newline
  | 0x0A => if previous = some 0x0D then none else some .newline
  | 0x09 => some .tab
  | 0x08 => some .backspace
  | 0x7F => some .delete
  | 0x03 => some .interrupt
  | 0x04 => some .endOfTransmission
  | _ => none

/-- The control keys that bytes behind `previous` stand for. -/
def controlKeys (previous : Option UInt8) : List UInt8 → List Event
  | [] => []
  | b :: rest => (controlKey? previous b).toList ++ controlKeys (some b) rest

/-- The byte that stands last in front of a place, with `previous` in front of all. -/
def lastByte (previous : Option UInt8) (bytes : List UInt8) : Option UInt8 :=
  bytes.getLast? <|> previous

theorem lastByte_cons (previous : Option UInt8) (b : UInt8) (rest : List UInt8) :
    lastByte previous (b :: rest) = lastByte (some b) rest := by
  unfold lastByte
  rw [List.getLast?_cons]
  cases rest.getLast? <;> rfl

theorem lastByte_none (bytes : List UInt8) : lastByte none bytes = bytes.getLast? := by
  unfold lastByte
  cases bytes.getLast? <;> rfl

theorem lastByte_append (previous : Option UInt8) (bs cs : List UInt8) :
    lastByte previous (bs ++ cs) = lastByte (lastByte previous bs) cs := by
  induction bs generalizing previous with
  | nil => rfl
  | cons b rest ih => rw [List.cons_append, lastByte_cons, lastByte_cons, ih]

theorem controlKeys_append (previous : Option UInt8) (bs cs : List UInt8) :
    controlKeys previous (bs ++ cs) =
      controlKeys previous bs ++ controlKeys (lastByte previous bs) cs := by
  induction bs generalizing previous with
  | nil => rfl
  | cons b rest ih =>
      rw [List.cons_append, controlKeys, controlKeys, ih, lastByte_cons, List.append_assoc]

/-- Bytes from the space on, delete apart, stand for no control key. -/
theorem controlKey?_eq_none {b : UInt8} (h : 0x20 ≤ b.toNat) (hdel : b.toNat ≠ 0x7F)
    (previous : Option UInt8) : controlKey? previous b = none := by
  unfold controlKey?
  split
  all_goals first | rfl | exact absurd h (by decide) | exact absurd rfl hdel

/-! ## What sequences stand for -/

namespace ControlSequence

theorem isPlain_of_attribute? {n : Option UInt16} {e : Event} (h : attribute? n = some e) :
    e.isPlain = false := by
  unfold attribute? at h
  dsimp only at h
  split at h
  · cases h
    rfl
  · split at h
    · cases h
      rfl
    · obtain ⟨color, _, rfl⟩ := Option.map_eq_some_iff.1 h
      rfl

theorem isPlain_of_mem_mapM {numbers : List (Option UInt16)} {es : List Event}
    (h : numbers.mapM attribute? = some es) : ∀ e ∈ es, e.isPlain = false := by
  induction numbers generalizing es with
  | nil =>
      cases h
      exact fun e he => absurd he List.not_mem_nil
  | cons n rest ih =>
      rw [List.mapM_cons] at h
      obtain ⟨first, hfirst, h⟩ := Option.bind_eq_some_iff.1 h
      obtain ⟨others, hothers, h⟩ := Option.bind_eq_some_iff.1 h
      cases h
      intro e he
      rcases List.mem_cons.1 he with rfl | he
      · exact isPlain_of_attribute? hfirst
      · exact ih hothers e he

theorem isPlain_of_eraseScreen? {n : UInt16} {e : Event} (h : eraseScreen? n = some e) :
    e.isPlain = false := by
  unfold eraseScreen? at h
  split at h <;> cases h <;> rfl

theorem isPlain_of_eraseLine? {n : UInt16} {e : Event} (h : eraseLine? n = some e) :
    e.isPlain = false := by
  unfold eraseLine? at h
  split at h <;> cases h <;> rfl

/-- No command of a control sequence is a control key, or text. -/
theorem isPlain_of_mem_events? {command : Char} {numbers : List (Option UInt16)}
    {es : List Event} (h : events? command numbers = some es) :
    ∀ e ∈ es, e.isPlain = false := by
  -- most commands make one event of their numbers
  have hone : ∀ {α : Type} {found : Option α} {make : α → Event},
      (∀ a, found = some a → (make a).isPlain = false) →
      found.map (fun a => [make a]) = some es → ∀ e ∈ es, e.isPlain = false := by
    intro α found make hmake hfound e he
    obtain ⟨a, ha, rfl⟩ := Option.map_eq_some_iff.1 hfound
    rw [List.mem_singleton.1 he]
    exact hmake a ha
  unfold events? at h
  split at h
  -- erasing
  case h_12 =>
      refine hone (fun e he => ?_) h
      obtain ⟨n, _, hn⟩ := Option.bind_eq_some_iff.1 he
      exact isPlain_of_eraseScreen? hn
  case h_13 =>
      refine hone (fun e he => ?_) h
      obtain ⟨n, _, hn⟩ := Option.bind_eq_some_iff.1 he
      exact isPlain_of_eraseLine? hn
  -- the cursor's place, the size, and attributes
  case h_14 | h_15 =>
      obtain ⟨_, hes⟩ := Option.ite_none_right_eq_some.1 h
      cases hes
      simp [Event.isPlain, Event.isControlKey]
  case h_16 =>
      split at h <;> cases h <;> simp [Event.isPlain, Event.isControlKey]
  case h_17 =>
      split at h
      · cases h
        simp [Event.isPlain, Event.isControlKey]
      · exact isPlain_of_mem_mapM h
  case h_18 => exact absurd h (by simp)
  -- moves and scrolling
  all_goals exact hone (fun _ _ => rfl) h

/-- Nor is anything else that a complete control sequence means. -/
theorem isPlain_of_mem_events {parameters : List UInt8} {final : UInt8} {es : List Event}
    (h : events parameters final = .ok es) : ∀ e ∈ es, e.isPlain = false := by
  unfold events at h
  dsimp only at h
  split at h
  · cases h
  · split at h
    · split at h
      · next found hfound =>
          cases h
          exact isPlain_of_mem_events? hfound
      · cases h
    · cases h

end ControlSequence

namespace Decoder

/-- The control key that a piece is. -/
def Piece.controlKey? : Piece → Option Event
  | event e => if e.isControlKey then some e else none
  | _ => none

/-- The control keys among pieces. -/
def keysOf (ps : List Piece) : List Event :=
  ps.filterMap Piece.controlKey?

theorem keysOf_cons (p : Piece) (ps : List Piece) :
    keysOf (p :: ps) = p.controlKey?.toList ++ keysOf ps := by
  rw [keysOf, List.filterMap_cons]
  cases p.controlKey? <;> rfl

theorem keysOf_append (ps qs : List Piece) : keysOf (ps ++ qs) = keysOf ps ++ keysOf qs :=
  List.filterMap_append

theorem keysOf_eq_nil {ps : List Piece} (h : ∀ p ∈ ps, p.controlKey? = none) : keysOf ps = [] :=
  List.filterMap_eq_nil_iff.2 h

theorem filter_withRun (run : List Char) (es : List Event) :
    (withRun run es).filter Event.isControlKey = es.filter Event.isControlKey := by
  unfold withRun
  split
  · rfl
  · rfl

/-- Gathering text does not touch control keys. -/
theorem filter_events (ps : List Piece) :
    (events ps).filter Event.isControlKey = keysOf ps := by
  rw [events, filter_withRun]
  induction ps with
  | nil => rfl
  | cons p rest ih =>
      cases p with
      | event e =>
          rw [gather, List.filter_cons, filter_withRun, ih, keysOf_cons, Piece.controlKey?]
          cases e.isControlKey <;> rfl
      | error e =>
          rw [gather, filter_withRun]
          exact ih
      | _ => exact ih

theorem keysOf_controlPieces (parameters : List UInt8) (final : UInt8) :
    keysOf (controlPieces parameters final) = [] := by
  refine keysOf_eq_nil fun p hp => ?_
  unfold controlPieces at hp
  split at hp
  · next es hes =>
      obtain ⟨e, he, rfl⟩ := List.mem_map.1 hp
      have hkey := Event.isControlKey_of_isPlain (ControlSequence.isPlain_of_mem_events hes e he)
      rw [Piece.controlKey?, hkey]
      rfl
  · rw [List.mem_singleton.1 hp]
    rfl

/-! ## One byte -/

/-- All that a decoder knows of the byte in front of it: whether it is a carriage return. -/
def Follows (d : Decoder) (previous : Option UInt8) : Prop :=
  d.afterReturn = true ↔ previous = some 0x0D

/-- Behind any other byte than a carriage return. -/
theorem follows_of_ne {d : Decoder} {b : UInt8} (hd : d.afterReturn = false) (hb : b ≠ 0x0D) :
    Follows d (some b) := by
  rw [Follows, hd]
  exact ⟨fun h => absurd h (by simp), fun h => absurd (Option.some.inj h) hb⟩

theorem controlKey?_eq_key? {b : UInt8} (hreturn : b ≠ 0x0D) (hfeed : b ≠ 0x0A)
    (previous : Option UInt8) : controlKey? previous b = key? b := by
  unfold controlKey? key?
  split
  · exact absurd rfl hreturn
  · exact absurd rfl hfeed
  all_goals first | rfl | skip
  split
  all_goals first | rfl | contradiction

/-- Reading a byte afresh yields the control key that it stands for, and no other. -/
theorem readFresh_controlKeys {afterReturn : Bool} {previous : Option UInt8}
    (h : afterReturn = true ↔ previous = some 0x0D) (b : UInt8) :
    keysOf (readFresh afterReturn b).1 = (controlKey? previous b).toList ∧
      Follows (readFresh afterReturn b).2 (some b) := by
  unfold readFresh
  split
  · next hb =>
      subst hb
      exact ⟨rfl, follows_of_ne rfl (by decide)⟩
  split
  · next hb =>
      subst hb
      exact ⟨rfl, fun _ => rfl, fun _ => rfl⟩
  split
  · next hb =>
      subst hb
      refine ⟨?_, follows_of_ne rfl (by decide)⟩
      have hkey : controlKey? previous 0x0A =
          if previous = some 0x0D then none else some .newline := rfl
      rw [hkey]
      by_cases hprevious : previous = some 0x0D
      · rw [if_pos hprevious, if_pos (h.2 hprevious)]
        rfl
      · rw [if_neg hprevious, if_neg (mt h.1 hprevious)]
        rfl
  · next hescape hreturn hfeed =>
      rw [controlKey?_eq_key? hreturn hfeed]
      -- what is left is a key, or stands for no control key
      cases hkey : key? b with
      | some e =>
          refine ⟨?_, follows_of_ne rfl hreturn⟩
          unfold key? at hkey
          split at hkey <;> cases hkey <;> rfl
      | none =>
          dsimp only
          split
          · exact ⟨rfl, follows_of_ne rfl hreturn⟩
          split
          · exact ⟨rfl, follows_of_ne rfl hreturn⟩
          · split
            · exact ⟨rfl, follows_of_ne rfl hreturn⟩
            · exact ⟨rfl, follows_of_ne rfl hreturn⟩

variable {d : Decoder} {previous : Option UInt8}

/-- An error in front of what is read afresh is no control key. -/
theorem error_controlKeys (hd : d.afterReturn = false) (h : Follows d previous) (e : DecodeError)
    (b : UInt8) :
    keysOf (.error e :: (readFresh false b).1) = (controlKey? previous b).toList ∧
      Follows (readFresh false b).2 (some b) := by
  rw [Follows, hd] at h
  exact readFresh_controlKeys h b

/-- **One byte.** Whatever is open, a byte yields the control key that it stands for, and no
    other. -/
theorem read_controlKeys (h : Follows d previous) (b : UInt8) :
    keysOf (d.read b).1 = (controlKey? previous b).toList ∧ Follows (d.read b).2 (some b) := by
  cases d with
  | ready afterReturn => exact readFresh_controlKeys h b
  | escape =>
      rw [read, readEscape]
      split
      · next hb =>
          subst hb
          exact ⟨rfl, follows_of_ne rfl (by decide)⟩
      · exact error_controlKeys rfl h _ b
  | control parameters =>
      rw [read, readControl]
      split
      · next hb =>
          have hrange := ControlSequence.isParameterByte_iff.1 hb
          rw [controlKey?_eq_none hrange.1 (by omega)]
          refine ⟨rfl, follows_of_ne rfl fun he => ?_⟩
          rw [he] at hrange
          exact absurd hrange.1 (by decide)
      · split
        · next hb =>
            have hrange := ControlSequence.isFinalByte_iff.1 hb
            rw [controlKey?_eq_none (by omega) (by omega)]
            refine ⟨keysOf_controlPieces parameters b, follows_of_ne rfl fun he => ?_⟩
            rw [he] at hrange
            exact absurd hrange.1 (by decide)
        · exact error_controlKeys rfl h _ b
  | character lead tail =>
      -- a byte that goes on with the character is none of a control key
      have hcontinues : Utf8.isContinuation b = true →
          controlKey? previous b = none ∧ b ≠ 0x0D := by
        intro hb
        have hrange := (Utf8.isContinuation_iff b).1 hb
        refine ⟨controlKey?_eq_none (by omega) (by omega) previous, fun he => ?_⟩
        rw [he] at hrange
        exact absurd hrange.1 (by decide)
      rw [read, readCharacter]
      split
      · next hopen =>
          obtain ⟨hkey, hne⟩ := hcontinues hopen.1
          rw [hkey]
          exact ⟨rfl, follows_of_ne rfl hne⟩
      · split
        · next c hc =>
            obtain ⟨hkey, hne⟩ := hcontinues
              ((Utf8.shape_of_decode? hc).2 b (List.mem_append_right _ (List.mem_singleton_self b)))
            rw [hkey]
            exact ⟨rfl, follows_of_ne rfl hne⟩
        · have hinvalid : keysOf ((lead :: tail).map .invalid) = [] :=
            keysOf_eq_nil fun p hp => by
              obtain ⟨_, _, rfl⟩ := List.mem_map.1 hp
              rfl
          dsimp only
          rw [keysOf_append, hinvalid]
          exact readFresh_controlKeys h b

/-! ## Chunks -/

/-- The control keys of bytes read one after another. -/
theorem run_controlKeys (h : Follows d previous) (bytes : List UInt8) :
    keysOf (d.run bytes).1 = controlKeys previous bytes ∧
      Follows (d.run bytes).2 (lastByte previous bytes) := by
  induction bytes generalizing d previous with
  | nil => exact ⟨rfl, h⟩
  | cons b rest ih =>
      obtain ⟨hfirst, hfollows⟩ := read_controlKeys h b
      obtain ⟨hrest, hlast⟩ := ih hfollows
      rw [run_cons, lastByte_cons]
      dsimp only
      rw [keysOf_append, hfirst, hrest]
      exact ⟨rfl, hlast⟩

/-- Giving up a sequence that has become too long loses no control key either: it is no carriage
    return that ends it. -/
theorem decode_controlKeys (h : Follows d previous) (chunk : List UInt8) :
    (d.decode chunk).1.events.filter Event.isControlKey = controlKeys previous chunk ∧
      Follows (d.decode chunk).2 (lastByte previous chunk) := by
  obtain ⟨hkeys, hlast⟩ := run_controlKeys h chunk
  unfold decode
  dsimp only
  split
  · next hlong =>
      refine ⟨(filter_events _).trans hkeys, ?_⟩
      cases hd : (d.run chunk).2 with
      | ready afterReturn =>
          rw [hd] at hlong
          exact absurd hlong (Nat.not_lt_zero _)
      | _ =>
          rw [hd] at hlast
          exact hlast
  · exact ⟨(filter_events _).trans hkeys, hlast⟩

theorem decodeChunks_controlKeys (h : Follows d previous) (chunks : List (List UInt8)) :
    (d.decodeChunks chunks).1.events.filter Event.isControlKey =
      controlKeys previous chunks.flatten := by
  induction chunks generalizing d previous with
  | nil => rfl
  | cons chunk rest ih =>
      obtain ⟨hfirst, hfollows⟩ := decode_controlKeys h chunk
      rw [decodeChunks, List.flatten_cons, controlKeys_append]
      dsimp only
      rw [List.filter_append, hfirst, ih hfollows]

/-- **No control key is lost, and none is made up.** However input is cut into chunks, and whatever
    it holds, the control keys among its events are those that its bytes stand for, in order. -/
theorem filter_decodeChunks (chunks : List (List UInt8)) :
    (start.decodeChunks chunks).1.events.filter Event.isControlKey =
      controlKeys none chunks.flatten :=
  decodeChunks_controlKeys ⟨fun h => absurd h (by decide), fun h => absurd h (by simp)⟩ chunks

/-- Keys inside a control sequence, inside a character and behind a lone escape character. -/
example :
    (start.decodeChunks [[0x1B, 0x5B, 0x33], [0x03, 0xE2, 0x82], [0x0D],
        [0x0A, 0x1B, 0x04]]).1.events.filter Event.isControlKey =
      [.interrupt, .newline, .endOfTransmission] := by
  decide

end Decoder

end Promptline.Terminal
