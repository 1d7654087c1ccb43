import Promptline.Text.Utf8

set_option autoImplicit false

/-! # Decoding undoes encoding

The bytes of one character are a lead byte that announces their number, and continuation bytes
that carry six bits each. From that shape follows what every reader of such bytes needs: the whole
decodes to the character (`Form.decode?_eq`), and each proper beginning of it decodes to
nothing and is known as a beginning, so that a text read byte by byte comes back
(`pieces_encode`). Nor do other bytes decode to a character, and reading loses no byte, so the bytes
that are read as a text are those of that text (`decodeAll?_eq_some_iff`). -/

namespace Promptline.Utf8

/-! ## Bytes as numbers -/

theorem isContinuation_iff (b : UInt8) :
    isContinuation b = true ↔ 0x80 ≤ b.toNat ∧ b.toNat < 0xC0 := by
  simp [isContinuation, UInt8.lt_iff_toNat_lt, UInt8.le_iff_toNat_le]

/-- The length that a lead byte announces, as a matter of its number. -/
theorem expectedLength_eq (b : UInt8) :
    expectedLength b =
      if b.toNat < 0xC0 then 1 else if b.toNat < 0xE0 then 2 else if b.toNat < 0xF0 then 3
      else if b.toNat < 0xF8 then 4 else 1 := by
  simp [expectedLength, UInt8.lt_iff_toNat_lt]

theorem expectedLength_le (b : UInt8) : expectedLength b ≤ 4 := by
  rw [expectedLength_eq]
  repeat' split
  all_goals decide

/-- Only a lead byte takes more bytes. -/
theorem lead_of_expectedLength {b : UInt8} (h : 1 < expectedLength b) :
    0xC0 ≤ b.toNat ∧ b.toNat ≤ 0xF7 := by
  rw [expectedLength_eq] at h
  repeat' split at h
  all_goals omega

/-- A byte from `0x80` on is no character by itself. -/
theorem decode?_singleton_eq_none {b : UInt8} (h : 0x80 ≤ b.toNat) : decode? [b] = none := by
  rw [decode?, if_neg]
  rw [UInt8.lt_iff_toNat_lt]
  exact Nat.not_lt.2 h

/-- Bytes that are a character are as many as the first of them announces, and the others only
    continue it. -/
theorem shape_of_decode? {lead : UInt8} {tail : List UInt8} {c : Char}
    (h : decode? (lead :: tail) = some c) :
    tail.length + 1 = expectedLength lead ∧ ∀ b ∈ tail, isContinuation b = true := by
  match tail, h with
  | [], h =>
      have hlead : lead.toNat < 0x80 := by
        refine Nat.lt_of_not_le fun hle => ?_
        rw [decode?_singleton_eq_none hle] at h
        exact nomatch h
      rw [expectedLength_eq, if_pos (by omega)]
      exact ⟨rfl, fun _ hb => absurd hb List.not_mem_nil⟩
  | [b], h =>
      rw [decode?, Option.ite_none_right_eq_some] at h
      exact ⟨h.1.1.symm, by simpa using h.1.2⟩
  | [b, b'], h =>
      rw [decode?, Option.ite_none_right_eq_some] at h
      exact ⟨h.1.1.symm, by simpa using h.1.2⟩
  | [b, b', b''], h =>
      rw [decode?, Option.ite_none_right_eq_some] at h
      exact ⟨h.1.1.symm, by simpa using h.1.2⟩

/-! ## The shape of an encoded character -/

/-- A byte that continues a character and carries the last six bits of a number. -/
def continuation (n : Nat) : UInt8 :=
  UInt8.ofNat (n % 64 + 0x80)

/-- The first of two bytes, with the last five bits of a number. -/
def leadOfTwo (n : Nat) : UInt8 :=
  UInt8.ofNat (n % 32 + 0xC0)

/-- The first of three bytes, with the last four bits of a number. -/
def leadOfThree (n : Nat) : UInt8 :=
  UInt8.ofNat (n % 16 + 0xE0)

/-- The first of four bytes, with the last three bits of a number. -/
def leadOfFour (n : Nat) : UInt8 :=
  UInt8.ofNat (n % 8 + 0xF0)

theorem toNat_continuation (n : Nat) : (continuation n).toNat = n % 64 + 0x80 := by
  rw [continuation, UInt8.toNat_ofNat']
  omega

theorem toNat_leadOfTwo (n : Nat) : (leadOfTwo n).toNat = n % 32 + 0xC0 := by
  rw [leadOfTwo, UInt8.toNat_ofNat']
  omega

theorem toNat_leadOfThree (n : Nat) : (leadOfThree n).toNat = n % 16 + 0xE0 := by
  rw [leadOfThree, UInt8.toNat_ofNat']
  omega

theorem toNat_leadOfFour (n : Nat) : (leadOfFour n).toNat = n % 8 + 0xF0 := by
  rw [leadOfFour, UInt8.toNat_ofNat']
  omega

@[simp]
theorem isContinuation_continuation (n : Nat) : isContinuation (continuation n) = true := by
  rw [isContinuation_iff, toNat_continuation]
  omega

@[simp]
theorem payload_continuation (n : Nat) : payload (continuation n) = n % 64 := by
  rw [payload, toNat_continuation]
  omega

@[simp]
theorem expectedLength_leadOfTwo (n : Nat) : expectedLength (leadOfTwo n) = 2 := by
  rw [expectedLength_eq, toNat_leadOfTwo, if_neg (by omega), if_pos (by omega)]

@[simp]
theorem expectedLength_leadOfThree (n : Nat) : expectedLength (leadOfThree n) = 3 := by
  rw [expectedLength_eq, toNat_leadOfThree, if_neg (by omega), if_neg (by omega),
    if_pos (by omega)]

@[simp]
theorem expectedLength_leadOfFour (n : Nat) : expectedLength (leadOfFour n) = 4 := by
  rw [expectedLength_eq, toNat_leadOfFour, if_neg (by omega), if_neg (by omega),
    if_neg (by omega), if_pos (by omega)]

/-- The four forms of an encoded character, each with the code points that take it. Surrogates
    would take the third. -/
inductive Form (c : Char) : List UInt8 → Prop where
  | one (h : c.toNat < 0x80) : Form c [UInt8.ofNat c.toNat]
  | two (h : 0x80 ≤ c.toNat) (h' : c.toNat < 0x800) :
      Form c [leadOfTwo (c.toNat / 64), continuation c.toNat]
  | three (h : 0x800 ≤ c.toNat) (h' : c.toNat < 0x10000)
      (hs : ¬ (0xD800 ≤ c.toNat ∧ c.toNat < 0xE000)) :
      Form c [leadOfThree (c.toNat / 4096), continuation (c.toNat / 64), continuation c.toNat]
  | four (h : 0x10000 ≤ c.toNat) (h' : c.toNat < 0x110000) :
      Form c [leadOfFour (c.toNat / 262144), continuation (c.toNat / 4096),
        continuation (c.toNat / 64), continuation c.toNat]

theorem form_utf8EncodeChar (c : Char) : Form c (String.utf8EncodeChar c) := by
  have hvalid : c.toNat < 0xD800 ∨ 0xDFFF < c.toNat ∧ c.toNat < 0x110000 := c.valid
  have hval : c.val.toNat = c.toNat := rfl
  simp only [String.utf8EncodeChar, hval]
  split
  · exact .one (by omega)
  · split
    · exact .two (by omega) (by omega)
    · split
      · exact .three (by omega) (by omega) (by omega)
      · exact .four (by omega) (by omega)

/-- The bytes of a character that is no control character are none either. -/
theorem Form.le_of_mem {c : Char} {bs : List UInt8} (h : Form c bs) (hc : 0x20 ≤ c.toNat) :
    ∀ b ∈ bs, 0x20 ≤ b.toNat := by
  cases h with
  | one h =>
      intro b hb
      rw [List.mem_singleton.1 hb, UInt8.toNat_ofNat']
      omega
  | two h h' =>
      simp only [List.forall_mem_cons, toNat_leadOfTwo, toNat_continuation]
      exact ⟨by omega, by omega, fun _ hb => absurd hb List.not_mem_nil⟩
  | three h h' hs =>
      simp only [List.forall_mem_cons, toNat_leadOfThree, toNat_continuation]
      exact ⟨by omega, by omega, by omega, fun _ hb => absurd hb List.not_mem_nil⟩
  | four h h' =>
      simp only [List.forall_mem_cons, toNat_leadOfFour, toNat_continuation]
      exact ⟨by omega, by omega, by omega, by omega, fun _ hb => absurd hb List.not_mem_nil⟩

/-! ## Reading an encoded character -/

theorem scalar?_toNat (c : Char) (least : Nat) (h : least ≤ c.toNat) :
    scalar? least c.toNat = some c := by
  have hvalid : c.toNat.isValidChar := c.valid
  rw [scalar?, if_pos ⟨h, hvalid⟩, Char.ofNat_toNat]

theorem Form.decode?_eq {c : Char} {bs : List UInt8} (h : Form c bs) : decode? bs = some c := by
  cases h with
  | one h =>
      have hn : (UInt8.ofNat c.toNat).toNat = c.toNat := by
        rw [UInt8.toNat_ofNat']
        omega
      rw [decode?, if_pos (by rw [UInt8.lt_iff_toNat_lt, hn]; exact h), hn, Char.ofNat_toNat]
  | two h h' =>
      rw [decode?, if_pos (by simp), toNat_leadOfTwo, payload_continuation,
        show (c.toNat / 64 % 32 + 0xC0) % 32 * 64 + c.toNat % 64 = c.toNat by omega]
      exact scalar?_toNat c _ h
  | three h h' hs =>
      rw [decode?, if_pos (by simp), toNat_leadOfThree, payload_continuation,
        payload_continuation,
        show ((c.toNat / 4096 % 16 + 0xE0) % 16 * 64 + c.toNat / 64 % 64) * 64 + c.toNat % 64
          = c.toNat by omega]
      exact scalar?_toNat c _ h
  | four h h' =>
      rw [decode?, if_pos (by simp), toNat_leadOfFour, payload_continuation,
        payload_continuation, payload_continuation,
        show (((c.toNat / 262144 % 8 + 0xF0) % 8 * 64 + c.toNat / 4096 % 64) * 64
          + c.toNat / 64 % 64) * 64 + c.toNat % 64 = c.toNat by omega]
      exact scalar?_toNat c _ h

/-! ## Reading a text byte by byte -/

/-- A byte behind a beginning that decodes to nothing with it, and still is a beginning. -/
theorem read_eq_open (start : List UInt8) (b : UInt8) (hd : decode? (start ++ [b]) = none)
    (hp : isProperStart (start ++ [b]) = true) : read start b = ([], start ++ [b]) := by
  unfold read readFresh
  cases start with
  | nil =>
      simp only [List.nil_append] at hd hp
      simp [hd, hp]
  | cons a rest =>
      simp only [List.cons_append] at hd hp
      simp [hd, hp]

/-- The byte that completes a character. -/
theorem read_eq_char (start : List UInt8) {b : UInt8} {c : Char}
    (hd : decode? (start ++ [b]) = some c) : read start b = ([.char c], []) := by
  unfold read readFresh
  cases start with
  | nil =>
      simp only [List.nil_append] at hd
      simp [hd]
  | cons a rest =>
      simp only [List.cons_append] at hd
      simp [hd]

/-- Reading the bytes of a character one by one, with nothing open, yields the character. -/
theorem Form.piecesFrom_append {c : Char} {bs : List UInt8} (h : Form c bs)
    (rest : List UInt8) : piecesFrom [] (bs ++ rest) = .char c :: piecesFrom [] rest := by
  have hdec := h.decode?_eq
  cases h with
  | one h =>
      simp only [List.cons_append, List.nil_append, piecesFrom, read_eq_char [] hdec]
  | two h h' =>
      have ha := toNat_leadOfTwo (c.toNat / 64)
      have h0 := read_eq_open [] (leadOfTwo (c.toNat / 64))
        (decode?_singleton_eq_none (by omega)) (by
          simp [isProperStart, UInt8.le_iff_toNat_le, ha]
          omega)
      simp only [List.cons_append, List.nil_append, piecesFrom, h0,
        read_eq_char [_] hdec]
  | three h h' hs =>
      have ha := toNat_leadOfThree (c.toNat / 4096)
      have hb := toNat_continuation (c.toNat / 64)
      have h0 := read_eq_open [] (leadOfThree (c.toNat / 4096))
        (decode?_singleton_eq_none (by omega)) (by
          simp [isProperStart, UInt8.le_iff_toNat_le, ha]
          omega)
      have h1 := read_eq_open [leadOfThree (c.toNat / 4096)] (continuation (c.toNat / 64))
        (by simp [decode?]) (by
          simp [isProperStart, UInt8.le_iff_toNat_le, UInt8.lt_iff_toNat_lt, ← UInt8.toNat_inj,
            ha, hb]
          omega)
      simp only [List.cons_append, List.nil_append, piecesFrom, h0, h1,
        read_eq_char [_, _] hdec]
  | four h h' =>
      have ha := toNat_leadOfFour (c.toNat / 262144)
      have hb := toNat_continuation (c.toNat / 4096)
      have h0 := read_eq_open [] (leadOfFour (c.toNat / 262144))
        (decode?_singleton_eq_none (by omega)) (by
          simp [isProperStart, UInt8.le_iff_toNat_le, ha]
          omega)
      have h1 := read_eq_open [leadOfFour (c.toNat / 262144)] (continuation (c.toNat / 4096))
        (by simp [decode?]) (by
          simp [isProperStart, UInt8.le_iff_toNat_le, UInt8.lt_iff_toNat_lt, ← UInt8.toNat_inj,
            ha, hb]
          omega)
      have h2 := read_eq_open [leadOfFour (c.toNat / 262144), continuation (c.toNat / 4096)]
        (continuation (c.toNat / 64)) (by simp [decode?]) (by
          simp [isProperStart, UInt8.le_iff_toNat_le, UInt8.lt_iff_toNat_lt, ← UInt8.toNat_inj,
            ha, hb]
          omega)
      simp only [List.cons_append, List.nil_append, piecesFrom, h0, h1, h2,
        read_eq_char [_, _, _] hdec]

/-- A text that was encoded is cut into its characters. -/
theorem pieces_encode (text : List Char) : pieces (encode text) = text.map .char := by
  unfold pieces
  induction text with
  | nil => rfl
  | cons c rest ih =>
      rw [encode, List.flatMap_cons, (form_utf8EncodeChar c).piecesFrom_append, ← encode, ih,
        List.map_cons]

/-! ## Encoding undoes decoding -/

theorem toNat_charOfNat {n : Nat} (h : n.isValidChar) : (Char.ofNat n).toNat = n := by
  rw [Char.ofNat, dif_pos h]
  rfl

theorem of_scalar?_eq_some {least n : Nat} {c : Char} (h : scalar? least n = some c) :
    least ≤ n ∧ c.toNat = n := by
  rw [scalar?, Option.ite_none_right_eq_some] at h
  obtain ⟨⟨hleast, hvalid⟩, hc⟩ := h
  rw [← Option.some.inj hc, toNat_charOfNat hvalid]
  exact ⟨hleast, rfl⟩

theorem eq_continuation {b : UInt8} {n : Nat} (h : isContinuation b = true)
    (hn : payload b = n % 64) : b = continuation n := by
  rw [isContinuation_iff] at h
  rw [payload] at hn
  rw [← UInt8.toNat_inj, toNat_continuation]
  omega

theorem toNat_of_expectedLength (b : UInt8) :
    (expectedLength b = 2 → 0xC0 ≤ b.toNat ∧ b.toNat < 0xE0) ∧
      (expectedLength b = 3 → 0xE0 ≤ b.toNat ∧ b.toNat < 0xF0) ∧
      (expectedLength b = 4 → 0xF0 ≤ b.toNat ∧ b.toNat < 0xF8) := by
  rw [expectedLength_eq]
  repeat' split
  all_goals omega

theorem eq_leadOfTwo {b : UInt8} {n : Nat} (h : expectedLength b = 2)
    (hn : b.toNat % 32 = n % 32) : b = leadOfTwo n := by
  have hb := (toNat_of_expectedLength b).1 h
  rw [← UInt8.toNat_inj, toNat_leadOfTwo]
  omega

theorem eq_leadOfThree {b : UInt8} {n : Nat} (h : expectedLength b = 3)
    (hn : b.toNat % 16 = n % 16) : b = leadOfThree n := by
  have hb := (toNat_of_expectedLength b).2.1 h
  rw [← UInt8.toNat_inj, toNat_leadOfThree]
  omega

theorem eq_leadOfFour {b : UInt8} {n : Nat} (h : expectedLength b = 4)
    (hn : b.toNat % 8 = n % 8) : b = leadOfFour n := by
  have hb := (toNat_of_expectedLength b).2.2 h
  rw [← UInt8.toNat_inj, toNat_leadOfFour]
  omega

/-- Bytes that decode to a character have one of its forms. -/
theorem form_of_decode? {bs : List UInt8} {c : Char} (h : decode? bs = some c) : Form c bs := by
  have hvalid : c.toNat < 0xD800 ∨ 0xDFFF < c.toNat ∧ c.toNat < 0x110000 := c.valid
  match bs, h with
  | [a], h =>
      rw [decode?, Option.ite_none_right_eq_some, UInt8.lt_iff_toNat_lt] at h
      obtain ⟨ha, hc⟩ := h
      have hn : c.toNat = a.toNat := by
        rw [← Option.some.inj hc, toNat_charOfNat (.inl (Nat.lt_trans ha (by decide)))]
      have hone := Form.one (c := c) (by rw [hn]; exact ha)
      rwa [hn, UInt8.ofNat_toNat] at hone
  | [a, b], h =>
      rw [decode?, Option.ite_none_right_eq_some] at h
      obtain ⟨⟨ha, hb⟩, hc⟩ := h
      obtain ⟨hleast, hn⟩ := of_scalar?_eq_some hc
      have hbits : payload b < 64 := Nat.mod_lt _ (by decide)
      rw [eq_leadOfTwo (n := c.toNat / 64) ha (by omega),
        eq_continuation (n := c.toNat) hb (by omega)]
      exact .two (by omega) (by omega)
  | [a, b, b'], h =>
      rw [decode?, Option.ite_none_right_eq_some] at h
      obtain ⟨⟨ha, hb, hb'⟩, hc⟩ := h
      obtain ⟨hleast, hn⟩ := of_scalar?_eq_some hc
      have hbits : payload b < 64 := Nat.mod_lt _ (by decide)
      have hbits' : payload b' < 64 := Nat.mod_lt _ (by decide)
      rw [eq_leadOfThree (n := c.toNat / 4096) ha (by omega),
        eq_continuation (n := c.toNat / 64) hb (by omega),
        eq_continuation (n := c.toNat) hb' (by omega)]
      exact .three (by omega) (by omega) (by omega)
  | [a, b, b', b''], h =>
      rw [decode?, Option.ite_none_right_eq_some] at h
      obtain ⟨⟨ha, hb, hb', hb''⟩, hc⟩ := h
      obtain ⟨hleast, hn⟩ := of_scalar?_eq_some hc
      have hbits : payload b < 64 := Nat.mod_lt _ (by decide)
      have hbits' : payload b' < 64 := Nat.mod_lt _ (by decide)
      have hbits'' : payload b'' < 64 := Nat.mod_lt _ (by decide)
      rw [eq_leadOfFour (n := c.toNat / 262144) ha (by omega),
        eq_continuation (n := c.toNat / 4096) hb (by omega),
        eq_continuation (n := c.toNat / 64) hb' (by omega),
        eq_continuation (n := c.toNat) hb'' (by omega)]
      exact .four (by omega) (by omega)

/-- A character has one form. -/
theorem Form.eq_utf8EncodeChar {c : Char} {bs : List UInt8} (h : Form c bs) :
    bs = String.utf8EncodeChar c := by
  have h' := form_utf8EncodeChar c
  generalize String.utf8EncodeChar c = bs' at h'
  cases h with
  | one h => cases h' with
    | one => rfl
    | two | three | four => omega
  | two => cases h' with
    | two => rfl
    | one | three | four => omega
  | three => cases h' with
    | three => rfl
    | one | two | four => omega
  | four => cases h' with
    | four => rfl
    | one | two | three => omega

/-- The bytes that a piece was read from. -/
def Piece.bytes : Piece → List UInt8
  | .char c => String.utf8EncodeChar c
  | .broken bytes => bytes

theorem bytes_readFresh (b : UInt8) :
    (readFresh b).1.flatMap Piece.bytes ++ (readFresh b).2 = [b] := by
  unfold readFresh
  split
  · next c hc => simp [Piece.bytes, (form_of_decode? hc).eq_utf8EncodeChar]
  · split
    · rfl
    · rfl

/-- No byte gets lost: those that are read are in the pieces or still open. -/
theorem bytes_read (start : List UInt8) (b : UInt8) :
    (read start b).1.flatMap Piece.bytes ++ (read start b).2 = start ++ [b] := by
  unfold read
  split
  · next hstart => rw [List.isEmpty_iff.1 hstart, bytes_readFresh, List.nil_append]
  · split
    · next c hc => simp [Piece.bytes, (form_of_decode? hc).eq_utf8EncodeChar]
    · split
      · rfl
      · dsimp only
        rw [List.flatMap_cons, List.append_assoc, bytes_readFresh]
        rfl

theorem bytes_piecesFrom (start bytes : List UInt8) :
    (piecesFrom start bytes).flatMap Piece.bytes = start ++ bytes := by
  induction bytes generalizing start with
  | nil =>
      rw [piecesFrom]
      split
      · next hstart => simp [List.isEmpty_iff.1 hstart]
      · simp [Piece.bytes]
  | cons b rest ih =>
      rw [piecesFrom]
      dsimp only
      rw [List.flatMap_append, ih, ← List.append_assoc, bytes_read, List.append_assoc,
        List.singleton_append]

theorem decodeAll?_eq_some_iff_pieces {bytes : List UInt8} {text : List Char} :
    decodeAll? bytes = some text ↔ pieces bytes = text.map .char := by
  unfold decodeAll?
  generalize pieces bytes = ps
  induction ps generalizing text with
  | nil => simp [eq_comm]
  | cons p ps ih =>
      cases p with
      | char c =>
          simp only [List.mapM_cons, Option.bind_eq_bind, Option.bind_some, Option.pure_def,
            Option.bind_eq_some_iff, Option.some.injEq, ih]
          constructor
          · rintro ⟨rest, rfl, rfl⟩
            rfl
          · intro h
            cases text with
            | nil => cases h
            | cons d rest =>
                cases h
                exact ⟨rest, rfl, rfl⟩
      | broken bs => cases text <;> simp [List.mapM_cons]

/-- Bytes are read as a text just if they are the bytes of that text. -/
theorem decodeAll?_eq_some_iff {bytes : List UInt8} {text : List Char} :
    decodeAll? bytes = some text ↔ bytes = encode text := by
  rw [decodeAll?_eq_some_iff_pieces]
  constructor
  · intro h
    have hbytes := bytes_piecesFrom [] bytes
    rw [← pieces, h, List.flatMap_map, List.nil_append] at hbytes
    exact hbytes.symm
  · rintro rfl
    exact pieces_encode text

end Promptline.Utf8
