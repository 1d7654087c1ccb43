import Mathlib.Data.List.Forall2
import Mathlib.Data.Nat.Digits.Defs
import Promptline.Proofs.Terminal.Malformed
import Promptline.Proofs.Terminal.RoundTrip

set_option autoImplicit false

/-! # The grammar of control sequences

What a complete control sequence means is said here without any reading: which slots its parameter
bytes have (`written`), what a slot says (`Says`), and, row by row, which numbers each command takes
and what it then stands for (`Command`). The decoder accepts exactly these sequences, with exactly
these events; any other one is consumed too, and is a single error (`decode_controlSequence`).

That the reader keeps its numbers in 16 bits makes no difference, however long they are written
(`number?_eq`). -/

namespace Promptline.Terminal

namespace ControlSequence

/-! ## What is written -/

/-- The slots that are written: none without any bytes, else what stands between the separators. -/
def written (parameters : List UInt8) : List (List UInt8) :=
  if parameters = [] then [] else parameters.splitOn separator

/-- What a slot says: nothing if it is empty, else the number that its digits stand for, the last of
    them being the ones, with any zeros in front. No number is larger than 65535. -/
inductive Says : List UInt8 → Option UInt16 → Prop
  | nothing : Says [] none
  | number {digits : List UInt8} {n : UInt16} (hne : digits ≠ [])
      (hdigits : ∀ b ∈ digits, 0x30 ≤ b.toNat ∧ b.toNat ≤ 0x39)
      (hvalue : Nat.ofDigits 10 (digits.reverse.map fun b => b.toNat - 0x30) = n.toNat) :
      Says digits (some n)

/-- At most one slot, which counts as 1 if it is absent or empty. -/
inductive One : List (Option UInt16) → UInt16 → Prop
  | absent : One [] 1
  | slot (n : Option UInt16) : One [n] (n.getD 1)

/-- At most two slots, each of which counts as 1 if it is absent or empty. -/
inductive Two : List (Option UInt16) → UInt16 → UInt16 → Prop
  | absent : Two [] 1 1
  | row (m : Option UInt16) : Two [m] (m.getD 1) 1
  | both (m n : Option UInt16) : Two [m, n] (m.getD 1) (n.getD 1)

/-- What one slot of the attributes stands for. -/
inductive Attribute : Option UInt16 → Event → Prop
  | empty : Attribute none .resetAttributes
  | zero : Attribute (some 0) .resetAttributes
  | foreground (color : Color) : Attribute (some color.foregroundCode) (.setForeground color)
  | background (color : Color) : Attribute (some color.backgroundCode) (.setBackground color)

/-- The numbers of the attributes: the one that resets them, and two rows of colors. -/
def AttributeCode (n : Nat) : Prop :=
  n = 0 ∨ 30 ≤ n ∧ n ≤ 37 ∨ n = 39 ∨ 40 ≤ n ∧ n ≤ 47 ∨ n = 49

/-- The commands, with the numbers that each of them takes and what it then stands for. -/
inductive Command : Char → List (Option UInt16) → List Event → Prop
  | cursorUp {ns n} (h : One ns n) : Command 'A' ns [.cursorUp n]
  | cursorDown {ns n} (h : One ns n) : Command 'B' ns [.cursorDown n]
  | cursorForward {ns n} (h : One ns n) : Command 'C' ns [.cursorForward n]
  | cursorBackward {ns n} (h : One ns n) : Command 'D' ns [.cursorBackward n]
  | cursorNextLine {ns n} (h : One ns n) : Command 'E' ns [.cursorNextLine n]
  | cursorPreviousLine {ns n} (h : One ns n) : Command 'F' ns [.cursorPreviousLine n]
  | cursorColumn {ns n} (h : One ns n) : Command 'G' ns [.cursorColumn n]
  | scrollUp {ns n} (h : One ns n) : Command 'S' ns [.scrollUp n]
  | scrollDown {ns n} (h : One ns n) : Command 'T' ns [.scrollDown n]
  | position {ns row column} (h : Two ns row column) :
      Command 'H' ns [.cursorAbsolute row column]
  | positionAlso {ns row column} (h : Two ns row column) :
      Command 'f' ns [.cursorAbsolute row column]
  | eraseToEnd {ns} (h : One ns 0) : Command 'J' ns [.eraseToEnd]
  | eraseToBegin {ns} (h : One ns 1) : Command 'J' ns [.eraseToBegin]
  | eraseScreen {ns} (h : One ns 2) : Command 'J' ns [.eraseScreen]
  | eraseBuffer {ns} (h : One ns 3) : Command 'J' ns [.eraseBuffer]
  | eraseLineToEnd {ns} (h : One ns 0) : Command 'K' ns [.eraseLineToEnd]
  | eraseLineToBegin {ns} (h : One ns 1) : Command 'K' ns [.eraseLineToBegin]
  | eraseLine {ns} (h : One ns 2) : Command 'K' ns [.eraseLine]
  | saveCursor : Command 's' [] [.saveCursor]
  | restoreCursor : Command 'u' [] [.restoreCursor]
  | sizeRequest : Command 't' [some 18] [.screenSizeRequest]
  | size (height width : UInt16) :
      Command 't' [some 8, some height, some width] [.screenSize width height]
  | reset : Command 'm' [] [.resetAttributes]
  /-- One event for each slot, and none at all if there is a slot that is none of the attributes. -/
  | attributes {ns events} (hne : ns ≠ []) (h : List.Forall₂ Attribute ns events) :
      Command 'm' ns events

/-- What the parameter bytes and the final byte of a control sequence stand for together. -/
def Means (parameters : List UInt8) (final : UInt8) (events : List Event) : Prop :=
  ∃ numbers, List.Forall₂ Says (written parameters) numbers ∧
    Command (Char.ofNat final.toNat) numbers events

/-- Whatever has a meaning stands for an event at least. -/
theorem Command.ne_nil {command : Char} {ns : List (Option UInt16)} {events : List Event}
    (h : Command command ns events) : events ≠ [] := by
  cases h with
  | attributes hne h =>
      rintro rfl
      exact hne (List.forall₂_nil_right_iff.1 h)
  | _ => exact List.cons_ne_nil _ _

/-! ## Reading the parameters -/

theorem slots_eq_written (parameters : List UInt8) : slots parameters = written parameters := by
  cases parameters <;> rfl

theorem isDigit_iff {b : UInt8} : isDigit b = true ↔ 0x30 ≤ b.toNat ∧ b.toNat ≤ 0x39 := by
  simp only [isDigit, Bool.and_eq_true, decide_eq_true_eq, UInt8.le_iff_toNat_le]
  rfl

theorem fit?_eq_some_iff {n : Nat} {m : UInt16} : fit? n = some m ↔ n = m.toNat := by
  rw [fit?, Option.ite_none_right_eq_some]
  constructor
  · rintro ⟨hfits, hm⟩
    rw [← Option.some.inj hm, UInt16.toNat_ofNat_of_lt' hfits]
  · rintro rfl
    exact ⟨m.toNat_lt, congrArg some UInt16.ofNat_toNat⟩

/-- **A slot is read as what it says.** -/
theorem slot?_eq_some_iff {slot : List UInt8} {n : Option UInt16} :
    slot? slot = some n ↔ Says slot n := by
  rw [slot?]
  by_cases hempty : slot = []
  · subst hempty
    rw [List.isEmpty_nil, if_pos rfl, Option.some.injEq]
    constructor
    · rintro rfl
      exact .nothing
    · intro h
      cases h with
      | nothing => rfl
      | number hne => exact absurd rfl hne
  · rw [if_neg (by simpa using hempty), Option.ite_none_right_eq_some, List.all_eq_true,
      Option.map_eq_some_iff]
    constructor
    · rintro ⟨hdigits, m, hm, rfl⟩
      rw [number?_eq, fit?_eq_some_iff] at hm
      exact .number hempty (fun b hb => isDigit_iff.1 (hdigits b hb)) hm
    · intro h
      cases h with
      | nothing => exact absurd rfl hempty
      | @number _ m hne hdigits hvalue =>
          refine ⟨fun b hb => isDigit_iff.2 (hdigits b hb), m, ?_, rfl⟩
          rw [number?_eq, fit?_eq_some_iff]
          exact hvalue

/-- Reading all of a list succeeds with what each of its members is read as. -/
theorem mapM_eq_some_iff_forall₂ {α β : Type} {read : α → Option β} {R : α → β → Prop}
    (hread : ∀ a b, read a = some b ↔ R a b) {as : List α} {bs : List β} :
    as.mapM read = some bs ↔ List.Forall₂ R as bs := by
  induction as generalizing bs with
  | nil =>
      rw [List.mapM_nil, List.forall₂_nil_left_iff]
      exact ⟨fun h => (Option.some.inj h).symm, fun h => congrArg some h.symm⟩
  | cons a rest ih =>
      rw [List.mapM_cons, List.forall₂_cons_left_iff]
      constructor
      · intro h
        obtain ⟨b, hb, h⟩ := Option.bind_eq_some_iff.1 h
        obtain ⟨others, hothers, h⟩ := Option.bind_eq_some_iff.1 h
        exact ⟨b, others, (hread a b).1 hb, ih.1 hothers, (Option.some.inj h).symm⟩
      · rintro ⟨b, others, hb, hothers, rfl⟩
        rw [(hread a b).2 hb, ih.2 hothers]
        rfl

theorem parameters?_eq_some_iff {parameters : List UInt8} {numbers : List (Option UInt16)} :
    parameters? parameters = some numbers ↔ List.Forall₂ Says (written parameters) numbers := by
  rw [parameters?, slots_eq_written]
  exact mapM_eq_some_iff_forall₂ fun _ _ => slot?_eq_some_iff

/-! ## Commands -/

theorem single?_eq_some_iff {ns : List (Option UInt16)} {n : UInt16} :
    single? ns = some n ↔ One ns n := by
  constructor
  · intro h
    match ns, h with
    | [], rfl => exact .absent
    | [m], rfl => exact .slot m
  · intro h
    cases h <;> rfl

theorem position?_eq_some_iff {ns : List (Option UInt16)} {row column : UInt16} :
    position? ns = some (row, column) ↔ Two ns row column := by
  constructor
  · intro h
    match ns, h with
    | [], rfl => exact .absent
    | [m], rfl => exact .row m
    | [m, n], rfl => exact .both m n
  · intro h
    cases h <;> rfl

theorem offset_of_ofOffset? {n : Nat} {color : Color} (h : Color.ofOffset? n = some color) :
    n = color.offset.toNat := by
  unfold Color.ofOffset? at h
  split at h <;> cases h <;> rfl

theorem toNat_foregroundCode (color : Color) :
    color.foregroundCode.toNat = 30 + color.offset.toNat := by
  cases color <;> rfl

theorem toNat_backgroundCode (color : Color) :
    color.backgroundCode.toNat = 40 + color.offset.toNat := by
  cases color <;> rfl

theorem eq_foregroundCode {code : UInt16} {color : Color}
    (h : Color.ofForegroundCode? code = some color) : code = color.foregroundCode := by
  obtain ⟨hfirst, hoffset⟩ := Option.ite_none_right_eq_some.1 h
  have hplace := offset_of_ofOffset? hoffset
  have hcode := toNat_foregroundCode color
  exact UInt16.toNat_inj.1 (by omega)

theorem eq_backgroundCode {code : UInt16} {color : Color}
    (h : Color.ofBackgroundCode? code = some color) : code = color.backgroundCode := by
  obtain ⟨hfirst, hoffset⟩ := Option.ite_none_right_eq_some.1 h
  have hplace := offset_of_ofOffset? hoffset
  have hcode := toNat_backgroundCode color
  exact UInt16.toNat_inj.1 (by omega)

theorem attribute?_eq_some_iff {n : Option UInt16} {e : Event} :
    attribute? n = some e ↔ Attribute n e := by
  constructor
  · intro h
    unfold attribute? at h
    cases n with
    | none =>
        cases h
        exact .empty
    | some code =>
        dsimp only [Option.getD_some] at h
        by_cases hzero : code = 0
        · rw [if_pos hzero] at h
          cases h
          rw [hzero]
          exact .zero
        · rw [if_neg hzero] at h
          split at h
          · next color hcolor =>
              cases h
              rw [eq_foregroundCode hcolor]
              exact .foreground color
          · obtain ⟨color, hcolor, rfl⟩ := Option.map_eq_some_iff.1 h
            rw [eq_backgroundCode hcolor]
            exact .background color
  · intro h
    cases h with
    | empty => rfl
    | zero => rfl
    | foreground color => exact attribute?_foregroundCode color
    | background color => exact attribute?_backgroundCode color

/-- Places in a row of ten numbers that have a color. -/
theorem exists_offset_iff {n : Nat} :
    (∃ color : Color, color.offset.toNat = n) ↔ n ≤ 7 ∨ n = 9 := by
  constructor
  · rintro ⟨color, rfl⟩
    cases color <;> decide
  · intro h
    have hplace : n = 0 ∨ n = 1 ∨ n = 2 ∨ n = 3 ∨ n = 4 ∨ n = 5 ∨ n = 6 ∨ n = 7 ∨ n = 9 := by omega
    rcases hplace with rfl | rfl | rfl | rfl | rfl | rfl | rfl | rfl | rfl
    · exact ⟨.black, rfl⟩
    · exact ⟨.red, rfl⟩
    · exact ⟨.green, rfl⟩
    · exact ⟨.yellow, rfl⟩
    · exact ⟨.blue, rfl⟩
    · exact ⟨.magenta, rfl⟩
    · exact ⟨.cyan, rfl⟩
    · exact ⟨.white, rfl⟩
    · exact ⟨.default, rfl⟩

/-- A number stands for an attribute if it is in the table of their numbers. -/
theorem exists_attribute_iff {code : UInt16} :
    (∃ e, Attribute (some code) e) ↔ AttributeCode code.toNat := by
  unfold AttributeCode
  constructor
  · rintro ⟨e, h⟩
    cases h with
    | zero => exact .inl rfl
    | foreground color =>
        have hplace := exists_offset_iff.1 ⟨color, rfl⟩
        rw [toNat_foregroundCode]
        omega
    | background color =>
        have hplace := exists_offset_iff.1 ⟨color, rfl⟩
        rw [toNat_backgroundCode]
        omega
  · intro h
    have hrow : code.toNat = 0 ∨ (∃ n, code.toNat = 30 + n ∧ (n ≤ 7 ∨ n = 9)) ∨
        ∃ n, code.toNat = 40 + n ∧ (n ≤ 7 ∨ n = 9) := by
      by_cases hzero : code.toNat = 0
      · exact .inl hzero
      by_cases hfirst : code.toNat < 40
      · exact .inr (.inl ⟨code.toNat - 30, by omega, by omega⟩)
      · exact .inr (.inr ⟨code.toNat - 40, by omega, by omega⟩)
    rcases hrow with hzero | ⟨n, hcode, hplace⟩ | ⟨n, hcode, hplace⟩
    · obtain rfl : code = 0 := UInt16.toNat_inj.1 hzero
      exact ⟨_, .zero⟩
    · obtain ⟨color, rfl⟩ := exists_offset_iff.2 hplace
      obtain rfl := UInt16.toNat_inj.1 (hcode.trans (toNat_foregroundCode color).symm)
      exact ⟨_, .foreground color⟩
    · obtain ⟨color, rfl⟩ := exists_offset_iff.2 hplace
      obtain rfl := UInt16.toNat_inj.1 (hcode.trans (toNat_backgroundCode color).symm)
      exact ⟨_, .background color⟩

/-- Members of a list have successors of successors one by one if the whole list has. -/
theorem exists_forall₂_forall₂_iff {α β γ : Type} {R : α → β → Prop} {S : β → γ → Prop}
    {as : List α} :
    (∃ bs, List.Forall₂ R as bs ∧ ∃ cs, List.Forall₂ S bs cs) ↔
      ∀ a ∈ as, ∃ b, R a b ∧ ∃ c, S b c := by
  induction as with
  | nil => simp
  | cons a rest ih =>
      rw [List.forall_mem_cons, ← ih]
      constructor
      · rintro ⟨bs, hbs, cs, hcs⟩
        obtain ⟨b, bs', hb, hbs', rfl⟩ := List.forall₂_cons_left_iff.1 hbs
        obtain ⟨c, cs', hc, hcs', -⟩ := List.forall₂_cons_left_iff.1 hcs
        exact ⟨⟨b, hb, c, hc⟩, bs', hbs', cs', hcs'⟩
      · rintro ⟨⟨b, hb, c, hc⟩, bs, hbs, cs, hcs⟩
        exact ⟨b :: bs, .cons hb hbs, c :: cs, .cons hc hcs⟩

/-- Without slots, the attributes are reset; otherwise each slot has to be one. -/
theorem exists_command_attributes_iff {ns : List (Option UInt16)} :
    (∃ events, Command 'm' ns events) ↔ ∃ events, List.Forall₂ Attribute ns events := by
  constructor
  · rintro ⟨events, h⟩
    cases h with
    | reset => exact ⟨[], .nil⟩
    | attributes hne h => exact ⟨events, h⟩
  · rintro ⟨events, h⟩
    by_cases hne : ns = []
    · rw [hne]
      exact ⟨_, .reset⟩
    · exact ⟨events, .attributes hne h⟩

/-- **Slots mean attributes** exactly if each of them is empty or says the number of one. -/
theorem exists_means_attributes_iff {parameters : List UInt8} :
    (∃ events, Means parameters 0x6D events) ↔
      ∀ slot ∈ written parameters, ∃ n, Says slot n ∧ ∀ code ∈ n, AttributeCode code.toNat := by
  have hattribute : ∀ n, (∃ e, Attribute n e) ↔ ∀ code ∈ n, AttributeCode code.toNat := by
    intro n
    cases n with
    | none => exact iff_of_true ⟨_, .empty⟩ (by simp)
    | some code => simp [exists_attribute_iff]
  have hmeans : (∃ events, Means parameters 0x6D events) ↔
      ∃ ns, List.Forall₂ Says (written parameters) ns ∧ ∃ events, Command 'm' ns events := by
    constructor
    · rintro ⟨events, ns, hns, hevents⟩
      exact ⟨ns, hns, events, hevents⟩
    · rintro ⟨ns, hns, events, hevents⟩
      exact ⟨events, ns, hns, hevents⟩
  simp only [hmeans, exists_command_attributes_iff, exists_forall₂_forall₂_iff, hattribute]

theorem eraseScreen?_eq_some {n : UInt16} {e : Event} (h : eraseScreen? n = some e) :
    n = 0 ∧ e = .eraseToEnd ∨ n = 1 ∧ e = .eraseToBegin ∨ n = 2 ∧ e = .eraseScreen ∨
      n = 3 ∧ e = .eraseBuffer := by
  unfold eraseScreen? at h
  split at h <;> cases h <;> simp

theorem eraseLine?_eq_some {n : UInt16} {e : Event} (h : eraseLine? n = some e) :
    n = 0 ∧ e = .eraseLineToEnd ∨ n = 1 ∧ e = .eraseLineToBegin ∨ n = 2 ∧ e = .eraseLine := by
  unfold eraseLine? at h
  split at h <;> cases h <;> simp

/-- Numbers that a command takes are in the table. -/
theorem Command.of_events? {command : Char} {ns : List (Option UInt16)} {events : List Event}
    (h : events? command ns = some events) : Command command ns events := by
  -- most commands make one event of one number
  have hone : ∀ {make : UInt16 → Event},
      (∀ n, One ns n → Command command ns [make n]) →
      (single? ns).map (fun n => [make n]) = some events → Command command ns events := by
    intro make hmake hfound
    obtain ⟨n, hn, rfl⟩ := Option.map_eq_some_iff.1 hfound
    exact hmake n (single?_eq_some_iff.1 hn)
  unfold events? at h
  split at h
  case h_1 => exact hone (fun _ => .cursorUp) h
  case h_2 => exact hone (fun _ => .cursorDown) h
  case h_3 => exact hone (fun _ => .cursorForward) h
  case h_4 => exact hone (fun _ => .cursorBackward) h
  case h_5 => exact hone (fun _ => .cursorNextLine) h
  case h_6 => exact hone (fun _ => .cursorPreviousLine) h
  case h_7 => exact hone (fun _ => .cursorColumn) h
  case h_8 => exact hone (fun _ => .scrollUp) h
  case h_9 => exact hone (fun _ => .scrollDown) h
  case h_10 =>
      obtain ⟨⟨row, column⟩, hplace, rfl⟩ := Option.map_eq_some_iff.1 h
      exact .position (position?_eq_some_iff.1 hplace)
  case h_11 =>
      obtain ⟨⟨row, column⟩, hplace, rfl⟩ := Option.map_eq_some_iff.1 h
      exact .positionAlso (position?_eq_some_iff.1 hplace)
  case h_12 =>
      obtain ⟨e, he, rfl⟩ := Option.map_eq_some_iff.1 h
      obtain ⟨n, hn, he⟩ := Option.bind_eq_some_iff.1 he
      rw [single?_eq_some_iff] at hn
      rcases eraseScreen?_eq_some he with ⟨rfl, rfl⟩ | ⟨rfl, rfl⟩ | ⟨rfl, rfl⟩ | ⟨rfl, rfl⟩
      · exact .eraseToEnd hn
      · exact .eraseToBegin hn
      · exact .eraseScreen hn
      · exact .eraseBuffer hn
  case h_13 =>
      obtain ⟨e, he, rfl⟩ := Option.map_eq_some_iff.1 h
      obtain ⟨n, hn, he⟩ := Option.bind_eq_some_iff.1 he
      rw [single?_eq_some_iff] at hn
      rcases eraseLine?_eq_some he with ⟨rfl, rfl⟩ | ⟨rfl, rfl⟩ | ⟨rfl, rfl⟩
      · exact .eraseLineToEnd hn
      · exact .eraseLineToBegin hn
      · exact .eraseLine hn
  case h_14 =>
      obtain ⟨hnone, hevents⟩ := Option.ite_none_right_eq_some.1 h
      rw [List.isEmpty_iff.1 hnone, ← Option.some.inj hevents]
      exact .saveCursor
  case h_15 =>
      obtain ⟨hnone, hevents⟩ := Option.ite_none_right_eq_some.1 h
      rw [List.isEmpty_iff.1 hnone, ← Option.some.inj hevents]
      exact .restoreCursor
  case h_16 =>
      split at h
      · cases h
        exact .sizeRequest
      · cases h
        exact .size _ _
      · cases h
  case h_17 =>
      split at h
      · next hnone =>
          rw [List.isEmpty_iff.1 hnone, ← Option.some.inj h]
          exact .reset
      · next hsome =>
          exact .attributes (mt List.isEmpty_iff.2 hsome)
            ((mapM_eq_some_iff_forall₂ fun _ _ => attribute?_eq_some_iff).1 h)
  case h_18 => cases h

/-- Numbers that are in the table are taken. -/
theorem Command.events?_eq {command : Char} {ns : List (Option UInt16)} {events : List Event}
    (h : Command command ns events) : events? command ns = some events := by
  have hone : ∀ {n} {make : UInt16 → Event}, One ns n →
      (single? ns).map (fun n => [make n]) = some [make n] := by
    intro n make hn
    rw [single?_eq_some_iff.2 hn, Option.map_some]
  have herase : ∀ {n e} {covers : UInt16 → Option Event}, One ns n → covers n = some e →
      ((single? ns).bind covers).map (fun e => [e]) = some [e] := by
    intro n e covers hn he
    rw [single?_eq_some_iff.2 hn, Option.bind_some, he, Option.map_some]
  cases h with
  | position h | positionAlso h =>
      simp only [events?, position?_eq_some_iff.2 h, Option.map_some]
  | eraseToEnd h | eraseToBegin h | eraseScreen h | eraseBuffer h | eraseLineToEnd h
  | eraseLineToBegin h | eraseLine h => exact herase h rfl
  | saveCursor | restoreCursor | sizeRequest | size | reset => rfl
  | attributes hne h =>
      have hread := (mapM_eq_some_iff_forall₂ fun _ _ => attribute?_eq_some_iff).2 h
      simp only [events?, hread, if_neg (mt List.isEmpty_iff.1 hne)]
  | _ h => exact hone h

theorem mem_commands_of_events? {command : Char} {ns : List (Option UInt16)} {events : List Event}
    (h : events? command ns = some events) : command ∈ commands := by
  unfold events? at h
  split at h
  case h_18 => cases h
  all_goals decide

/-- **A control sequence is read as what it means.** -/
theorem events_eq_ok_iff {parameters : List UInt8} {final : UInt8} {es : List Event} :
    events parameters final = .ok es ↔ Means parameters final es := by
  rw [events]
  constructor
  · intro h
    split at h
    · cases h
    · next numbers hnumbers =>
        split at h
        · split at h
          · next found hfound =>
              cases h
              exact ⟨numbers, parameters?_eq_some_iff.1 hnumbers, .of_events? hfound⟩
          · cases h
        · cases h
  · rintro ⟨numbers, hnumbers, hcommand⟩
    have hevents := hcommand.events?_eq
    rw [parameters?_eq_some_iff.2 hnumbers]
    simp only [if_pos (mem_commands_of_events? hevents), hevents]

end ControlSequence

namespace Decoder

open ControlSequence

/-- **The grammar of control sequences.** Whatever parameter bytes and final byte stand behind the
    bracket, however many there are, a new decoder takes all of them in and has nothing open then.
    It yields given events, and no error, exactly if the sequence means these, and they are never
    none; and exactly if it means nothing, it yields one error and no event. Attributes mean
    something exactly if every slot is empty or says the number of one. -/
theorem decode_controlSequence {parameters : List UInt8} {final : UInt8}
    (hparameters : ∀ p ∈ parameters, 0x20 ≤ p.toNat ∧ p.toNat ≤ 0x3F)
    (hfinal : 0x40 ≤ final.toNat ∧ final.toNat ≤ 0x7E) :
    (start.decode (0x1B :: 0x5B :: (parameters ++ [final]))).2 = start ∧
      (∀ events, (start.decode (0x1B :: 0x5B :: (parameters ++ [final]))).1 =
          { events, errors := [] } ↔ Means parameters final events) ∧
      (∀ events, Means parameters final events → events ≠ []) ∧
      ((∃ e, (start.decode (0x1B :: 0x5B :: (parameters ++ [final]))).1 =
          { events := [], errors := [e] }) ↔ ∀ events, ¬ Means parameters final events) ∧
      (final = 0x6D → ((∃ events, Means parameters final events) ↔
        ∀ slot ∈ written parameters,
          ∃ n, Says slot n ∧ ∀ code ∈ n, AttributeCode code.toNat)) := by
  have hparameters' : ∀ p ∈ parameters, isParameterByte p = true := by
    intro p hp
    obtain ⟨hfirst, hlast⟩ := hparameters p hp
    rw [isParameterByte, Bool.and_eq_true, decide_eq_true_eq, decide_eq_true_eq]
    exact ⟨UInt8.le_iff_toNat_le.2 hfirst, UInt8.le_iff_toNat_le.2 hlast⟩
  have hfinal' : isFinalByte final = true := by
    rw [isFinalByte, Bool.and_eq_true, decide_eq_true_eq, decide_eq_true_eq]
    exact ⟨UInt8.le_iff_toNat_le.2 hfinal.1, UInt8.le_iff_toNat_le.2 hfinal.2⟩
  rw [decode_controlPieces hparameters' hfinal']
  refine ⟨rfl, ?_, fun events hmeans => ?_, ?_, ?_⟩
  · intro events
    rw [← events_eq_ok_iff]
    cases ControlSequence.events parameters final with
    | ok es => simp
    | error e => simp
  · obtain ⟨_, _, hcommand⟩ := hmeans
    exact hcommand.ne_nil
  · simp only [← events_eq_ok_iff]
    cases ControlSequence.events parameters final with
    | ok es => simp
    | error e => simp
  · rintro rfl
    exact exists_means_attributes_iff

/-- Three attributes: a number with zeros in front, an empty slot, and the ground behind text. -/
theorem decode_controlSequence_attributes :
    let parameters : List UInt8 := [0x30, 0x30, 0x33, 0x31, 0x3B, 0x3B, 0x34, 0x39]
    (∀ p ∈ parameters, 0x20 ≤ p.toNat ∧ p.toNat ≤ 0x3F) ∧
      Means parameters 0x6D [.setForeground .red, .resetAttributes, .setBackground .default] ∧
      start.decode (0x1B :: 0x5B :: (parameters ++ [0x6D])) =
        ({ events := [.setForeground .red, .resetAttributes, .setBackground .default]
           errors := [] }, start) := by
  intro parameters
  have hparameters : ∀ p ∈ parameters, 0x20 ≤ p.toNat ∧ p.toNat ≤ 0x3F := by simp [parameters]
  have hfinal : 0x40 ≤ (0x6D : UInt8).toNat ∧ (0x6D : UInt8).toNat ≤ 0x7E := by decide
  have hmeans : Means parameters 0x6D
      [.setForeground .red, .resetAttributes, .setBackground .default] := by
    refine ⟨[some 31, none, some 49], ?_, .attributes (by decide) ?_⟩
    · refine .cons (.number (by simp) (by simp) rfl) (.cons .nothing ?_)
      exact .cons (.number (by simp) (by simp) rfl) .nil
    · exact .cons (.foreground .red) (.cons .empty (.cons (.background .default) .nil))
  obtain ⟨hrest, hevents, -⟩ := decode_controlSequence hparameters hfinal
  exact ⟨hparameters, hmeans, Prod.ext ((hevents _).2 hmeans) hrest⟩

end Decoder

end Promptline.Terminal
