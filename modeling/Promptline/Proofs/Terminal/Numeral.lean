import Promptline.Proofs.Text.Decimal
import Promptline.Terminal.ControlSequence

set_option autoImplicit false

/-! # Numbers in control sequences

A number is written in decimal digits, and read back from their bytes. The digits of a 16-bit number
are read as that number (`slot?_decimalBytes`), whoever reads them. -/

namespace Promptline.Terminal

open Event

/-- The digits of a number are decimal digits. -/
theorem toNat_of_mem_decimal {n : UInt16} {d : Char} (h : d ∈ decimal n) :
    0x30 ≤ d.toNat ∧ d.toNat ≤ 0x39 := by
  have hd := Nat.isDigit_of_mem_toDigits (by decide) (by decide) h
  rw [Char.isDigit, Bool.and_eq_true, decide_eq_true_eq, decide_eq_true_eq] at hd
  exact ⟨UInt32.le_iff_toNat_le.1 hd.1, UInt32.le_iff_toNat_le.1 hd.2⟩

theorem decimal_ne_nil (n : UInt16) : decimal n ≠ [] :=
  Nat.toDigits_ne_nil

/-- The digits of a number have its value. -/
theorem ofDigitChars_decimal (n : UInt16) : Nat.ofDigitChars 10 (decimal n) 0 = n.toNat :=
  Nat.ofDigitChars_ten_toDigits

/-! ## The bytes of a number -/

/-- The bytes of a number. -/
def decimalBytes (n : UInt16) : List UInt8 :=
  (decimal n).map fun d => UInt8.ofNat d.toNat

theorem encode_decimal (n : UInt16) : Utf8.encode (decimal n) = decimalBytes n :=
  encode_ascii fun d hd => by
    have := toNat_of_mem_decimal hd
    omega

theorem toNat_of_mem_decimalBytes {n : UInt16} {b : UInt8} (h : b ∈ decimalBytes n) :
    0x30 ≤ b.toNat ∧ b.toNat ≤ 0x39 := by
  obtain ⟨d, hd, rfl⟩ := List.mem_map.1 h
  have := toNat_of_mem_decimal hd
  rw [UInt8.toNat_ofNat']
  omega

/-- The bytes of a number have its value. -/
theorem ofDigits_decimalBytes (n : UInt16) :
    Nat.ofDigits 10 ((decimalBytes n).reverse.map fun b => b.toNat - 0x30) = n.toNat := by
  have hdigits : ∀ d ∈ (decimal n).reverse,
      (UInt8.ofNat d.toNat).toNat - 0x30 = d.toNat - '0'.toNat := by
    intro d hd
    have hrange := toNat_of_mem_decimal (List.mem_reverse.1 hd)
    rw [UInt8.toNat_ofNat', Nat.mod_eq_of_lt (by omega)]
    rfl
  rw [decimalBytes, ← List.map_reverse, List.map_map, ← ofDigitChars_decimal,
    ofDigitChars_eq_ofDigits]
  exact congrArg _ (List.map_congr_left hdigits)

/-! ## Reading digits in 16 bits -/

namespace ControlSequence

/-- One more digit, as far as it fits in. -/
theorem withDigit?_eq (n : UInt16) (digit : UInt8) :
    withDigit? n digit = fit? (10 * n.toNat + (digit.toNat - 0x30)) := by
  unfold withDigit?
  rw [Nat.mul_comm]
  by_cases htens : 10 * n.toNat < 65536
  · have hfits : fit? (10 * n.toNat) = some (UInt16.ofNat (10 * n.toNat)) := if_pos htens
    rw [hfits, Option.bind_eq_bind, Option.bind_some, UInt16.toNat_ofNat_of_lt' htens]
  · have htens' : fit? (10 * n.toNat) = none := if_neg htens
    have hsum : fit? (10 * n.toNat + (digit.toNat - 0x30)) = none := if_neg (by omega)
    rw [htens', hsum]
    rfl

/-- Digits do not make a number smaller. -/
theorem le_foldl_digits (digits : List UInt8) (n : Nat) :
    n ≤ digits.foldl (fun n b => 10 * n + (b.toNat - 0x30)) n := by
  induction digits generalizing n with
  | nil => exact Nat.le_refl n
  | cons b rest ih => exact Nat.le_trans (by omega) (ih (10 * n + (b.toNat - 0x30)))

/-- **Checked reading agrees with the value.** However many digits there are, a number that is
    given up as soon as it leaves 16 bits is one whose value does, and otherwise it is the value. -/
theorem number?_eq (digits : List UInt8) :
    number? digits = fit? (Nat.ofDigits 10 (digits.reverse.map fun b => b.toNat - 0x30)) := by
  have hread : ∀ n : UInt16, digits.foldlM withDigit? n =
      fit? (digits.foldl (fun n b => 10 * n + (b.toNat - 0x30)) n.toNat) := by
    induction digits with
    | nil =>
        intro n
        have hfits : fit? n.toNat = some (UInt16.ofNat n.toNat) := if_pos n.toNat_lt
        rw [List.foldlM_nil, List.foldl_nil, hfits, UInt16.ofNat_toNat]
        rfl
    | cons b rest ih =>
        intro n
        rw [List.foldlM_cons, withDigit?_eq, List.foldl_cons]
        by_cases hfits : 10 * n.toNat + (b.toNat - 0x30) < 65536
        · have hnext : fit? (10 * n.toNat + (b.toNat - 0x30)) =
              some (UInt16.ofNat (10 * n.toNat + (b.toNat - 0x30))) := if_pos hfits
          rw [hnext, Option.bind_eq_bind, Option.bind_some, ih, UInt16.toNat_ofNat_of_lt' hfits]
        · -- what is too large stays so, whatever digits follow
          have hnext : fit? (10 * n.toNat + (b.toNat - 0x30)) = none := if_neg hfits
          have hlarge := le_foldl_digits rest (10 * n.toNat + (b.toNat - 0x30))
          have hlast : fit? (rest.foldl (fun n b => 10 * n + (b.toNat - 0x30))
              (10 * n.toNat + (b.toNat - 0x30))) = none := if_neg (by omega)
          rw [hnext, hlast]
          rfl
  rw [number?, hread 0, UInt16.toNat_zero, foldl_eq_ofDigits]

end ControlSequence

/-- **Numbers are read as they were written.** -/
theorem slot?_decimalBytes (n : UInt16) :
    ControlSequence.slot? (decimalBytes n) = some (some n) := by
  have hne : (decimalBytes n).isEmpty = false := by
    simp [decimalBytes, decimal_ne_nil]
  have hdigits : (decimalBytes n).all ControlSequence.isDigit = true := by
    rw [List.all_eq_true]
    intro b hb
    have := toNat_of_mem_decimalBytes hb
    simp [ControlSequence.isDigit, UInt8.le_iff_toNat_le]
    omega
  have hnumber : ControlSequence.number? (decimalBytes n) = some n := by
    rw [ControlSequence.number?_eq, ofDigits_decimalBytes, ControlSequence.fit?, if_pos n.toNat_lt,
      UInt16.ofNat_toNat]
  rw [ControlSequence.slot?, hne, if_neg (by simp), if_pos hdigits, hnumber]
  rfl

end Promptline.Terminal
