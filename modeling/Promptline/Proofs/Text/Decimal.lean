import Mathlib.Data.Nat.Digits.Defs
import Promptline.Text.Utf8

set_option autoImplicit false

/-! # Decimal digits

Digits are read from the front, in a text as in bytes: whatever was read counts ten times as much as
soon as another digit follows. The value is that of the places, the last of them being the ones
(`foldl_eq_ofDigits`). -/

namespace Promptline

/-- **Digits are worth what their places say**, whatever they are kept as. -/
theorem foldl_eq_ofDigits {α : Type} (digit : α → Nat) (digits : List α) :
    digits.foldl (fun n d => 10 * n + digit d) 0 = Nat.ofDigits 10 (digits.reverse.map digit) := by
  simp [Nat.ofDigits_eq_foldr, List.foldr_reverse, List.foldl_map, Nat.add_comm]

theorem ofDigitChars_eq_ofDigits (digits : List Char) :
    Nat.ofDigitChars 10 digits 0 =
      Nat.ofDigits 10 (digits.reverse.map fun d => d.toNat - '0'.toNat) := by
  rw [Nat.ofDigitChars_eq_foldl, foldl_eq_ofDigits]

/-- The bytes of ASCII characters are their code points. -/
theorem encode_ascii {s : List Char} (h : ∀ c ∈ s, c.toNat < 0x80) :
    Utf8.encode s = s.map fun c => UInt8.ofNat c.toNat := by
  induction s with
  | nil => rfl
  | cons c rest ih =>
      have hc := h c (List.mem_cons_self ..)
      have hone : String.utf8EncodeChar c = [UInt8.ofNat c.toNat] := by
        rw [String.utf8EncodeChar, if_pos (by change c.toNat ≤ 0x7F; omega)]
        rfl
      rw [Utf8.encode, List.flatMap_cons, ← Utf8.encode, hone,
        ih fun d hd => h d (List.mem_cons_of_mem _ hd)]
      rfl

end Promptline
