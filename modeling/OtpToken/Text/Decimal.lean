/-
  OtpToken.Text.Decimal
  ─────────────────────
  **DECIMAL NUMERALS.**

  Codes, counters and sizes are shown in decimal: no sign, no separators,
  no leading zeros unless a width asks for them (`padded`).  A width never
  cuts a longer numeral.
-/
import OtpToken.Bytes.Basic

namespace OtpToken.Decimal

/-- The decimal digits of `n`, without leading zeros. -/
def digits (n : Nat) : List Char := Nat.toDigits 10 n

/-- The number that a list of decimal digits stands for. -/
def value (cs : List Char) : Nat := Nat.ofDigitChars 10 cs 0

theorem value_digits (n : Nat) : value (digits n) = n := Nat.ofDigitChars_ten_toDigits

/-- The numeral of `n`. -/
def text (n : Nat) : String := String.ofList (digits n)

/-- The numeral of `n` with zeros before it up to `width` digits. -/
def padded (width n : Nat) : String :=
  String.ofList (List.replicate (width - (digits n).length) '0' ++ digits n)

theorem value_padded (width n : Nat) : value (padded width n).toList = n := by
  rw [padded, String.toList_ofList, value, Nat.ofDigitChars_append,
    Nat.ofDigitChars_replicate_zero, Nat.mul_zero]
  exact value_digits n

/-- The digit that an ASCII byte stands for. -/
def digitOf? (b : UInt8) : Option Nat :=
  if 0x30 ≤ b.toNat ∧ b.toNat ≤ 0x39 then some (b.toNat - 0x30) else none

/-- The number written in ASCII digits, at least one. -/
def ofAscii? : Bytes → Option Nat
  | [] => none
  | b :: bs => go 0 (b :: bs)
where
  go (acc : Nat) : Bytes → Option Nat
    | [] => some acc
    | b :: bs => (digitOf? b).bind fun d => go (acc * 10 + d) bs

end OtpToken.Decimal
