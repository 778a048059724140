/-
  OtpToken.Text.Hex
  ─────────────────
  **HEXADECIMAL DIGITS.**

  Secrets are typed as pairs of hex digits of either case.  Reading tells the
  two ways in which a text is no hex apart: an odd number of digits, which is
  looked at first, and the offset of the first byte that is no digit.
-/
import OtpToken.Bytes.Basic
import OtpToken.Text.Utf8
import OtpToken.Text.Decimal

namespace OtpToken.Hex

/-! ## §1. Writing. -/

/-- The two lower-case digits of a byte. -/
def ofByte (b : UInt8) : List Char :=
  [Nat.digitChar (b.toNat / 16), Nat.digitChar (b.toNat % 16)]

/-- Two lower-case digits for each byte. -/
def encode (bs : Bytes) : String := String.ofList (bs.flatMap ofByte)

/-- The lower-case hex numeral of `n` with zeros before it up to `width`
digits. -/
def padded (width n : Nat) : String :=
  let digits := Nat.toDigits 16 n
  String.ofList (List.replicate (width - digits.length) '0' ++ digits)

/-- A number as error texts show it: `0x` and at least `width` digits. -/
def marked (width n : Nat) : String := "0x" ++ padded width n

/-! ## §2. Reading. -/

/-- The value of an ASCII hex digit of either case. -/
def digitOf? (b : UInt8) : Option Nat :=
  let n := b.toNat
  if 0x30 ≤ n ∧ n ≤ 0x39 then some (n - 0x30)
  else if 0x61 ≤ n ∧ n ≤ 0x66 then some (n - 0x57)
  else if 0x41 ≤ n ∧ n ≤ 0x46 then some (n - 0x37)
  else none

/-- Why a text is no hex. -/
inductive Fault where
  /-- It has an odd number of bytes. -/
  | oddLength (length : Nat)
  /-- The byte at `offset` is the first that is no hex digit. -/
  | symbol (offset : Nat)
  deriving DecidableEq

/-- The wording of a fault. -/
def Fault.message : Fault → String
  | .oddLength length => "odd number of digits (" ++ Decimal.text length ++ ")"
  | .symbol offset => "invalid symbol at " ++ Decimal.text offset

/-- Each pair of digits as a byte. -/
def pairs : Bytes → Bytes
  | hi :: lo :: rest =>
      UInt8.ofNat (16 * (digitOf? hi).getD 0 + (digitOf? lo).getD 0) :: pairs rest
  | _ => []

/-- The bytes that a hex text stands for. -/
def decode (digits : Bytes) : Except Fault Bytes :=
  if digits.length % 2 = 1 then .error (.oddLength digits.length)
  else match digits.findIdx? fun b => (digitOf? b).isNone with
    | some offset => .error (.symbol offset)
    | none => .ok (pairs digits)

end OtpToken.Hex
