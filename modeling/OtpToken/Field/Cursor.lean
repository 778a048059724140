/-
  OtpToken.Field.Cursor
  ─────────────────────
  **READING FIELDS.**

  A payload is read from the left.  A field that reaches past the end is
  refused and consumes nothing; every other field consumes exactly its width,
  also a counter whose digits cannot be read.
-/
import OtpToken.Bytes.Block
import OtpToken.Bytes.Endian
import OtpToken.Capabilities
import OtpToken.Error

namespace OtpToken

/-! ## §1. Cursors. -/

/-- How far a payload has been read, and what is left of it. -/
structure Cursor where
  offset : Nat
  rest : Bytes
  deriving DecidableEq

/-- Before the first byte. -/
def Cursor.start (bs : Bytes) : Cursor := ⟨0, bs⟩

/-- Reads a value and moves on; a failure may leave the cursor behind what it
read. -/
def Decoder (α : Type) : Type := Cursor → Except DecodeError α × Cursor

namespace Decoder

variable {α β : Type}

/-- Reads nothing. -/
def pure (a : α) : Decoder α := fun c => (.ok a, c)

/-- Reads one after the other, up to the first failure. -/
def bind (m : Decoder α) (next : α → Decoder β) : Decoder β := fun c =>
  match m c with
  | (.ok a, c) => next a c
  | (.error e, c) => (.error e, c)

instance : Monad Decoder where
  pure := pure
  bind := bind

/-- Fails where it stands. -/
def fail (e : DecodeError) : Decoder α := fun c => (.error e, c)

/-- The value at the start of a payload, whatever follows it. -/
def decode (m : Decoder α) (bs : Bytes) : Except DecodeError α := (m (.start bs)).1

/-! ## §2. Fields. -/

/-- The next `width` bytes. -/
def take (width : Nat) : Decoder Bytes := fun c =>
  if width ≤ c.rest.length then
    (.ok (c.rest.take width), ⟨c.offset + width, c.rest.drop width⟩)
  else (.error (.outOfBytes width c.offset (c.offset + c.rest.length)), c)

/-- The next `n` bytes as a block. -/
def block (n : Nat) : Decoder (Block n) := fun c =>
  if h : n ≤ c.rest.length then
    (.ok ⟨c.rest.take n, List.length_take_of_le h⟩, ⟨c.offset + n, c.rest.drop n⟩)
  else (.error (.outOfBytes n c.offset (c.offset + c.rest.length)), c)

/-- One byte. -/
def byte : Decoder UInt8 := do return (← take 1).headD 0

/-- Four bytes, least significant first. -/
def word32 : Decoder UInt32 := do return UInt32.ofNat (LittleEndian.decode (← take 4))

/-- Eight bytes, least significant first. -/
def word64 : Decoder UInt64 := do return UInt64.ofNat (LittleEndian.decode (← take 8))

/-- Text up to the first zero byte of the field. -/
def text (width : Nat) : Decoder String := do
  return Utf8.decodeLossy (Bytes.untilNul (← take width))

/-- A credential up to the first zero byte of the field. -/
def secret (width : Nat) : Decoder Secret := do
  return ⟨Bytes.untilNul (← take width)⟩

/-! ## §3. Counters. -/

/-- The counter in an ASCII field: decimal digits up to the first zero byte,
possibly after one plus sign; no digits at all are zero. -/
def asciiCounter? (field : Bytes) : Option UInt64 :=
  match Bytes.untilNul field with
  | [] => some 0
  -- One plus sign in front of digits is passed over.
  | 0x2B :: digits => (Decimal.ofAscii? digits).map UInt64.ofNat
  | digits => (Decimal.ofAscii? digits).map UInt64.ofNat

/-- A counter as the token writes counters. -/
def counter : CounterEncoding → Decoder UInt64
  | .binary => word64
  | .ascii => do
      match asciiCounter? (← take 8) with
      | some n => return n
      | none => fail .asciiCounter

end Decoder

end OtpToken
