/-
  OtpToken.Bytes.Block
  ────────────────────
  **BYTE STRINGS OF ONE LENGTH.**

  Reports, payloads and the config register have a fixed size.  The size is
  part of the type, so a piece cut out of a report is always there.
-/
import OtpToken.Bytes.Basic

namespace OtpToken

/-- A string of exactly `n` bytes. -/
structure Block (n : Nat) where
  bytes : Bytes
  length_bytes : bytes.length = n
  deriving DecidableEq

namespace Block

attribute [simp] length_bytes

theorem ext_bytes {n : Nat} {a b : Block n} (h : a.bytes = b.bytes) : a = b := by
  cases a; cases b; cases h; rfl

/-- The block of zero bytes. -/
def zero (n : Nat) : Block n := ⟨List.replicate n 0, List.length_replicate⟩

/-- `bs` as a block, if it has the length. -/
def ofBytes? (n : Nat) (bs : Bytes) : Option (Block n) :=
  if h : bs.length = n then some ⟨bs, h⟩ else none

/-- `bs` with zero bytes after it, for a `bs` that fits. -/
def padded {n : Nat} (bs : Bytes) (h : bs.length ≤ n) : Block n :=
  ⟨Bytes.padTo n bs, Bytes.length_padTo h⟩

/-- The byte at an offset; zero past the end. -/
def byte {n : Nat} (b : Block n) (offset : Nat) : UInt8 := b.bytes.getD offset 0

/-- `width` bytes from `start` on, for a piece that lies inside. -/
def slice {n : Nat} (b : Block n) (start width : Nat) (h : start + width ≤ n) : Block width :=
  ⟨(b.bytes.drop start).take width, by
    have := b.length_bytes
    simp only [List.length_take, List.length_drop]
    omega⟩

/-- One byte replaced; nothing changes past the end. -/
def update {n : Nat} (b : Block n) (offset : Nat) (value : UInt8) : Block n :=
  ⟨b.bytes.set offset value, by simp⟩

end Block

end OtpToken
