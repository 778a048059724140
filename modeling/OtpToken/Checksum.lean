/-
  OtpToken.Checksum
  ─────────────────
  **THE CHECKSUM OF A REPORT.**

  A shift register of 32 bits with the generator 0x04C11DB7: no reflection,
  no final complement, all ones at the start.  It takes the bytes of each
  little-endian word from the top down, and zeros for what is missing from the
  last word.

  `checksum` feeds the register a byte at a time; `Register.ofWords` is the
  same register fed a word at a time, as the hardware does it.
-/
import OtpToken.Bytes.Endian

namespace OtpToken

/-! ## §1. The register. -/

namespace Register

/-- The generator without its top bit. -/
def generator : BitVec 32 := 0x04C11DB7

/-- The register at the start. -/
def initial : BitVec 32 := 0xFFFFFFFF

/-- One shift to the left; a one that falls out takes the generator with
it. -/
def shift (r : BitVec 32) : BitVec 32 :=
  if r.msb then (r <<< 1) ^^^ generator else r <<< 1

/-- `n` shifts. -/
def shifts : Nat → BitVec 32 → BitVec 32
  | 0, r => r
  | n + 1, r => shifts n (shift r)

/-- A byte enters at the top and is shifted through. -/
def feedByte (r : BitVec 32) (b : UInt8) : BitVec 32 :=
  shifts 8 (r ^^^ (b.toBitVec.setWidth 32 <<< 24))

/-- A word enters as a whole and is shifted through. -/
def feedWord (r : BitVec 32) (w : BitVec 32) : BitVec 32 := shifts 32 (r ^^^ w)

/-- The register after words. -/
def ofWords (ws : List (BitVec 32)) : BitVec 32 := ws.foldl feedWord initial

end Register

/-! ## §2. The checksum. -/

/-- Each word of four bytes turned round, the last one filled with zeros. -/
def reverseWords : Bytes → Bytes
  | [] => []
  | [a] => [0, 0, 0, a]
  | [a, b] => [0, 0, b, a]
  | [a, b, c] => [0, c, b, a]
  | a :: b :: c :: d :: rest => d :: c :: b :: a :: reverseWords rest

/-- The checksum of a byte string. -/
def checksum (bs : Bytes) : UInt32 :=
  ⟨(reverseWords bs).foldl Register.feedByte Register.initial⟩

end OtpToken
