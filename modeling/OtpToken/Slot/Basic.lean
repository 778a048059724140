/-
  OtpToken.Slot.Basic
  ───────────────────
  **WHAT IS IN A SLOT.**

  A code slot has flags, a name, a token id and a moving number: the next
  counter of an HOTP slot, the period in seconds of a TOTP slot.  What can
  be read back of it (`SlotDetails`) never holds the secret.

  The config register and the Password Safe status are kept byte for byte
  and flag for flag.
-/
import OtpToken.Bytes.Block
import OtpToken.Code.Basic
import OtpToken.Slot.Address

namespace OtpToken

/-! ## §1. Flags. -/

/-- The flags of a code slot, in the three low bits of one byte. -/
structure SlotFlags where
  /-- The code has eight digits rather than six. -/
  eightDigits : Bool := false
  /-- Typing the code ends with Enter. -/
  enter : Bool := false
  /-- Typing the code starts with the token id. -/
  tokenId : Bool := false
  deriving DecidableEq, Inhabited

namespace SlotFlags

/-- One bit a flag, the first in the lowest. -/
def toByte (f : SlotFlags) : UInt8 :=
  (if f.eightDigits then 1 else 0) + (if f.enter then 2 else 0) + (if f.tokenId then 4 else 0)

/-- The flags in a byte; its five high bits are dropped. -/
def ofByte (b : UInt8) : SlotFlags :=
  ⟨b.toNat.testBit 0, b.toNat.testBit 1, b.toNat.testBit 2⟩

theorem ofByte_toByte (f : SlotFlags) : ofByte f.toByte = f := by
  obtain ⟨_ | _, _ | _, _ | _⟩ := f <;> rfl

/-- How many digits the codes of the slot have. -/
def digits (f : SlotFlags) : Digits := if f.eightDigits then .eight else .six

end SlotFlags

/-! ## §2. Details. -/

/-- What can be read back of a code slot. -/
structure SlotDetails where
  name : String
  flags : SlotFlags
  tokenId : String
  /-- The next counter, or the period in seconds. -/
  counter : UInt64
  deriving DecidableEq

instance : Inhabited SlotDetails := ⟨⟨"", default, "", 0⟩⟩

/-- Longest name of a code slot in bytes. -/
def nameWidth : Nat := 15

/-- Width of the token id field. -/
def tokenIdWidth : Nat := 13

/-- Longest token id that a caller may give; the last byte of the field
stays zero. -/
def tokenIdMaximum : Nat := 12

/-! ## §3. The config register. -/

/-- The five bytes of the general config register: the HOTP slots bound to
numlock, capslock and scrolllock, whether codes need the user's temporary
password, and a companion flag kept as it is. -/
structure Config where
  block : Block 5
  deriving DecidableEq

namespace Config

/-- A register with its five bytes. -/
def of (b₀ b₁ b₂ b₃ b₄ : UInt8) : Config := ⟨⟨[b₀, b₁, b₂, b₃, b₄], rfl⟩⟩

/-- A register from key bindings and the two flags. -/
def make (numlock capslock scrolllock : UInt8) (enableUserPassword deleteUserPassword : Bool) :
    Config :=
  of numlock capslock scrolllock enableUserPassword.toUInt8 deleteUserPassword.toUInt8

/-- No key bound, codes unprotected. -/
def factory : Config := of 0xFF 0xFF 0xFF 0 1

instance : Inhabited Config := ⟨factory⟩

/-- The HOTP slot bound to numlock. -/
def numlock (c : Config) : UInt8 := c.block.byte 0

/-- The HOTP slot bound to capslock. -/
def capslock (c : Config) : UInt8 := c.block.byte 1

/-- The HOTP slot bound to scrolllock. -/
def scrolllock (c : Config) : UInt8 := c.block.byte 2

/-- Whether codes need the user's temporary password. -/
def protectsCodes (c : Config) : Bool := c.block.byte 3 != 0

/-- The companion flag. -/
def deletesUserPassword (c : Config) : Bool := c.block.byte 4 != 0

end Config

/-! ## §4. Password Safe. -/

/-- Longest name of a Password Safe slot in bytes. -/
def safeNameWidth : Nat := 11

/-- Longest login in bytes. -/
def safeLoginWidth : Nat := 32

/-- Longest password in bytes. -/
def safePasswordWidth : Nat := 20

/-- Which Password Safe slots are programmed. -/
structure SafeStatus where
  flags : Vector Bool safeCapacity
  deriving DecidableEq

namespace SafeStatus

/-- No slot programmed. -/
def none : SafeStatus := ⟨Vector.replicate _ false⟩

instance : Inhabited SafeStatus := ⟨none⟩

/-- One byte a slot; any byte but zero is a programmed slot. -/
def ofBlock (b : Block safeCapacity) : SafeStatus := ⟨Vector.ofFn fun i => b.byte i != 0⟩

/-- One byte a slot: one if it is programmed, else zero. -/
def toBytes (s : SafeStatus) : Bytes := s.flags.toList.map Bool.toUInt8

@[simp] theorem length_toBytes (s : SafeStatus) : s.toBytes.length = safeCapacity := by
  simp [toBytes]

/-- Bit `i` is set when slot `i` is programmed. -/
def bitmap (s : SafeStatus) : Nat :=
  s.flags.toList.foldr (fun flag bits => flag.toNat + 2 * bits) 0

/-- Whether the slot at an index is programmed; none is past the end. -/
def isProgrammed (s : SafeStatus) (index : UInt8) : Bool := s.flags.getD index.toNat false

/-- The status with one flag changed; nothing changes past the end. -/
def mark (s : SafeStatus) (index : UInt8) (programmed : Bool) : SafeStatus :=
  ⟨s.flags.setIfInBounds index.toNat programmed⟩

end SafeStatus

end OtpToken
