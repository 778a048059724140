/-
  OtpToken.Record
  ───────────────
  **WHAT RESPONSES CARRY.**

  The payload of a response is a record at its start and zeros after it.
  Each record has an encoder, which fails only by a text or a counter that
  is too long, and a decoder, which looks at its leading bytes only.
-/
import OtpToken.Field.Cursor
import OtpToken.Field.Draft
import OtpToken.Frame
import OtpToken.Slot.Basic

namespace OtpToken

/-- A payload with these fields. -/
def payloadOf (fields : List Field) : Except LibraryError Payload := layOut 53 fields

/-! ## §1. Status of the token. -/

/-- What a token says about itself. -/
structure StatusRecord where
  firmware : Firmware
  serial : Block 4
  config : Config
  passwordConfig : Block 2
  deriving DecidableEq

namespace StatusRecord

/-- Minor version before major. -/
def encode (r : StatusRecord) : Except LibraryError Payload :=
  payloadOf [.byte "firmware minor" r.firmware.minor, .byte "firmware major" r.firmware.major,
    ⟨"serial", 4, r.serial.bytes⟩, ⟨"config", 5, r.config.block.bytes⟩,
    ⟨"OTP password config", 2, r.passwordConfig.bytes⟩]

/-- Minor version before major. -/
def decoder : Decoder StatusRecord := do
  let minor ← Decoder.byte
  let major ← Decoder.byte
  let serial ← Decoder.block 4
  let config ← Decoder.block 5
  let passwordConfig ← Decoder.block 2
  return ⟨⟨major, minor⟩, serial, ⟨config⟩, passwordConfig⟩

/-- The serial number as eight hex digits, most significant first. -/
def serialNumber (r : StatusRecord) : String :=
  Hex.padded 8 (LittleEndian.decode r.serial.bytes)

end StatusRecord

/-! ## §2. Code slots. -/

namespace SlotDetails

/-- Name, flags, token id and counter. -/
def encode (d : SlotDetails) (encoding : CounterEncoding) : Except LibraryError Payload :=
  payloadOf [.text "slot name" nameWidth d.name, .byte "slot config" d.flags.toByte,
    .text "token id" tokenIdWidth d.tokenId, .counter encoding d.counter]

/-- Name, flags, token id and counter. -/
def decoder (encoding : CounterEncoding) : Decoder SlotDetails := do
  let name ← Decoder.text nameWidth
  let flags ← Decoder.byte
  let tokenId ← Decoder.text tokenIdWidth
  let counter ← Decoder.counter encoding
  return ⟨name, .ofByte flags, tokenId, counter⟩

end SlotDetails

/-! ## §3. Codes. -/

/-- A code as a number, with the flags that say how many digits it has. -/
structure CodeRecord where
  code : UInt32
  flags : SlotFlags
  deriving DecidableEq

namespace CodeRecord

/-- The code and the flag byte. -/
def encode (r : CodeRecord) : Except LibraryError Payload :=
  payloadOf [.word32 "code" r.code, .byte "slot config" r.flags.toByte]

/-- The code and the flag byte. -/
def decoder : Decoder CodeRecord := do
  let code ← Decoder.word32
  let flags ← Decoder.byte
  return ⟨code, .ofByte flags⟩

end CodeRecord

/-! ## §4. Single values. -/

namespace Payload

/-- One text or credential field. -/
def ofBytes (label : String) (width : Nat) (bs : Bytes) : Except LibraryError Payload :=
  payloadOf [⟨label, width, bs⟩]

/-- One byte. -/
def ofByte (value : UInt8) : Payload := .padded [value] (by simp)

/-- One byte for each Password Safe slot. -/
def ofSafeStatus (s : SafeStatus) : Payload := .padded s.toBytes (by simp [safeCapacity])

/-- No value. -/
def empty : Payload := .zero 53

end Payload

/-- One byte for each Password Safe slot. -/
def SafeStatus.decoder : Decoder SafeStatus := do
  return .ofBlock (← Decoder.block safeCapacity)

end OtpToken
