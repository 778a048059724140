/-
  OtpToken.Error
  ──────────────
  **EVERY WAY TO FAIL.**

  Four causes are kept apart: the token refused (`Error.device`), the call
  was refused on the host (`LibraryError`), the line failed or its answer
  could not be used (`LineError`), or no code could be made (`CodeError`).
  Each has one wording and one status.
-/
import OtpToken.Code.Basic
import OtpToken.Slot.Address
import OtpToken.Status
import OtpToken.Text.Duration

namespace OtpToken

/-! ## §1. Refusals on the host. -/

/-- Why the host refuses a call before anything is sent. -/
inductive LibraryError where
  | tooLong (field : String) (length maximum : Nat)
  | invalidSlot (family : SlotFamily) (index : UInt8)
  | invalidHex
  | secretTooLong (length maximum : Nat)
  /-- The Password Safe has not been enabled. -/
  | safeDisabled
  deriving DecidableEq

namespace LibraryError

/-- The wording of a refusal. -/
def message : LibraryError → String
  | tooLong field length maximum =>
      field ++ " is " ++ Decimal.text length ++ " bytes, maximum is " ++ Decimal.text maximum
  | invalidSlot family index =>
      family.label ++ " slot index " ++ Decimal.text index.toNat ++ " is out of range"
  | invalidHex => "secret is not a valid hex string"
  | secretTooLong length maximum =>
      "secret is " ++ Decimal.text length ++ " bytes, device accepts at most "
        ++ Decimal.text maximum
  | safeDisabled => "password safe is not enabled"

/-- The status of a refusal. -/
def status : LibraryError → Status
  | tooLong .. => .tooLong
  | invalidSlot .. => .invalidSlot
  | invalidHex => .invalidHex
  | secretTooLong .. => .secretTooLong
  | safeDisabled => .notAuthorized

end LibraryError

/-! ## §2. Bytes that cannot be read. -/

/-- Why a report or a payload cannot be read. -/
inductive DecodeError where
  /-- A request does not carry the checksum of its contents. -/
  | checksum (stored computed : UInt32)
  | deviceState (byte : UInt8)
  /-- A field reaches past the end. -/
  | outOfBytes (width offset length : Nat)
  | dataKind (byte : UInt8)
  | asciiCounter
  /-- Anything else, in words. -/
  | other (what : String)
  deriving DecidableEq

namespace DecodeError

/-- What could not be read. -/
def what : DecodeError → String
  | checksum stored computed =>
      "request with CRC " ++ Hex.marked 8 stored.toNat ++ ", computed "
        ++ Hex.marked 8 computed.toNat
  | deviceState byte => "device state " ++ Decimal.text byte.toNat
  | outOfBytes width offset length =>
      Decimal.text width ++ " bytes at offset " ++ Decimal.text offset ++ " of "
        ++ Decimal.text length
  | dataKind byte => "OTP data type " ++ Hex.marked 2 byte.toNat
  | asciiCounter => "ASCII counter"
  | other what => what

/-- The wording of the error. -/
def message (e : DecodeError) : String := "cannot decode " ++ e.what

end DecodeError

/-! ## §3. Failures of the line. -/

/-- Why an exchange of reports gave no answer that can be used. -/
inductive LineError where
  | disconnected
  | timeout (limit : Duration)
  | malformed (what : String)
  /-- The answer does not carry the checksum of its contents. -/
  | crcMismatch (expected actual : UInt32)
  /-- The answer is for another request of the same kind. -/
  | staleResponse (expected actual : UInt32)
  /-- The answer is for another command. -/
  | commandMismatch (expected actual : UInt8)
  | io (what : String)
  deriving DecidableEq

namespace LineError

/-- The wording of a failure. -/
def message : LineError → String
  | disconnected => "device disconnected"
  | timeout limit => "no response within " ++ limit.text
  | malformed what => "malformed response: " ++ what
  | crcMismatch expected actual =>
      "response CRC mismatch: expected " ++ Hex.marked 8 expected.toNat ++ ", got "
        ++ Hex.marked 8 actual.toNat
  | staleResponse expected actual =>
      "response echoes request CRC " ++ Hex.marked 8 actual.toNat ++ ", sent "
        ++ Hex.marked 8 expected.toNat
  | commandMismatch expected actual =>
      "response is for command " ++ Hex.marked 2 actual.toNat ++ ", sent "
        ++ Hex.marked 2 expected.toNat
  | io what => "I/O error: " ++ what

/-- The channel itself failed, or it brought something that is no answer. -/
def status : LineError → Status
  | disconnected | timeout _ | io _ => .disconnected
  | malformed _ | crcMismatch .. | staleResponse .. | commandMismatch .. => .unknown

/-- A reply that cannot be read. -/
def ofDecode (e : DecodeError) : LineError := malformed e.what

end LineError

/-! ## §4. Failures of a call. -/

/-- Why a call failed. -/
inductive Error where
  | device (status : Status)
  | library (why : LibraryError)
  | line (why : LineError)
  | code (why : CodeError)
  deriving DecidableEq

namespace Error

/-- The wording of an error, which names its cause. -/
def message : Error → String
  | device status => "device reported " ++ status.message
  | library why => why.message
  | line why => "transport failure: " ++ why.message
  | code why => "OTP engine error: " ++ why.message

/-- The status of an error. -/
def status : Error → Status
  | device status => status
  | library why => why.status
  | line why => why.status
  | code _ => .unknown

/-- A secret that cannot be used is refused on the host. -/
def ofCode : CodeError → Error
  | .notHex _ => library .invalidHex
  | .secretTooLong length maximum => library (.secretTooLong length maximum)
  | why => code why

/-- A payload that cannot be read counts as a failure of the line. -/
def ofDecode (e : DecodeError) : Error := line (.ofDecode e)

end Error

/-! ## §5. Indices checked on the host. -/

/-- The wire number of a code slot, or the refusal of its index. -/
def CodeKind.slotNumber (kind : CodeKind) (index : UInt8) : Except LibraryError UInt8 :=
  match kind.slotNumber? index with
  | some number => .ok number
  | none => .error (.invalidSlot (.code kind) index)

/-- The index of a Password Safe slot, or its refusal. -/
def safeSlotNumber (index : UInt8) : Except LibraryError UInt8 :=
  if SlotFamily.safe.holds index then .ok index else .error (.invalidSlot .safe index)

end OtpToken
