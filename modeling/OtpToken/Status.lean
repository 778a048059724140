/-
  OtpToken.Status
  ───────────────
  **HOW A COMMAND ENDED.**

  Every call ends in exactly one status.  Numbers 0 to 14 come from the
  token, 200 to 203 are raised on the host before anything is sent, 255 says
  that the channel failed.  `busy` has no number of its own: it is shown as 1,
  while a byte 1 from the token always reads as `wrongCrc`.
-/
import OtpToken.Text.Decimal

namespace OtpToken

/-- How a command ended. -/
inductive Status where
  | ok
  | wrongCrc
  | wrongSlot
  | notProgrammed
  | wrongPassword
  | notAuthorized
  | timestampWarning
  | noName
  | notSupported
  | unknownCommand
  | aesDecryptionFailed
  | aesCreateKeyFailed
  | userPinNotChanged
  | adminPinNotChanged
  | userPinNotUnblocked
  | busy
  | unknown
  | disconnected
  | tooLong
  | invalidSlot
  | invalidHex
  | secretTooLong
  deriving DecidableEq

namespace Status

/-! ## §1. Numbers. -/

/-- The number of a status. -/
def toByte : Status → UInt8
  | ok => 0
  | wrongCrc | busy => 1
  | wrongSlot => 2
  | notProgrammed => 3
  | wrongPassword => 4
  | notAuthorized => 5
  | timestampWarning => 6
  | noName => 7
  | notSupported => 8
  | unknownCommand => 9
  | aesDecryptionFailed => 10
  | aesCreateKeyFailed => 11
  | userPinNotChanged => 12
  | adminPinNotChanged => 13
  | userPinNotUnblocked => 14
  | unknown => 100
  | tooLong => 200
  | invalidSlot => 201
  | invalidHex => 202
  | secretTooLong => 203
  | disconnected => 255

/-- The status that a number stands for; `unknown` for the numbers that
stand for none. -/
def ofByte (b : UInt8) : Status :=
  match b.toNat with
  | 0 => ok
  | 1 => wrongCrc
  | 2 => wrongSlot
  | 3 => notProgrammed
  | 4 => wrongPassword
  | 5 => notAuthorized
  | 6 => timestampWarning
  | 7 => noName
  | 8 => notSupported
  | 9 => unknownCommand
  | 10 => aesDecryptionFailed
  | 11 => aesCreateKeyFailed
  | 12 => userPinNotChanged
  | 13 => adminPinNotChanged
  | 14 => userPinNotUnblocked
  | 200 => tooLong
  | 201 => invalidSlot
  | 202 => invalidHex
  | 203 => secretTooLong
  | 255 => disconnected
  | _ => unknown

/-- Reading a written number gives the status back, `busy` apart. -/
theorem ofByte_toByte (s : Status) (h : s ≠ busy) : ofByte s.toByte = s := by
  cases s <;> first | rfl | exact absurd rfl h

/-! ## §2. Kinds. -/

/-- Whether the command was done. -/
def isOk (s : Status) : Bool := s = ok

/-- Whether the status is raised on the host, before anything is sent. -/
def isLibraryError : Status → Bool
  | tooLong | invalidSlot | invalidHex | secretTooLong => true
  | _ => false

/-! ## §3. Wording. -/

/-- The name of a status. -/
def name : Status → String
  | ok => "Ok"
  | wrongCrc => "WrongCrc"
  | wrongSlot => "WrongSlot"
  | notProgrammed => "NotProgrammed"
  | wrongPassword => "WrongPassword"
  | notAuthorized => "NotAuthorized"
  | timestampWarning => "TimestampWarning"
  | noName => "NoNameError"
  | notSupported => "NotSupported"
  | unknownCommand => "UnknownCommand"
  | aesDecryptionFailed => "AesDecryptionFailed"
  | aesCreateKeyFailed => "AesCreateKeyFailed"
  | userPinNotChanged => "ErrorChangingUserPassword"
  | adminPinNotChanged => "ErrorChangingAdminPassword"
  | userPinNotUnblocked => "ErrorUnblockingPin"
  | busy => "Busy"
  | unknown => "UnknownError"
  | disconnected => "Disconnected"
  | tooLong => "TooLongString"
  | invalidSlot => "InvalidSlot"
  | invalidHex => "InvalidHexString"
  | secretTooLong => "TargetBufferSmallerThanSource"

/-- Every status. -/
def all : List Status :=
  [ok, wrongCrc, wrongSlot, notProgrammed, wrongPassword, notAuthorized, timestampWarning,
    noName, notSupported, unknownCommand, aesDecryptionFailed, aesCreateKeyFailed,
    userPinNotChanged, adminPinNotChanged, userPinNotUnblocked, busy, unknown, disconnected,
    tooLong, invalidSlot, invalidHex, secretTooLong]

/-- The status of a name. -/
def ofName? (name : String) : Option Status := all.find? fun s => s.name = name

/-- What a status means. -/
def description : Status → String
  | ok => "ok"
  | wrongCrc => "wrong CRC"
  | wrongSlot => "wrong slot"
  | notProgrammed => "slot not programmed"
  | wrongPassword => "wrong password"
  | notAuthorized => "not authorized"
  | timestampWarning => "timestamp warning"
  | noName => "no name"
  | notSupported => "not supported"
  | unknownCommand => "unknown command"
  | aesDecryptionFailed => "AES decryption failed"
  | aesCreateKeyFailed => "AES key creation failed"
  | userPinNotChanged => "error changing user password"
  | adminPinNotChanged => "error changing admin password"
  | userPinNotUnblocked => "error unblocking PIN"
  | busy => "device busy"
  | unknown => "unknown error"
  | disconnected => "device disconnected"
  | tooLong => "string too long"
  | invalidSlot => "invalid slot"
  | invalidHex => "invalid hex string"
  | secretTooLong => "target buffer smaller than source"

/-- A status as error texts show it: its meaning and its number. -/
def message (s : Status) : String :=
  s.description ++ " (" ++ Decimal.text s.toByte.toNat ++ ")"

end Status

end OtpToken
