/-
  OtpToken.Command.Id
  ───────────────────
  **COMMAND BYTES.**

  The first byte of a request says which of 28 commands it is.  All other
  bytes are no command; `ofByte?_eq_some_iff` says that each command has one
  byte of its own.
-/
import OtpToken.Bytes.Basic

namespace OtpToken

/-- The commands of a token. -/
inductive CommandId where
  | getStatus
  | writeToSlot
  | readSlotName
  | readSlot
  | getCode
  | writeConfig
  | eraseSlot
  | firstAuthenticate
  | getAdminRetryCount
  | setTime
  | userAuthenticate
  | getUserRetryCount
  | unlockUserPassword
  | lockDevice
  | factoryReset
  | changeUserPin
  | changeAdminPin
  | sendOtpData
  | safeStatus
  | safeName
  | safePassword
  | safeLogin
  | setSafePrimary
  | setSafeLogin
  | eraseSafe
  | enableSafe
  | detectAes
  | newAesKey
  deriving DecidableEq

namespace CommandId

/-! ## §1. Bytes. -/

/-- The byte of a command. -/
def toByte : CommandId → UInt8
  | getStatus => 0x00
  | writeToSlot => 0x01
  | readSlotName => 0x02
  | readSlot => 0x03
  | getCode => 0x04
  | writeConfig => 0x05
  | eraseSlot => 0x06
  | firstAuthenticate => 0x07
  | getAdminRetryCount => 0x09
  | setTime => 0x0B
  | userAuthenticate => 0x0E
  | getUserRetryCount => 0x0F
  | unlockUserPassword => 0x11
  | lockDevice => 0x12
  | factoryReset => 0x13
  | changeUserPin => 0x14
  | changeAdminPin => 0x15
  | sendOtpData => 0x17
  | safeStatus => 0x60
  | safeName => 0x61
  | safePassword => 0x62
  | safeLogin => 0x63
  | setSafePrimary => 0x64
  | setSafeLogin => 0x65
  | eraseSafe => 0x66
  | enableSafe => 0x67
  | detectAes => 0x6A
  | newAesKey => 0x6B

/-- Every command, in the order of the bytes. -/
def all : List CommandId :=
  [getStatus, writeToSlot, readSlotName, readSlot, getCode, writeConfig, eraseSlot,
    firstAuthenticate, getAdminRetryCount, setTime, userAuthenticate, getUserRetryCount,
    unlockUserPassword, lockDevice, factoryReset, changeUserPin, changeAdminPin, sendOtpData,
    safeStatus, safeName, safePassword, safeLogin, setSafePrimary, setSafeLogin, eraseSafe,
    enableSafe, detectAes, newAesKey]

/-- The command of a byte. -/
def ofByte? (b : UInt8) : Option CommandId := all.find? fun id => id.toByte = b

theorem mem_all (id : CommandId) : id ∈ all := by cases id <;> decide

theorem toByte_inj {a b : CommandId} (h : a.toByte = b.toByte) : a = b := by
  have key : ∀ a ∈ all, ∀ b ∈ all, a.toByte = b.toByte → a = b := by decide
  exact key a (mem_all a) b (mem_all b) h

theorem ofByte?_eq_some_iff {b : UInt8} {id : CommandId} :
    ofByte? b = some id ↔ id.toByte = b := by
  constructor
  · intro h
    simpa using List.find?_some h
  · rintro rfl
    cases id <;> rfl

/-! ## §2. Names. -/

/-- The name of a command. -/
def name : CommandId → String
  | getStatus => "GetStatus"
  | writeToSlot => "WriteToSlot"
  | readSlotName => "ReadSlotName"
  | readSlot => "ReadSlot"
  | getCode => "GetCode"
  | writeConfig => "WriteConfig"
  | eraseSlot => "EraseSlot"
  | firstAuthenticate => "FirstAuthenticate"
  | getAdminRetryCount => "GetPasswordRetryCount"
  | setTime => "SetTime"
  | userAuthenticate => "UserAuthenticate"
  | getUserRetryCount => "GetUserPasswordRetryCount"
  | unlockUserPassword => "UnlockUserPassword"
  | lockDevice => "LockDevice"
  | factoryReset => "FactoryReset"
  | changeUserPin => "ChangeUserPin"
  | changeAdminPin => "ChangeAdminPin"
  | sendOtpData => "SendOtpData"
  | safeStatus => "GetPwSafeSlotStatus"
  | safeName => "GetPwSafeSlotName"
  | safePassword => "GetPwSafeSlotPassword"
  | safeLogin => "GetPwSafeSlotLogin"
  | setSafePrimary => "SetPwSafeSlotData1"
  | setSafeLogin => "SetPwSafeSlotData2"
  | eraseSafe => "PwSafeEraseSlot"
  | enableSafe => "PwSafeEnable"
  | detectAes => "DetectScAes"
  | newAesKey => "NewAesKey"

end CommandId

end OtpToken
