/-
  OtpToken.Command.Basic
  ──────────────────────
  **COMMANDS WITH THEIR ARGUMENTS.**

  What a host can ask of a token.  Slots are named by their wire number, so
  that a command can also name a slot that does not exist.
-/
import OtpToken.Command.Id
import OtpToken.Secret
import OtpToken.Slot.Basic

namespace OtpToken

/-- What a piece of slot data is a piece of. -/
inductive DataKind where
  | name
  | secret
  deriving DecidableEq

/-- The letter that stands for the kind on the wire. -/
def DataKind.toByte : DataKind → UInt8
  | .name => 0x4E
  | .secret => 0x53

/-- One command with its arguments. -/
inductive Command where
  | getStatus
  /-- One piece of the data of a code slot, staged until `writeToSlot`. -/
  | sendOtpData (adminTemp : Secret) (kind : DataKind) (chunk : UInt8) (data : Secret)
  | writeToSlot (adminTemp : Secret) (slot : UInt8) (counter : UInt64) (flags : SlotFlags)
      (tokenId : String)
  | readSlotName (slot : UInt8)
  | readSlot (slot : UInt8)
  | getCode (slot : UInt8) (challenge lastTime : UInt64) (lastInterval : UInt8)
      (userTemp : Secret)
  | writeConfig (config : Config) (adminTemp : Secret)
  | eraseSlot (slot : UInt8) (adminTemp : Secret)
  | firstAuthenticate (pin temp : Secret)
  | userAuthenticate (pin temp : Secret)
  | getAdminRetryCount
  | getUserRetryCount
  /-- Sets the clock; without `reset` never backwards. -/
  | setTime (reset : Bool) (time : UInt64)
  | unlockUserPassword (adminPin newUserPin : Secret)
  | lockDevice
  | factoryReset (adminPin : Secret)
  | changeUserPin (old new : Secret)
  | changeAdminPin (old new : Secret)
  | safeStatus
  | safeName (slot : UInt8)
  | safePassword (slot : UInt8)
  | safeLogin (slot : UInt8)
  | setSafePrimary (slot : UInt8) (name : String) (password : Secret)
  | setSafeLogin (slot : UInt8) (login : String)
  | eraseSafe (slot : UInt8)
  | enableSafe (userPin : Secret)
  | detectAes (userPin : Secret)
  | newAesKey (adminPin : Secret)
  deriving DecidableEq

/-- Which command it is. -/
def Command.id : Command → CommandId
  | getStatus => .getStatus
  | sendOtpData .. => .sendOtpData
  | writeToSlot .. => .writeToSlot
  | readSlotName .. => .readSlotName
  | readSlot .. => .readSlot
  | getCode .. => .getCode
  | writeConfig .. => .writeConfig
  | eraseSlot .. => .eraseSlot
  | firstAuthenticate .. => .firstAuthenticate
  | userAuthenticate .. => .userAuthenticate
  | getAdminRetryCount => .getAdminRetryCount
  | getUserRetryCount => .getUserRetryCount
  | setTime .. => .setTime
  | unlockUserPassword .. => .unlockUserPassword
  | lockDevice => .lockDevice
  | factoryReset .. => .factoryReset
  | changeUserPin .. => .changeUserPin
  | changeAdminPin .. => .changeAdminPin
  | safeStatus => .safeStatus
  | safeName .. => .safeName
  | safePassword .. => .safePassword
  | safeLogin .. => .safeLogin
  | setSafePrimary .. => .setSafePrimary
  | setSafeLogin .. => .setSafeLogin
  | eraseSafe .. => .eraseSafe
  | enableSafe .. => .enableSafe
  | detectAes .. => .detectAes
  | newAesKey .. => .newAesKey

end OtpToken
