/-
  OtpToken.Command.Layout
  ───────────────────────
  **COMMANDS AS REQUESTS.**

  Each command is a list of fields in a fixed order (`Command.fields`); a
  request is that list laid out behind the command byte.  No list is longer
  than the payload, so a command fails only by an argument that is too long
  for its field, and the error names the first such field.
-/
import OtpToken.Command.Basic
import OtpToken.Field.Draft
import OtpToken.Frame

namespace OtpToken

/-! ## §1. Widths. -/

/-- Width of PINs and temporary passwords in most commands. -/
def credentialWidth : Nat := 25

/-- Data bytes in one piece of slot data. -/
def chunkWidth : Nat := 30

/-- Width of the PIN that enables the Password Safe. -/
def enablePinWidth : Nat := 30

/-- Width of the PIN in commands about the AES key and the factory state. -/
def aesPinWidth : Nat := 20

/-! ## §2. Fields. -/

namespace Command

/-- The admin's temporary password. -/
def adminTempField (temp : Secret) : Field :=
  .secret "admin temporary password" credentialWidth temp

/-- The number of a slot. -/
def slotField (slot : UInt8) : Field := .byte "slot" slot

/-- The fields of a command in order. -/
def fields (encoding : CounterEncoding) : Command → List Field
  | getStatus | getAdminRetryCount | getUserRetryCount | lockDevice | safeStatus => []
  | sendOtpData adminTemp kind chunk data =>
      [adminTempField adminTemp, .byte "data type" kind.toByte, .byte "chunk id" chunk,
        .secret "OTP data" chunkWidth data]
  | writeToSlot adminTemp slot counter flags tokenId =>
      [adminTempField adminTemp, slotField slot, .counter encoding counter,
        .byte "slot config" flags.toByte, .text "token id" tokenIdWidth tokenId]
  | readSlotName slot | readSlot slot | safeName slot | safePassword slot | safeLogin slot
  | eraseSafe slot => [slotField slot]
  | getCode slot challenge lastTime lastInterval userTemp =>
      [slotField slot, .word64 "challenge" challenge, .word64 "last TOTP time" lastTime,
        .byte "last interval" lastInterval,
        .secret "user temporary password" credentialWidth userTemp]
  | writeConfig config adminTemp =>
      [⟨"config", 5, config.block.bytes⟩, adminTempField adminTemp]
  | eraseSlot slot adminTemp => [slotField slot, adminTempField adminTemp]
  | firstAuthenticate pin temp | userAuthenticate pin temp =>
      [.secret "PIN" credentialWidth pin, .secret "temporary password" credentialWidth temp]
  | setTime reset time => [.byte "reset" reset.toUInt8, .word64 "time" time]
  | unlockUserPassword adminPin newUserPin =>
      [.secret "admin PIN" credentialWidth adminPin,
        .secret "new user PIN" credentialWidth newUserPin]
  | changeUserPin old new | changeAdminPin old new =>
      [.secret "old PIN" credentialWidth old, .secret "new PIN" credentialWidth new]
  | factoryReset adminPin | newAesKey adminPin => [.secret "admin PIN" aesPinWidth adminPin]
  | detectAes userPin => [.secret "user PIN" aesPinWidth userPin]
  | enableSafe userPin => [.secret "user PIN" enablePinWidth userPin]
  | setSafePrimary slot name password =>
      [slotField slot, .text "slot name" safeNameWidth name,
        .secret "password" safePasswordWidth password]
  | setSafeLogin slot login => [slotField slot, .text "login" safeLoginWidth login]

/-- The request that asks for a command. -/
def toRequest (c : Command) (encoding : CounterEncoding) : Except LibraryError Request :=
  (layOut 59 (c.fields encoding)).map fun payload => ⟨c.id.toByte, payload⟩

end Command

end OtpToken
