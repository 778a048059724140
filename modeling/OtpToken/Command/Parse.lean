/-
  OtpToken.Command.Parse
  ──────────────────────
  **REQUESTS AS COMMANDS.**

  The token reads a request by its command byte.  Text and credentials end at
  the first zero byte of their field; a piece of a secret keeps all its bytes.
  The flag byte of a slot drops its unused bits.
-/
import OtpToken.Command.Layout
import OtpToken.Field.Cursor

namespace OtpToken

namespace Command

open Decoder

/-- The kind that a letter stands for. -/
def readKind : Decoder DataKind := do
  let b ← byte
  if b = DataKind.toByte .name then return .name
  else if b = DataKind.toByte .secret then return .secret
  else fail (.dataKind b)

/-- A piece of slot data: a name ends at its first zero byte. -/
def readData (kind : DataKind) : Decoder Secret :=
  match kind with
  | .name => secret chunkWidth
  | .secret => do return ⟨← take chunkWidth⟩

/-- The arguments of a command. -/
def read (encoding : CounterEncoding) : CommandId → Decoder Command
  | .getStatus => return getStatus
  | .sendOtpData => do
      let adminTemp ← secret credentialWidth
      let kind ← readKind
      let chunk ← byte
      let data ← readData kind
      return sendOtpData adminTemp kind chunk data
  | .writeToSlot => do
      let adminTemp ← secret credentialWidth
      let slot ← byte
      let counter ← counter encoding
      let flags ← byte
      let tokenId ← text tokenIdWidth
      return writeToSlot adminTemp slot counter (.ofByte flags) tokenId
  | .readSlotName => return readSlotName (← byte)
  | .readSlot => return readSlot (← byte)
  | .getCode => do
      let slot ← byte
      let challenge ← word64
      let lastTime ← word64
      let lastInterval ← byte
      let userTemp ← secret credentialWidth
      return getCode slot challenge lastTime lastInterval userTemp
  | .writeConfig => do
      let config ← block 5
      let adminTemp ← secret credentialWidth
      return writeConfig ⟨config⟩ adminTemp
  | .eraseSlot => do
      let slot ← byte
      let adminTemp ← secret credentialWidth
      return eraseSlot slot adminTemp
  | .firstAuthenticate => do
      let pin ← secret credentialWidth
      let temp ← secret credentialWidth
      return firstAuthenticate pin temp
  | .userAuthenticate => do
      let pin ← secret credentialWidth
      let temp ← secret credentialWidth
      return userAuthenticate pin temp
  | .getAdminRetryCount => return getAdminRetryCount
  | .getUserRetryCount => return getUserRetryCount
  | .setTime => do
      let reset ← byte
      let time ← word64
      return setTime (reset != 0) time
  | .unlockUserPassword => do
      let adminPin ← secret credentialWidth
      let newUserPin ← secret credentialWidth
      return unlockUserPassword adminPin newUserPin
  | .lockDevice => return lockDevice
  | .factoryReset => return factoryReset (← secret aesPinWidth)
  | .changeUserPin => do
      let old ← secret credentialWidth
      let new ← secret credentialWidth
      return changeUserPin old new
  | .changeAdminPin => do
      let old ← secret credentialWidth
      let new ← secret credentialWidth
      return changeAdminPin old new
  | .safeStatus => return safeStatus
  | .safeName => return safeName (← byte)
  | .safePassword => return safePassword (← byte)
  | .safeLogin => return safeLogin (← byte)
  | .setSafePrimary => do
      let slot ← byte
      let name ← text safeNameWidth
      let password ← secret safePasswordWidth
      return setSafePrimary slot name password
  | .setSafeLogin => do
      let slot ← byte
      let login ← text safeLoginWidth
      return setSafeLogin slot login
  | .eraseSafe => return eraseSafe (← byte)
  | .enableSafe => return enableSafe (← secret enablePinWidth)
  | .detectAes => return detectAes (← secret aesPinWidth)
  | .newAesKey => return newAesKey (← secret aesPinWidth)

/-- The command in a request, or the status that the token answers. -/
def parse (q : Request) (encoding : CounterEncoding) : Except Status Command :=
  match CommandId.ofByte? q.command with
  | none => .error .unknownCommand
  | some id =>
      match (read encoding id).decode q.payload.bytes with
      | .ok c => .ok c
      | .error _ => .error .unknown

end Command

end OtpToken
