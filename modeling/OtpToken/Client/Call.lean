/-
  OtpToken.Client.Call
  ────────────────────
  **CALLS AS VALUES.**

  A run of a host is a list of calls.  Each call stands for one operation
  with its arguments; `Call.operation` gives the operation, with its value in
  one type for all calls.
-/
import OtpToken.Client.Operation

namespace OtpToken

/-- What a call gives. -/
inductive Value where
  | nothing
  | text (s : String)
  | number (n : UInt8)
  | flag (b : Bool)
  | config (c : Config)
  | details (d : SlotDetails)
  | safe (s : SafeStatus)
  | status (d : DeviceStatus)
  deriving DecidableEq

/-- One operation of a host with its arguments. -/
inductive Call where
  | getStatus
  | serialNumber
  | majorVersion
  | minorVersion
  | readConfig
  | writeConfig (config : Config) (adminTemp : Secret)
  | setTime (reset : Bool) (time : UInt64)
  | firstAuthenticate (pin temp : Secret)
  | userAuthenticate (pin temp : Secret)
  | adminRetryCount
  | userRetryCount
  | unlockUserPassword (adminPin newUserPin : Secret)
  | changeAdminPin (old new : Secret)
  | changeUserPin (old new : Secret)
  | lockDevice
  | factoryReset (adminPin : Secret)
  | newAesKey (adminPin : Secret)
  | aesSupported (userPin : Secret)
  | writeHotp (index : UInt8) (data : SlotData) (counter : UInt64) (adminTemp : Secret)
  | writeTotp (index : UInt8) (data : SlotData) (period : UInt16) (adminTemp : Secret)
  | hotpCode (index : UInt8) (userTemp : Secret)
  | totpCode (index : UInt8) (challenge lastTime : UInt64) (lastInterval : UInt8)
      (userTemp : Secret)
  | readSlot (kind : CodeKind) (index : UInt8)
  | slotName (kind : CodeKind) (index : UInt8)
  | eraseSlot (kind : CodeKind) (index : UInt8) (adminTemp : Secret)
  | enableSafe (userPin : Secret)
  | safeStatus
  | safeName (index : UInt8)
  | safeLogin (index : UInt8)
  | safePassword (index : UInt8)
  | writeSafe (index : UInt8) (name login password : String)
  | eraseSafe (index : UInt8)

namespace Call

/-- The operation that a call stands for. -/
def operation : Call → Operation Value
  | getStatus => Operation.getStatus.map .status
  | serialNumber => Operation.serialNumber.map .text
  | majorVersion => Operation.majorVersion.map .number
  | minorVersion => Operation.minorVersion.map .number
  | readConfig => Operation.readConfig.map .config
  | writeConfig config adminTemp => (Operation.writeConfig config adminTemp).map done
  | setTime reset time => (Operation.setTime reset time).map done
  | firstAuthenticate pin temp => (Operation.firstAuthenticate pin temp).map done
  | userAuthenticate pin temp => (Operation.userAuthenticate pin temp).map done
  | adminRetryCount => Operation.adminRetryCount.map .number
  | userRetryCount => Operation.userRetryCount.map .number
  | unlockUserPassword adminPin newUserPin =>
      (Operation.unlockUserPassword adminPin newUserPin).map done
  | changeAdminPin old new => (Operation.changeAdminPin old new).map done
  | changeUserPin old new => (Operation.changeUserPin old new).map done
  | lockDevice => Operation.lockDevice.map done
  | factoryReset adminPin => (Operation.factoryReset adminPin).map done
  | newAesKey adminPin => (Operation.newAesKey adminPin).map done
  | aesSupported userPin => (Operation.aesSupported userPin).map .flag
  | writeHotp index data counter adminTemp =>
      (Operation.writeSlot .hotp index data counter adminTemp).map done
  | writeTotp index data period adminTemp =>
      (Operation.writeSlot .totp index data period.toUInt64 adminTemp).map done
  | hotpCode index userTemp => (Operation.hotpCode index userTemp).map .text
  | totpCode index challenge lastTime lastInterval userTemp =>
      (Operation.totpCode index challenge lastTime lastInterval userTemp).map .text
  | readSlot kind index => (Operation.readSlot kind index).map .details
  | slotName kind index => (Operation.slotName kind index).map .text
  | eraseSlot kind index adminTemp => (Operation.eraseSlot kind index adminTemp).map done
  | enableSafe userPin => (Operation.enableSafe userPin).map done
  | safeStatus => Operation.safeStatus.map .safe
  | safeName index => (Operation.safeName index).map .text
  | safeLogin index => (Operation.safeLogin index).map .text
  | safePassword index => (Operation.safePassword index).map .text
  | writeSafe index name login password =>
      (Operation.writeSafe index name login password).map done
  | eraseSafe index => (Operation.eraseSafe index).map done
where
  done (_ : Unit) : Value := .nothing

/-- What stands for the value of a call that failed: empty texts, zeros, the
factory register and no programmed slot. -/
def blank : Call → Value
  | getStatus => .status ⟨⟨0, 0⟩, "", default⟩
  | serialNumber | hotpCode .. | totpCode .. | slotName .. | safeName .. | safeLogin ..
  | safePassword .. => .text ""
  | majorVersion | minorVersion | adminRetryCount | userRetryCount => .number 0
  | readConfig => .config default
  | aesSupported .. => .flag false
  | readSlot .. => .details default
  | safeStatus => .safe default
  | _ => .nothing

/-- Runs a call. -/
def perform {σ : Type} (call : Call) (line : Line σ) (c : Client) (s : σ) :
    Except Error Value × Client × σ :=
  c.perform line call.operation s

end Call

end OtpToken
