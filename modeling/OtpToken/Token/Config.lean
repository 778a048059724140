/-
  OtpToken.Token.Config
  ─────────────────────
  **HOW A TOKEN LEAVES THE FACTORY.**
-/
import OtpToken.Json.Form
import OtpToken.Session

namespace OtpToken

/-- The factory settings of a token. -/
structure TokenConfig where
  adminPin : String
  userPin : String
  firmware : Firmware
  /-- The card serial, least significant byte first. -/
  serial : Block 4
  /-- Whether a new AES key leaves the Password Safe slots in place, as
  some firmware does. -/
  newKeyKeepsSafe : Bool
  deriving DecidableEq

namespace TokenConfig

/-- The settings of an unconfigured token. -/
def factory : TokenConfig where
  adminPin := "12345678"
  userPin := "123456"
  firmware := ⟨0, 12⟩
  serial := ⟨[0x5A, 0x17, 0, 0], rfl⟩
  newKeyKeepsSafe := false

instance : Inhabited TokenConfig := ⟨factory⟩

end TokenConfig

namespace Json

instance : Form Role := ⟨fun r => text r.name, named? Role.all Role.name⟩

/-- Every setting may be left out. -/
instance : Form TokenConfig where
  toJson c :=
    record [("adminPin", toJson c.adminPin), ("userPin", toJson c.userPin),
      ("firmware", toJson c.firmware), ("serial", toJson c.serial),
      ("aesRebuildKeepsPasswordSafe", toJson c.newKeyKeepsSafe)]
  ofJson? j := do
    let names := ["adminPin", "userPin", "firmware", "serial", "aesRebuildKeepsPasswordSafe"]
    match ← j.fields? names with
    | [adminPin, userPin, firmware, serial, keepsSafe] =>
        return ⟨← optional? TokenConfig.factory.adminPin adminPin,
          ← optional? TokenConfig.factory.userPin userPin,
          ← optional? TokenConfig.factory.firmware firmware,
          ← optional? TokenConfig.factory.serial serial,
          ← optional? TokenConfig.factory.newKeyKeepsSafe keepsSafe⟩
    | _ => none

end Json

end OtpToken
