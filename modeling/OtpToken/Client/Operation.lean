/-
  OtpToken.Client.Operation
  ─────────────────────────
  **WHAT A HOST CAN DO.**

  Every operation in terms of `prepare` and `conclude`.  Arguments are
  checked in the order in which the errors are told: the Password Safe enabled,
  the index, the lengths of texts, the secret, and last the fields of the
  requests.  A slot is written by a piece for the name, a piece for each
  thirty bytes of the secret, and the write itself; all of them are written
  out before the first is sent.
-/
import OtpToken.Client.Basic

namespace OtpToken

/-! ## §1. What the token says about itself. -/

/-- The answer to a status request. -/
structure DeviceStatus where
  firmware : Firmware
  /-- Eight lower-case hex digits. -/
  serialNumber : String
  config : Config
  deriving DecidableEq

/-- The JSON form of a status, which is only ever written. -/
def DeviceStatus.toJson (d : DeviceStatus) : Json :=
  .record [("firmware", Json.toJson d.firmware), ("serialNumber", Json.toJson d.serialNumber),
    ("config", Json.toJson d.config)]

/-- What a caller gives to program a code slot. -/
structure SlotData where
  name : String
  /-- Hex; empty to keep the secret of the slot. -/
  secret : String
  flags : SlotFlags
  tokenId : String

namespace Operation

variable {α : Type}

/-! ## §2. Shapes of operations. -/

/-- One command, checked for and made by `command`. -/
def single (command : Client → Except Error Command)
    (conclude : Client → Payload → Except DecodeError α × Client) : Operation α where
  prepare c :=
    let script := do
      let request ← c.request (← command c)
      return ⟨[], request⟩
    (script, c)
  conclude

/-- A command whose answer has no value; `learn` says what the host knows
afterwards. -/
def act (command : Client → Except Error Command) (learn : Client → Client) : Operation Unit :=
  single command fun c _ => (.ok (), learn c)

/-- A command whose answer is read; `learn` says what the host makes of what it
has read. -/
def consult {β : Type} (command : Client → Except Error Command) (decoder : Client → Decoder β)
    (learn : Client → β → α × Client) : Operation α :=
  single command fun c p =>
    match (decoder c).decode p.bytes with
    | .error e => (.error e, c)
    | .ok b =>
        let (a, c) := learn c b
        (.ok a, c)

/-- A command whose answer is read and changes nothing on the host. -/
def ask (command : Client → Except Error Command) (decoder : Decoder α) : Operation α :=
  consult command (fun _ => decoder) fun c a => (a, c)

/-- The wire number of a code slot. -/
def codeSlot (kind : CodeKind) (index : UInt8) : Except Error UInt8 :=
  (kind.slotNumber index).mapError .library

/-- The number of a Password Safe slot, while the Password Safe is enabled. -/
def safeSlot (index : UInt8) (c : Client) : Except Error UInt8 :=
  if c.safeEnabled then (safeSlotNumber index).mapError .library
  else .error (.library .safeDisabled)

/-! ## §3. Status and config. -/

/-- Firmware, serial number and config register; the host remembers the
register. -/
def getStatus : Operation DeviceStatus :=
  consult (fun _ => .ok .getStatus) (fun _ => StatusRecord.decoder) fun c r =>
    (⟨r.firmware, r.serialNumber, r.config⟩, { c with known := c.known.withConfig r.config })

/-- The serial number alone. -/
def serialNumber : Operation String := getStatus.map DeviceStatus.serialNumber

/-- The first number of the firmware version. -/
def majorVersion : Operation UInt8 := getStatus.map fun d => d.firmware.major

/-- The second number of the firmware version. -/
def minorVersion : Operation UInt8 := getStatus.map fun d => d.firmware.minor

/-- The config register as the token keeps it. -/
def readConfig : Operation Config := getStatus.map DeviceStatus.config

/-- Replaces the config register. -/
def writeConfig (config : Config) (adminTemp : Secret) : Operation Unit :=
  act (fun _ => .ok (.writeConfig config adminTemp))
    fun c => { c with known := c.known.withConfig config }

/-- Sets the clock; without `reset` never backwards. -/
def setTime (reset : Bool) (time : UInt64) : Operation Unit :=
  act (fun _ => .ok (.setTime reset time)) id

/-! ## §4. Logins and PINs. -/

/-- Logs the admin in with a temporary password. -/
def firstAuthenticate (pin temp : Secret) : Operation Unit :=
  act (fun _ => .ok (.firstAuthenticate pin temp)) id

/-- Logs the user in with a temporary password. -/
def userAuthenticate (pin temp : Secret) : Operation Unit :=
  act (fun _ => .ok (.userAuthenticate pin temp)) id

/-- The attempts that the admin has left. -/
def adminRetryCount : Operation UInt8 := ask (fun _ => .ok .getAdminRetryCount) .byte

/-- The attempts that the user has left. -/
def userRetryCount : Operation UInt8 := ask (fun _ => .ok .getUserRetryCount) .byte

/-- Gives the user a new PIN and all attempts. -/
def unlockUserPassword (adminPin newUserPin : Secret) : Operation Unit :=
  act (fun _ => .ok (.unlockUserPassword adminPin newUserPin)) id

/-- Replaces the admin's PIN. -/
def changeAdminPin (old new : Secret) : Operation Unit :=
  act (fun _ => .ok (.changeAdminPin old new)) id

/-- Replaces the user's PIN. -/
def changeUserPin (old new : Secret) : Operation Unit :=
  act (fun _ => .ok (.changeUserPin old new)) id

/-- Closes the Password Safe and logs the user out. -/
def lockDevice : Operation Unit :=
  act (fun _ => .ok .lockDevice) fun c => { c with safeEnabled := false }

/-- Afterwards the host knows nothing of the token any more. -/
def factoryReset (adminPin : Secret) : Operation Unit :=
  act (fun _ => .ok (.factoryReset adminPin))
    fun c => { c with safeEnabled := false, known := .empty }

/-- Afterwards the host does not know which Password Safe slots are left. -/
def newAesKey (adminPin : Secret) : Operation Unit :=
  act (fun _ => .ok (.newAesKey adminPin))
    fun c => { c with safeEnabled := false, known := c.known.withoutSafe }

/-- Whether the token says that it keeps an AES key. -/
def aesSupported (userPin : Secret) : Operation Bool :=
  (ask (fun _ => .ok (.detectAes userPin)) .byte).map fun b => b = 1

/-! ## §5. Code slots. -/

/-- `bytes` in pieces of `width`, each with its number. -/
def pieces (width : Nat) (bytes : Bytes) : List (UInt8 × Bytes) :=
  (List.range ((bytes.length + width - 1) / width)).map fun i =>
    (UInt8.ofNat i, (bytes.drop (width * i)).take width)

/-- A text that may have at most `maximum` bytes. -/
def checkText (label : String) (maximum : Nat) (text : String) : Except Error Unit :=
  let length := (Utf8.encode text).length
  if maximum < length then .error (.library (.tooLong label length maximum)) else .ok ()

/-- The commands that stage the data of a slot. -/
def stagingCommands (adminTemp : Secret) (name : String) (secret : Secret) : List Command :=
  .sendOtpData adminTemp .name 0 (.ofText name)
    :: (pieces chunkWidth secret.bytes).map fun (chunk, bytes) =>
      .sendOtpData adminTemp .secret chunk ⟨bytes⟩

/-- Programs a code slot with a counter or a period. -/
def writeSlot (kind : CodeKind) (index : UInt8) (data : SlotData) (counter : UInt64)
    (adminTemp : Secret) : Operation Unit where
  prepare c :=
    let script := do
      let slot ← codeSlot kind index
      checkText "slot name" nameWidth data.name
      checkText "token id" tokenIdMaximum data.tokenId
      let secret ← (Secret.ofHex data.secret c.capabilities.secretLength).mapError .ofCode
      let opening ← (stagingCommands adminTemp data.name secret).mapM c.request
      let final ← c.request (.writeToSlot adminTemp slot counter data.flags data.tokenId)
      return ⟨opening, final⟩
    (script, c)
  conclude c _ :=
    (.ok (), { c with
      known := c.known.withSlot kind index ⟨data.name, data.flags, data.tokenId, counter⟩ })

/-- The code of a slot, as shown. -/
def code (kind : CodeKind) (index : UInt8) (challenge lastTime : UInt64) (lastInterval : UInt8)
    (userTemp : Secret) : Operation String :=
  consult
    (fun _ => do
      return .getCode (← codeSlot kind index) challenge lastTime lastInterval userTemp)
    (fun _ => CodeRecord.decoder)
    fun c r =>
      (formatCode r.code r.flags.digits,
        match kind with
        | .hotp => { c with known := c.known.withHotpUse index }
        | .totp => c)

/-- The next code of an HOTP slot. -/
def hotpCode (index : UInt8) (userTemp : Secret) : Operation String :=
  code .hotp index 0 0 0 userTemp

/-- The code of a TOTP slot at the clock of the token, which looks at none of
the three numbers. -/
def totpCode (index : UInt8) (challenge lastTime : UInt64) (lastInterval : UInt8)
    (userTemp : Secret) : Operation String :=
  code .totp index challenge lastTime lastInterval userTemp

/-- What can be read back of a slot; the host remembers it. -/
def readSlot (kind : CodeKind) (index : UInt8) : Operation SlotDetails :=
  consult (fun _ => do return .readSlot (← codeSlot kind index))
    (fun c => SlotDetails.decoder c.capabilities.encoding)
    fun c details => (details, { c with known := c.known.withSlot kind index details })

/-- The name of a slot. -/
def slotName (kind : CodeKind) (index : UInt8) : Operation String :=
  ask (fun _ => do return .readSlotName (← codeSlot kind index)) (.text nameWidth)

/-- Empties a slot, at the price of the admin's temporary password. -/
def eraseSlot (kind : CodeKind) (index : UInt8) (adminTemp : Secret) : Operation Unit :=
  act (fun _ => do return .eraseSlot (← codeSlot kind index) adminTemp)
    fun c => { c with known := c.known.withoutSlot kind index }

/-! ## §6. Password Safe. -/

/-- Opens the Password Safe. -/
def enableSafe (userPin : Secret) : Operation Unit :=
  act (fun _ => .ok (.enableSafe userPin)) fun c => { c with safeEnabled := true }

/-- Which slots are programmed; the host remembers it. -/
def safeStatus : Operation SafeStatus :=
  consult
    (fun c => if c.safeEnabled then .ok .safeStatus else .error (.library .safeDisabled))
    (fun _ => SafeStatus.decoder)
    fun c status => (status, { c with known := c.known.withSafe status })

/-- One field of a Password Safe slot. -/
def safeField (index : UInt8) (command : UInt8 → Command) (width : Nat) : Operation String :=
  ask (fun c => do return command (← safeSlot index c)) (.text width)

/-- The name in a slot, empty for an empty slot. -/
def safeName (index : UInt8) : Operation String := safeField index .safeName safeNameWidth

/-- The login in a slot, empty for an empty slot. -/
def safeLogin (index : UInt8) : Operation String := safeField index .safeLogin safeLoginWidth

/-- The password in a slot, empty for an empty slot. -/
def safePassword (index : UInt8) : Operation String :=
  safeField index .safePassword safePasswordWidth

/-- Name and password go first, then the login. -/
def writeSafe (index : UInt8) (name login password : String) : Operation Unit where
  prepare c :=
    let script := do
      let slot ← safeSlot index c
      let primary ← c.request (.setSafePrimary slot name (.ofText password))
      let final ← c.request (.setSafeLogin slot login)
      return ⟨[primary], final⟩
    (script, c)
  conclude c _ := (.ok (), { c with known := c.known.withSafeSlot index true })

/-- Empties a slot. -/
def eraseSafe (index : UInt8) : Operation Unit :=
  act (fun c => do return .eraseSafe (← safeSlot index c))
    fun c => { c with known := c.known.withSafeSlot index false }

end Operation

/-! ## §7. Connecting. -/

namespace Client

variable {σ : Type}

/-- The host after its first status request: it knows the firmware, and goes
by the capabilities of its options or of that firmware. -/
def connect (line : Line σ) (options : Options) (s : σ) : Except Error Client × σ :=
  match (fresh options).perform line .getStatus s with
  | (.error why, _, s) => (.error why, s)
  | (.ok status, c, s) =>
      (.ok { c with
        firmware := status.firmware
        capabilities := options.capabilities.getD (.detect status.firmware) }, s)

end Client

end OtpToken
