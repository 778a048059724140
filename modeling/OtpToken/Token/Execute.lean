/-
  OtpToken.Token.Execute
  ──────────────────────
  **WHAT EACH COMMAND DOES.**

  `Token.execute` gives the answer to a command and the token after it.  Four
  guards stand before the effects: a live temporary password, a PIN, an
  enabled Password Safe, a slot that exists.  Nothing that a part of the token
  has changed is taken back if the command is refused later on.
-/
import OtpToken.Token.Basic

namespace OtpToken

/-- A payload, or the status that takes its place. -/
abbrev Answer := Except Status Payload

namespace Token

/-! ## §1. Answers. -/

/-- Done, with nothing to tell. -/
def done (t : Token) : Answer × Token := (.ok .empty, t)

/-- Refused. -/
def refuse (t : Token) (status : Status) : Answer × Token := (.error status, t)

/-- A record that cannot be laid out is an internal error. -/
def tell (t : Token) (payload : Except LibraryError Payload) : Answer × Token :=
  (payload.mapError fun _ => .unknown, t)

/-- The store as changed, with its verdict. -/
def commit (t : Token) (step : Except Status Unit × Store) : Answer × Token :=
  (step.1.map fun _ => .empty, { t with store := step.2 })

/-- The session as changed, with its verdict. -/
def settle (t : Token) (step : Session.Verdict × Session) : Answer × Token :=
  (step.1.map fun _ => .empty, { t with session := step.2 })

/-! ## §2. Guards. -/

/-- Goes on if `temp` is the live temporary password of the role. -/
def withTemp (t : Token) (role : Role) (temp : Secret) (next : Answer × Token) :
    Answer × Token :=
  if t.session.admits role temp.bytes then next else t.refuse .notAuthorized

/-- Goes on, from the session in which the PIN was tried, if it was
right. -/
def withPin (t : Token) (role : Role) (pin : Secret) (next : Token → Answer × Token) :
    Answer × Token :=
  match t.session.verifyPin role pin.bytes with
  | (.ok (), session) => next { t with session }
  | (.error status, session) => refuse { t with session } status

/-- Goes on if the Password Safe is enabled. -/
def withSafe (t : Token) (next : Answer × Token) : Answer × Token :=
  if t.safeEnabled then next else t.refuse .notAuthorized

/-- Goes on with the code slot of a number. -/
def withSlot (t : Token) (number : UInt8) (next : CodeKind → UInt8 → Answer × Token) :
    Answer × Token :=
  match CodeKind.ofSlotNumber? number with
  | some (kind, index) => next kind index
  | none => t.refuse .wrongSlot

/-! ## §3. Code slots. -/

/-- A piece of slot data. -/
def stage (t : Token) (kind : DataKind) (chunk : UInt8) (data : Bytes) : Answer × Token :=
  match kind with
  | .name =>
      if nameWidth < data.length then t.refuse .notSupported
      else done { t with staged := .withName (Utf8.decodeLossy data) }
  | .secret =>
      let step := t.staged.withChunk t.capabilities.secretLength chunk data
      (step.1.map fun _ => .empty, { t with staged := step.2 })

/-- The staged data, which is gone afterwards, becomes a slot. -/
def writeStaged (t : Token) (number : UInt8) (counter : UInt64) (flags : SlotFlags)
    (tokenId : String) : Answer × Token :=
  let staged := t.staged
  -- From here on nothing is staged, however the write ends.
  let t := { t with staged := .empty }
  t.withSlot number fun kind index =>
    match staged.name with
    | none => t.refuse .noName
    | some name =>
        t.commit (t.store.writeCode kind index
          ⟨⟨name, flags, tokenId, counter⟩, staged.secret.map Secret.mk⟩)

/-- What is told of a programmed slot. -/
def tellSlot (t : Token) (number : UInt8)
    (payload : CodeSlot → Except LibraryError Payload) : Answer × Token :=
  t.withSlot number fun kind index =>
    match t.store.code kind index with
    | .error status => t.refuse status
    | .ok slot => t.tell (payload slot)

/-- The next code of an HOTP slot, or the code of a TOTP slot now. -/
def giveCode (t : Token) (number : UInt8) : Answer × Token :=
  t.withSlot number fun kind index =>
    match kind with
    | .hotp =>
        match t.store.nextHotp index t.encoding.maximum with
        | (.error status, store) => refuse { t with store } status
        | (.ok record, store) => tell { t with store } record.encode
    | .totp =>
        match t.store.totp index t.clock with
        | .error status => t.refuse status
        | .ok record => t.tell record.encode

/-! ## §4. Password Safe. -/

/-- What is told of a Password Safe slot; an empty slot has empty fields. -/
def tellSafe (t : Token) (index : UInt8) (label : String) (width : Nat)
    (field : SafeEntry → Bytes) : Answer × Token :=
  t.withSafe <|
    match t.store.safeEntry index with
    | .error status => t.refuse status
    | .ok entry => t.tell (Payload.ofBytes label width ((entry.map field).getD []))

/-! ## §5. Factory reset. -/

/-- Everything but the clock as it left the factory, and no AES key. -/
def factoryReset (t : Token) : Token :=
  { t with
    session := factorySession t.config
    store := .empty
    staged := .empty
    safeEnabled := false
    keyValid := false }

/-- A new AES key: the Password Safe is closed, cleared unless the settings
keep it, and the admin is logged out. -/
def renewKey (t : Token) : Token :=
  { t with
    store := if t.config.newKeyKeepsSafe then t.store else t.store.clearSafe
    session := t.session.invalidate .admin
    safeEnabled := false
    keyValid := true }

/-! ## §6. Commands. -/

/-- The answer to a command, and the token after it. -/
def execute (t : Token) : Command → Answer × Token
  | .getStatus => t.tell t.statusRecord.encode
  | .sendOtpData adminTemp kind chunk data =>
      t.withTemp .admin adminTemp (t.stage kind chunk data.bytes)
  | .writeToSlot adminTemp slot counter flags tokenId =>
      t.withTemp .admin adminTemp (t.writeStaged slot counter flags tokenId)
  | .readSlotName slot =>
      t.tellSlot slot fun s => Payload.ofBytes "slot name" nameWidth (Utf8.encode s.details.name)
  | .readSlot slot => t.tellSlot slot fun s => s.details.encode t.encoding
  | .getCode slot _ _ _ userTemp =>
      -- The three numbers of the host are not looked at.
      if t.store.config.protectsCodes then t.withTemp .user userTemp (t.giveCode slot)
      else t.giveCode slot
  | .writeConfig config adminTemp =>
      t.withTemp .admin adminTemp (done { t with store.config := config })
  | .eraseSlot slot adminTemp =>
      t.withTemp .admin adminTemp <|
        t.withSlot slot fun kind index =>
          match t.store.eraseCode kind index with
          | (.error status, store) => refuse { t with store } status
          | (.ok (), store) => done { t with store, session := t.session.invalidate .admin }
  | .setTime reset time =>
      if !reset && time < t.clock then t.refuse .timestampWarning
      else done { t with clock := time }
  | .firstAuthenticate pin temp => t.settle (t.session.login .admin pin.bytes temp)
  | .userAuthenticate pin temp => t.settle (t.session.login .user pin.bytes temp)
  | .getAdminRetryCount =>
      (.ok (.ofByte (UInt8.ofNat (t.session.retryCount .admin))), t)
  | .getUserRetryCount => (.ok (.ofByte (UInt8.ofNat (t.session.retryCount .user))), t)
  | .unlockUserPassword adminPin newUserPin =>
      t.settle (t.session.unlockUser adminPin.bytes newUserPin)
  | .changeUserPin old new => t.settle (t.session.changePin .user old.bytes new)
  | .changeAdminPin old new => t.settle (t.session.changePin .admin old.bytes new)
  | .lockDevice =>
      done { t with safeEnabled := false, session := t.session.invalidate .user }
  | .factoryReset adminPin => t.withPin .admin adminPin fun t => done t.factoryReset
  | .enableSafe userPin =>
      t.withPin .user userPin fun t =>
        if t.keyValid then done { t with safeEnabled := true }
        else t.refuse .aesDecryptionFailed
  | .detectAes userPin => t.withPin .user userPin fun t => (.ok (.ofByte 1), t)
  | .newAesKey adminPin => t.withPin .admin adminPin fun t => done t.renewKey
  | .safeStatus => t.withSafe (.ok (.ofSafeStatus t.store.safeStatus), t)
  | .safeName slot => t.tellSafe slot "slot name" safeNameWidth fun e => Utf8.encode e.name
  | .safePassword slot => t.tellSafe slot "password" safePasswordWidth fun e => e.password.bytes
  | .safeLogin slot => t.tellSafe slot "login" safeLoginWidth fun e => Utf8.encode e.login
  | .setSafePrimary slot name password =>
      t.withSafe (t.commit (t.store.writeSafePrimary slot name password))
  | .setSafeLogin slot login => t.withSafe (t.commit (t.store.writeSafeLogin slot login))
  | .eraseSafe slot => t.withSafe (t.commit (t.store.eraseSafe slot))

end Token

end OtpToken
