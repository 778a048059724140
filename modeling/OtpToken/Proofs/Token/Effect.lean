/-
  OtpToken.Proofs.Token.Effect
  ────────────────────────────
  **EVERYTHING THAT A COMMAND CAN DO.**

  `Token.Effect t c (a, t')` lists the ways in which a token `t` can answer
  the command `c` with `a` and be `t'` afterwards, each with what is known
  when it comes about.  `effect_execute` says that the list is complete.
  What holds of every command is proved by cases on this list, and never by
  opening `Token.execute` again.

  A command is described by four questions: whose temporary password it
  presents, whose PIN it presents, which temporary password it asks for, and
  whether it is about a Password Safe slot.
-/
import OtpToken.Proofs.Token.Rules

namespace OtpToken

/-! ## §1. What a command presents. -/

/-- The commands that only tell something. -/
def CommandId.tells : CommandId → Bool
  | getStatus | readSlotName | readSlot | getAdminRetryCount | getUserRetryCount
  | safeStatus | safeName | safePassword | safeLogin => true
  | _ => false

/-- The commands about Password Safe slots. -/
def CommandId.usesSafe : CommandId → Bool
  | safeStatus | safeName | safePassword | safeLogin | setSafePrimary | setSafeLogin
  | eraseSafe => true
  | _ => false

namespace Command

/-- The admin's temporary password in a command that needs it. -/
def adminTemp? : Command → Option Secret
  | sendOtpData adminTemp .. | writeToSlot adminTemp .. => some adminTemp
  | writeConfig _ adminTemp | eraseSlot _ adminTemp => some adminTemp
  | _ => none

/-- The PIN in a command, with the role whose PIN it should be. -/
def check? : Command → Option (Role × Secret)
  | firstAuthenticate pin _ | unlockUserPassword pin _ | changeAdminPin pin _
  | factoryReset pin | newAesKey pin => some (.admin, pin)
  | userAuthenticate pin _ | changeUserPin pin _ | enableSafe pin | detectAes pin =>
      some (.user, pin)
  | _ => none

/-- The temporary password that a login asks for, with the role that logs
in. -/
def login? : Command → Option (Role × Secret)
  | firstAuthenticate _ temp => some (.admin, temp)
  | userAuthenticate _ temp => some (.user, temp)
  | _ => none

/-- The new PIN in a command, with the role that gets it. -/
def newPin? : Command → Option (Role × Secret)
  | changeAdminPin _ new => some (.admin, new)
  | changeUserPin _ new | unlockUserPassword _ new => some (.user, new)
  | _ => none

end Command

/-- Whether the guards that cost nothing let a command pass: the live
temporary password, or the enabled Password Safe. -/
def Token.allows (t : Token) (c : Command) : Bool :=
  match c.adminTemp?, c with
  | some temp, _ => t.session.admits .admin temp.bytes
  | none, .getCode _ _ _ _ temp =>
      !t.store.config.protectsCodes || t.session.admits .user temp.bytes
  | none, c => !c.id.usesSafe || t.safeEnabled

/-- The state of a role once a PIN was tried, in a login or elsewhere. -/
def Credential.checked (k : Credential) (pin : Secret) : Option (Role × Secret) → Credential
  | some (_, temp) => k.loggedIn pin.bytes temp
  | none => k.tried pin.bytes

/-! ## §2. The list. -/

namespace Token

/-- The statuses of a command that fails although its PIN was right. -/
def failures : List Status :=
  [.userPinNotUnblocked, .userPinNotChanged, .adminPinNotChanged, .aesDecryptionFailed]

/-- **What a command can do.** -/
inductive Effect (t : Token) : Command → Answer × Token → Prop
  /-- A guard that costs nothing stands in the way. -/
  | barred {c : Command} (hbar : t.allows c = false) :
      Effect t c (.error .notAuthorized, t)
  | refused {c : Command} {status : Status} (hpass : t.allows c = true)
      (hcheck : c.check? = none) (hstatus : status ∈ Status.refusals) :
      Effect t c (.error status, t)
  | told {c : Command} {payload : Payload} (hpass : t.allows c = true)
      (htells : c.id.tells = true) : Effect t c (.ok payload, t)
  -- code slots
  | staged {temp data : Secret} {kind : DataKind} {chunk : UInt8} {staged : Staged}
      (hpass : t.session.admits .admin temp.bytes = true)
      (hstaged : match kind with
        | .name => staged = .withName (Utf8.decodeLossy data.bytes)
        | .secret =>
            t.staged.withChunk t.capabilities.secretLength chunk data.bytes = (.ok (), staged)) :
      Effect t (.sendOtpData temp kind chunk data) (.ok .empty, { t with staged })
  | unwritten {temp : Secret} {number : UInt8} {counter : UInt64} {flags : SlotFlags}
      {tokenId : String} {status : Status} (hpass : t.session.admits .admin temp.bytes = true)
      (hstatus : status ∈ Status.refusals) :
      Effect t (.writeToSlot temp number counter flags tokenId)
        (.error status, { t with staged := .empty })
  | written {temp secret : Secret} {number index : UInt8} {kind : CodeKind}
      {counter : UInt64} {flags : SlotFlags} {tokenId name : String}
      {previous : Option CodeSlot} (hpass : t.session.admits .admin temp.bytes = true)
      (hnumber : CodeKind.ofSlotNumber? number = some (kind, index))
      (hname : t.staged.name = some name) (hperiod : ¬ (kind = .totp ∧ counter = 0))
      (hprevious : t.store.codes.get? kind index = some previous)
      (hsecret : (t.staged.secret.map Secret.mk <|> previous.map CodeSlot.secret)
        = some secret) :
      Effect t (.writeToSlot temp number counter flags tokenId)
        (.ok .empty, { t with
          staged := .empty
          store := { t.store with
            codes := t.store.codes.set kind index
              (some ⟨⟨name, flags, tokenId, counter⟩, secret⟩) } })
  | erased {temp : Secret} {number index : UInt8} {kind : CodeKind}
      (hpass : t.session.admits .admin temp.bytes = true)
      (hnumber : CodeKind.ofSlotNumber? number = some (kind, index)) :
      Effect t (.eraseSlot number temp)
        (.ok .empty, { t with
          store := { t.store with codes := t.store.codes.set kind index none }
          session := t.session.invalidate .admin })
  | configured {temp : Secret} {config : Config}
      (hpass : t.session.admits .admin temp.bytes = true) :
      Effect t (.writeConfig config temp) (.ok .empty, { t with store.config := config })
  /-- The next code of an HOTP slot: its counter moves on by one. -/
  | counted {number index lastInterval : UInt8} {challenge lastTime : UInt64} {temp : Secret}
      {slot : CodeSlot} {code : UInt32} {payload : Payload}
      (hpass : t.allows (.getCode number challenge lastTime lastInterval temp) = true)
      (hnumber : CodeKind.ofSlotNumber? number = some (.hotp, index))
      (hslot : t.store.codes.get? .hotp index = some (some slot))
      (hmax : slot.details.counter < t.encoding.maximum)
      (hcode : codeValue slot.secret.bytes slot.details.counter slot.details.flags.digits
        = .ok code)
      (hpayload : CodeRecord.encode ⟨code, slot.details.flags⟩ = .ok payload) :
      Effect t (.getCode number challenge lastTime lastInterval temp)
        (.ok payload, { t with store := { t.store with
          codes := t.store.codes.set .hotp index (some { slot with
            details := { slot.details with counter := slot.details.counter + 1 } }) } })
  /-- The code of a TOTP slot at the time of the token. -/
  | timed {number index lastInterval : UInt8} {challenge lastTime step : UInt64}
      {temp : Secret} {slot : CodeSlot} {code : UInt32} {payload : Payload}
      (hpass : t.allows (.getCode number challenge lastTime lastInterval temp) = true)
      (hnumber : CodeKind.ofSlotNumber? number = some (.totp, index))
      (hslot : t.store.codes.get? .totp index = some (some slot))
      (hstep : timeStep t.clock slot.details.counter.toUInt32 = .ok step)
      (hcode : codeValue slot.secret.bytes step slot.details.flags.digits = .ok code)
      (hpayload : CodeRecord.encode ⟨code, slot.details.flags⟩ = .ok payload) :
      Effect t (.getCode number challenge lastTime lastInterval temp) (.ok payload, t)
  -- clock, lock and Password Safe
  | clockSet {reset : Bool} {time : UInt64} (htime : reset = true ∨ t.clock ≤ time) :
      Effect t (.setTime reset time) (.ok .empty, { t with clock := time })
  | locked :
      Effect t .lockDevice
        (.ok .empty, { t with safeEnabled := false, session := t.session.invalidate .user })
  | safeChanged {c : Command} {safe : Vector (Option SafeEntry) safeCapacity}
      (hpass : t.allows c = true) (huses : c.id.usesSafe = true) :
      Effect t c (.ok .empty, { t with store := { t.store with safe } })
  -- PINs
  | wrongPin {c : Command} {role : Role} {pin : Secret} {k : Credential}
      (hcheck : c.check? = some (role, pin)) (hk : t.session.credential? role = some k)
      (hwrong : k.accepts pin.bytes = false) :
      Effect t c
        (.error .wrongPassword,
          { t with session := t.session.update role (k.checked pin c.login?) })
  | failed {c : Command} {role : Role} {pin : Secret} {k : Credential} {status : Status}
      (hcheck : c.check? = some (role, pin)) (hlogin : c.login? = none)
      (hk : t.session.credential? role = some k) (hright : k.accepts pin.bytes = true)
      (hstatus : status ∈ failures) :
      Effect t c
        (.error status, { t with session := t.session.update role (k.tried pin.bytes) })
  | loggedIn {c : Command} {role : Role} {pin temp : Secret} {k : Credential}
      (hcheck : c.check? = some (role, pin)) (hlogin : c.login? = some (role, temp))
      (hk : t.session.credential? role = some k) (hright : k.accepts pin.bytes = true) :
      Effect t c
        (.ok .empty, { t with session := t.session.update role (k.loggedIn pin.bytes temp) })
  | pinChanged {c : Command} {role : Role} {old new : Secret} {k : Credential}
      (hcheck : c.check? = some (role, old)) (hnew : c.newPin? = some (role, new))
      (hk : t.session.credential? role = some k) (hright : k.accepts old.bytes = true) :
      Effect t c
        (.ok .empty,
          { t with session := t.session.update role { k.tried old.bytes with pin := new } })
  | unlocked {adminPin new : Secret}
      (hright : t.session.admin.accepts adminPin.bytes = true) :
      Effect t (.unlockUserPassword adminPin new)
        (.ok .empty, { t with session := ⟨t.session.admin.tried adminPin.bytes, .fresh new⟩ })
  | reset {adminPin : Secret} (hright : t.session.admin.accepts adminPin.bytes = true) :
      Effect t (.factoryReset adminPin) (.ok .empty, t.factoryReset)
  | safeOpened {userPin : Secret} (hright : t.session.user.accepts userPin.bytes = true)
      (hkey : t.keyValid = true) :
      Effect t (.enableSafe userPin)
        (.ok .empty, { t with
          session := t.session.update .user (t.session.user.tried userPin.bytes)
          safeEnabled := true })
  | keyDetected {userPin : Secret} {payload : Payload}
      (hright : t.session.user.accepts userPin.bytes = true) :
      Effect t (.detectAes userPin)
        (.ok payload,
          { t with session := t.session.update .user (t.session.user.tried userPin.bytes) })
  | keyRenewed {adminPin : Secret} (hright : t.session.admin.accepts adminPin.bytes = true) :
      Effect t (.newAesKey adminPin)
        (.ok .empty, renewKey { t with
          session := t.session.update .admin (t.session.admin.tried adminPin.bytes) })

/-! ## §3. The list is complete. -/

/-- **A command does nothing that is not on the list.** -/
theorem effect_execute (t : Token) (c : Command) : t.Effect c (t.execute c) := by
  -- one case a command; the rules split each into its ways to end
  cases c with
  | getStatus =>
    show t.Effect _ (t.tell _)
    cases h : t.statusRecord.encode with
    | error why =>
      rw [tell_error rfl]
      exact .refused rfl rfl (by decide)
    | ok told =>
      rw [tell_ok rfl]
      exact .told rfl rfl
  | sendOtpData temp kind chunk data =>
    refine withTemp_rule (fun h => .barred h) fun h => stage_rule ?_ ?_ ?_
    · exact .refused h rfl (by decide)
    · rintro rfl -
      exact .staged h rfl
    · rintro staged rfl hs
      exact .staged h hs
  | writeToSlot temp number counter flags tokenId =>
    refine withTemp_rule (fun h => .barred h) fun h => writeStaged_rule ?_ ?_
    · intro status hs
      exact .unwritten h hs
    · intro kind index name previous secret hnumber hname hperiod hprevious hsecret
      exact .written h hnumber hname hperiod hprevious hsecret
  | readSlotName number =>
    exact tellSlot_rule (fun _ hs => .refused rfl rfl hs) fun _ _ _ _ _ _ _ => .told rfl rfl
  | readSlot number =>
    exact tellSlot_rule (fun _ hs => .refused rfl rfl hs) fun _ _ _ _ _ _ _ => .told rfl rfl
  | getCode number challenge lastTime lastInterval temp =>
    have hgive : t.allows (.getCode number challenge lastTime lastInterval temp) = true →
        t.Effect (.getCode number challenge lastTime lastInterval temp) (t.giveCode number) := by
      intro h
      refine giveCode_rule (fun _ hs => .refused h rfl hs) ?_ ?_
      · intro index slot code told hnumber hslot hmax hcode htold
        exact .counted h hnumber hslot hmax hcode htold
      · intro index slot step code told hnumber hslot _ hstep hcode htold
        exact .timed h hnumber hslot hstep hcode htold
    -- the guard is there only while the config register asks for it
    have hallows : t.allows (.getCode number challenge lastTime lastInterval temp)
        = (!t.store.config.protectsCodes || t.session.admits .user temp.bytes) := rfl
    show t.Effect _ (if t.store.config.protectsCodes then _ else _)
    by_cases hc : t.store.config.protectsCodes = true
    · rw [if_pos hc]
      refine withTemp_rule (fun h => .barred ?_) fun h => hgive ?_
      · rw [hallows, hc, h]
        rfl
      · rw [hallows, h, Bool.or_true]
    · rw [if_neg hc]
      apply hgive
      rw [hallows, Bool.eq_false_iff.mpr hc]
      rfl
  | writeConfig config temp =>
    exact withTemp_rule (fun h => .barred h) fun h => .configured h
  | eraseSlot number temp =>
    refine withTemp_rule (fun h => .barred h) fun h => withSlot_rule ?_ ?_
    · intro _
      exact .refused h rfl (by decide)
    · intro kind index hnumber
      rcases t.store.eraseCode_cases kind index with he | he
      · rw [(t.store.atomic_eraseCode kind index).eq_of_error he]
        exact .refused h rfl (by decide)
      · rw [he]
        exact .erased h hnumber
  | setTime reset time =>
    show t.Effect _ (if _ then _ else _)
    split
    · exact .refused rfl rfl (by decide)
    · next h =>
      -- not refused: a reset, or no step back
      refine .clockSet ?_
      by_cases hr : reset = true
      · exact .inl hr
      · refine .inr (UInt64.not_lt.mp fun hlt => h ?_)
        rw [Bool.eq_false_iff.mpr hr]
        exact decide_eq_true hlt
  | firstAuthenticate pin temp =>
    exact login_rule rfl (fun h => .wrongPin rfl rfl h) fun h => .loggedIn rfl rfl rfl h
  | userAuthenticate pin temp =>
    exact login_rule rfl (fun h => .wrongPin rfl rfl h) fun h => .loggedIn rfl rfl rfl h
  | getAdminRetryCount => exact .told rfl rfl
  | getUserRetryCount => exact .told rfl rfl
  | unlockUserPassword adminPin new =>
    refine unlockUser_rule (fun h => .wrongPin rfl rfl h) (fun h => ?_) fun h => .unlocked h
    exact .failed rfl rfl rfl h (by decide)
  | changeUserPin old new =>
    -- a new PIN that is too short fails after the old one has counted
    refine changePin_rule rfl rfl (fun h => .wrongPin rfl rfl h) (fun h => ?_) fun h => ?_
    · exact .failed rfl rfl rfl h (by decide)
    · exact .pinChanged rfl rfl rfl h
  | changeAdminPin old new =>
    refine changePin_rule rfl rfl (fun h => .wrongPin rfl rfl h) (fun h => ?_) fun h => ?_
    · exact .failed rfl rfl rfl h (by decide)
    · exact .pinChanged rfl rfl rfl h
  | lockDevice => exact .locked
  | factoryReset adminPin =>
    show t.Effect _ (t.withPin .admin adminPin fun t => done t.factoryReset)
    exact withPin_rule rfl (fun h => .wrongPin rfl rfl h) fun h => .reset h
  | enableSafe userPin =>
    show t.Effect _ (t.withPin .user userPin fun t =>
      if t.keyValid then done { t with safeEnabled := true } else t.refuse .aesDecryptionFailed)
    refine withPin_rule rfl (fun h => .wrongPin rfl rfl h) fun h => ?_
    -- the key is looked at after the PIN
    by_cases hkey : t.keyValid = true
    · rw [if_pos hkey]
      exact .safeOpened h hkey
    · rw [if_neg hkey]
      exact .failed rfl rfl rfl h (by decide)
  | detectAes userPin =>
    show t.Effect _ (t.withPin .user userPin fun t => (.ok (.ofByte 1), t))
    refine withPin_rule rfl (fun h => .wrongPin rfl rfl h) fun h => ?_
    exact .keyDetected h
  | newAesKey adminPin =>
    show t.Effect _ (t.withPin .admin adminPin fun t => done t.renewKey)
    exact withPin_rule rfl (fun h => .wrongPin rfl rfl h) fun h => .keyRenewed h
  | safeStatus => exact withSafe_rule (fun h => .barred h) fun h => .told h rfl
  | safeName number =>
    exact tellSafe_rule (fun h => .barred h) (fun h _ hs => .refused h rfl hs)
      fun h _ => .told h rfl
  | safePassword number =>
    exact tellSafe_rule (fun h => .barred h) (fun h _ hs => .refused h rfl hs)
      fun h _ => .told h rfl
  | safeLogin number =>
    exact tellSafe_rule (fun h => .barred h) (fun h _ hs => .refused h rfl hs)
      fun h _ => .told h rfl
  | setSafePrimary number name password =>
    exact changeSafe_rule (fun h => .barred h) (fun h => .refused h rfl (by decide))
      fun h _ => .safeChanged h rfl
  | setSafeLogin number login =>
    exact changeSafe_rule (fun h => .barred h) (fun h => .refused h rfl (by decide))
      fun h _ => .safeChanged h rfl
  | eraseSafe number =>
    exact changeSafe_rule (fun h => .barred h) (fun h => .refused h rfl (by decide))
      fun h _ => .safeChanged h rfl

end Token

end OtpToken
