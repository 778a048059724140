/-
  OtpToken.Proofs.Token.Codes
  ───────────────────────────
  **WHICH COMMANDS TOUCH CODE SLOTS AND THE CLOCK.**

  Codes depend on the code slots and on the clock.  Five commands touch these,
  and only when they are done; every other command spares them
  (`Effect.same_of_spares`, `Effect.same_of_refused`).  For each of the five
  there is one theorem that says what the token is afterwards.
-/
import OtpToken.Proofs.Token.Change

namespace OtpToken

/-- The commands that leave code slots and the clock alone. -/
def CommandId.spares : CommandId → Bool
  | writeToSlot | getCode | eraseSlot | setTime | factoryReset => false
  | _ => true

namespace Token

/-- Code slots and clock are the same. -/
def SameCodes (t t' : Token) : Prop := t'.store.codes = t.store.codes ∧ t'.clock = t.clock

theorem SameCodes.refl (t : Token) : t.SameCodes t := ⟨rfl, rfl⟩

theorem SameCodes.trans {t t' t'' : Token} (h : t.SameCodes t') (h' : t'.SameCodes t'') :
    t.SameCodes t'' := ⟨h'.1.trans h.1, h'.2.trans h.2⟩

variable {t t' : Token} {c : Command} {payload : Payload}

namespace Effect

/-- **A command that spares code slots and the clock leaves them alone,
however it ends.** -/
theorem same_of_spares {r : Answer × Token} (h : t.Effect c r) (hspares : c.id.spares = true) :
    t.SameCodes r.2 := by
  cases h with
  | written _ _ _ _ _ _ => cases hspares
  | unwritten _ _ => cases hspares
  | erased _ _ => cases hspares
  | counted _ _ _ _ _ _ => cases hspares
  | clockSet _ => cases hspares
  | reset _ => cases hspares
  | keyRenewed _ =>
    -- clearing the Password Safe keeps the code slots
    refine ⟨?_, rfl⟩
    show (ite _ _ _ : Store).codes = _
    split
    · rfl
    · rfl
  | _ => exact ⟨rfl, rfl⟩

/-- **A refused command leaves code slots and the clock alone.** -/
theorem same_of_refused {status : Status} (h : t.Effect c (.error status, t')) :
    t.SameCodes t' := by
  have hok : Answer.status (.error status) ≠ .ok := (h.status_of_error rfl).1
  constructor
  · rcases h.codes_config with ⟨hcodes, -⟩ | ⟨hstatus, -⟩
    · exact hcodes
    · exact absurd hstatus hok
  · have hswitch := h.switches_eq
    rw [if_neg hok] at hswitch
    exact congrArg Switches.clock hswitch

/-- **A refused command leaves all slots and the config register alone.** -/
theorem store_of_refused {status : Status} (h : t.Effect c (.error status, t')) :
    t'.store = t.store := by
  cases h with
  | _ => rfl

/-- A piece of slot data leaves them alone however it ends. -/
theorem store_of_sendOtpData {temp data : Secret} {kind : DataKind} {chunk : UInt8}
    {r : Answer × Token} (h : t.Effect (.sendOtpData temp kind chunk data) r) :
    r.2.store = t.store := by
  cases h with
  | safeChanged _ huses => cases huses
  | _ => rfl

/-! ## What the five do when they are done. -/

theorem of_setTime_ok {reset : Bool} {time : UInt64}
    (h : t.Effect (.setTime reset time) (.ok payload, t')) :
    t'.store.codes = t.store.codes ∧ t'.clock = time := by
  cases h with
  | clockSet _ => exact ⟨rfl, rfl⟩
  | told _ htells => cases htells
  | safeChanged _ huses => cases huses
  | loggedIn hcheck _ _ _ => cases hcheck
  | pinChanged hcheck _ _ _ => cases hcheck

theorem of_eraseSlot_ok {number : UInt8} {temp : Secret}
    (h : t.Effect (.eraseSlot number temp) (.ok payload, t')) :
    t'.clock = t.clock ∧ ∃ kind index, CodeKind.ofSlotNumber? number = some (kind, index)
      ∧ t'.store.codes = t.store.codes.set kind index none := by
  cases h with
  | erased _ hnumber => exact ⟨rfl, _, _, hnumber, rfl⟩
  | told _ htells => cases htells
  | safeChanged _ huses => cases huses
  | loggedIn hcheck _ _ _ => cases hcheck
  | pinChanged hcheck _ _ _ => cases hcheck

theorem of_factoryReset_ok {pin : Secret} (h : t.Effect (.factoryReset pin) (.ok payload, t')) :
    t'.clock = t.clock ∧ t'.store.codes = .empty := by
  cases h with
  | reset _ => exact ⟨rfl, rfl⟩
  | told _ htells => cases htells
  | safeChanged _ huses => cases huses
  | loggedIn _ hlogin _ _ => cases hlogin
  | pinChanged _ hnew _ _ => cases hnew

/-- A write takes its name and its secret from what is staged, and a secret
that is not staged from the slot.  Nothing is staged afterwards. -/
theorem of_writeToSlot_ok {temp : Secret} {number : UInt8} {counter : UInt64} {flags : SlotFlags}
    {tokenId : String} (h : t.Effect (.writeToSlot temp number counter flags tokenId)
      (.ok payload, t')) :
    ∃ kind index name previous secret, CodeKind.ofSlotNumber? number = some (kind, index)
      ∧ t.staged.name = some name ∧ t.store.codes.get? kind index = some previous
      ∧ (t.staged.secret.map Secret.mk <|> previous.map CodeSlot.secret) = some secret
      ∧ t' = { t with
          staged := .empty
          store := { t.store with
            codes := t.store.codes.set kind index
              (some ⟨⟨name, flags, tokenId, counter⟩, secret⟩) } } := by
  cases h with
  | written _ hnumber hname _ hprevious hsecret =>
    exact ⟨_, _, _, _, _, hnumber, hname, hprevious, hsecret, rfl⟩
  | told _ htells => cases htells
  | safeChanged _ huses => cases huses
  | loggedIn hcheck _ _ _ => cases hcheck
  | pinChanged hcheck _ _ _ => cases hcheck

/-- No TOTP slot is written without a period. -/
theorem period_of_writeToSlot_ok {temp : Secret} {number index : UInt8} {counter : UInt64}
    {flags : SlotFlags} {tokenId : String} {kind : CodeKind}
    (h : t.Effect (.writeToSlot temp number counter flags tokenId) (.ok payload, t'))
    (hnumber : CodeKind.ofSlotNumber? number = some (kind, index)) :
    ¬ (kind = .totp ∧ counter = 0) := by
  cases h with
  | written _ hnumber' _ hperiod _ _ =>
    cases hnumber.symm.trans hnumber'
    exact hperiod
  | told _ htells => cases htells
  | safeChanged _ huses => cases huses
  | loggedIn hcheck _ _ _ => cases hcheck
  | pinChanged hcheck _ _ _ => cases hcheck

/-- A code of an HOTP slot is the code at its counter, which moves on. -/
theorem of_getCode_hotp_ok {number index lastInterval : UInt8} {challenge lastTime : UInt64}
    {temp : Secret} (h : t.Effect (.getCode number challenge lastTime lastInterval temp)
      (.ok payload, t')) (hnumber : CodeKind.ofSlotNumber? number = some (.hotp, index)) :
    t'.clock = t.clock ∧ ∃ slot code, t.store.codes.get? .hotp index = some (some slot)
      ∧ slot.details.counter < t.encoding.maximum
      ∧ codeValue slot.secret.bytes slot.details.counter slot.details.flags.digits = .ok code
      ∧ CodeRecord.encode ⟨code, slot.details.flags⟩ = .ok payload
      ∧ t'.store.codes = t.store.codes.set .hotp index (some { slot with
          details := { slot.details with counter := slot.details.counter + 1 } }) := by
  cases h with
  | counted _ hnumber' hslot hmax hcode hpayload =>
    cases hnumber.symm.trans hnumber'
    exact ⟨rfl, _, _, hslot, hmax, hcode, hpayload, rfl⟩
  | timed _ hnumber' _ _ _ _ => cases hnumber.symm.trans hnumber'
  | told _ htells => cases htells
  | safeChanged _ huses => cases huses
  | loggedIn hcheck _ _ _ => cases hcheck
  | pinChanged hcheck _ _ _ => cases hcheck

/-- A code of a TOTP slot is the code at the clock, and nothing changes. -/
theorem of_getCode_totp_ok {number index lastInterval : UInt8} {challenge lastTime : UInt64}
    {temp : Secret} (h : t.Effect (.getCode number challenge lastTime lastInterval temp)
      (.ok payload, t')) (hnumber : CodeKind.ofSlotNumber? number = some (.totp, index)) :
    t' = t ∧ ∃ slot step code, t.store.codes.get? .totp index = some (some slot)
      ∧ timeStep t.clock slot.details.counter.toUInt32 = .ok step
      ∧ codeValue slot.secret.bytes step slot.details.flags.digits = .ok code
      ∧ CodeRecord.encode ⟨code, slot.details.flags⟩ = .ok payload := by
  cases h with
  | timed _ hnumber' hslot hstep hcode hpayload =>
    cases hnumber.symm.trans hnumber'
    exact ⟨rfl, _, _, _, hslot, hstep, hcode, hpayload⟩
  | counted _ hnumber' _ _ _ _ => cases hnumber.symm.trans hnumber'
  | told _ htells => cases htells
  | safeChanged _ huses => cases huses
  | loggedIn hcheck _ _ _ => cases hcheck
  | pinChanged hcheck _ _ _ => cases hcheck

/-- A name that was taken starts the staged data over, and nothing else
changes. -/
theorem of_sendName_ok {temp data : Secret} {chunk : UInt8}
    (h : t.Effect (.sendOtpData temp .name chunk data) (.ok payload, t')) :
    t' = { t with staged := .withName (Utf8.decodeLossy data.bytes) } := by
  cases h with
  | staged _ hstaged =>
    subst hstaged
    rfl
  | told _ htells => cases htells
  | safeChanged _ huses => cases huses
  | loggedIn hcheck _ _ _ => cases hcheck
  | pinChanged hcheck _ _ _ => cases hcheck

/-- A piece of a secret that was taken is staged, and nothing else changes. -/
theorem of_sendSecret_ok {temp data : Secret} {chunk : UInt8}
    (h : t.Effect (.sendOtpData temp .secret chunk data) (.ok payload, t')) :
    ∃ staged, t.staged.withChunk t.capabilities.secretLength chunk data.bytes = (.ok (), staged)
      ∧ t' = { t with staged } := by
  cases h with
  | staged _ hstaged => exact ⟨_, hstaged, rfl⟩
  | told _ htells => cases htells
  | safeChanged _ huses => cases huses
  | loggedIn hcheck _ _ _ => cases hcheck
  | pinChanged hcheck _ _ _ => cases hcheck

end Effect

end Token

end OtpToken
