/-
  OtpToken.Proofs.Token.Rules
  ───────────────────────────
  **ONE RULE FOR EVERY GUARD AND EVERY EFFECT.**

  A property of the outcome of a command, answer and token together, is
  proved guard by guard.  Each function that `Token.execute` is made of has
  one rule: what has to hold when it refuses, with the statuses that it can
  refuse with, and what has to hold when it goes on, with everything that is
  known then.  Later proofs cite the rules and do not open the functions.

  The parts of a token hand back what they have made of themselves also when
  they refuse, and the token keeps it.  That a refused change is no change is
  proved of each of them (`atomic_writeCode` and its like): what is taken out of
  a slot before the last check goes missing only where there was nothing.

  Writing a code record and making a code of a stored counter cannot fail
  half way: `encode_code` and `giveCode_rule` say that a counter moves only
  together with the code that it was moved for.
-/
import OtpToken.Proofs.Atomic
import OtpToken.Proofs.Record
import OtpToken.Token.Execute

namespace OtpToken

/-! ## §1. What the store refuses. -/

/-- The statuses with which a command that tries no PIN is refused once its
guards have let it pass. -/
def Status.refusals : List Status :=
  [.wrongSlot, .notProgrammed, .noName, .notSupported, .unknown, .timestampWarning]

namespace Store

theorem code_cases (s : Store) (kind : CodeKind) (index : UInt8) :
    (∃ status ∈ Status.refusals, s.code kind index = .error status)
      ∨ ∃ slot, s.codes.get? kind index = some (some slot) ∧ s.code kind index = .ok slot := by
  unfold code
  split
  · exact .inl ⟨_, by decide, rfl⟩
  · exact .inl ⟨_, by decide, rfl⟩
  · next slot h => exact .inr ⟨slot, h, rfl⟩

/-- A write is refused for its name, its period, its index or a secret that
is missing; else it changes one place. -/
theorem writeCode_cases (s : Store) (kind : CodeKind) (index : UInt8) (w : CodeWrite) :
    (∃ status ∈ Status.refusals, (s.writeCode kind index w).1 = .error status)
      ∨ ∃ previous secret, ¬ (kind = .totp ∧ w.details.counter = 0)
          ∧ s.codes.get? kind index = some previous
          ∧ (w.secret <|> previous.map CodeSlot.secret) = some secret
          ∧ s.writeCode kind index w = (.ok (),
              { s with codes := s.codes.set kind index (some ⟨w.details, secret⟩) }) := by
  unfold writeCode
  -- in the order of the checks: name, period, index, secret
  split
  · exact .inl ⟨_, by decide, rfl⟩
  split
  · exact .inl ⟨_, by decide, rfl⟩
  next hperiod =>
    split
    · exact .inl ⟨_, by decide, rfl⟩
    · next previous hprevious =>
      dsimp only
      cases hsecret : (w.secret <|> previous.map CodeSlot.secret) with
      | none => exact .inl ⟨_, by decide, rfl⟩
      | some secret =>
        dsimp only
        rw [CodeTable.set_set]
        exact .inr ⟨previous, secret, hperiod, hprevious, hsecret, rfl⟩

/-- If no secret comes from a slot, there was nothing in it to be taken out. -/
theorem eq_none_of_no_secret {secret : Option Secret} {previous : Option CodeSlot}
    (h : (secret <|> previous.map CodeSlot.secret) = none) : previous = none := by
  cases previous with
  | none => rfl
  | some slot =>
    cases secret with
    | none => cases h
    | some secret => cases h

/-- **A write that is refused changes nothing**, also if it has emptied the
slot. -/
theorem atomic_writeCode (s : Store) (kind : CodeKind) (index : UInt8) (w : CodeWrite) :
    Atomic s (s.writeCode kind index w) := by
  unfold writeCode
  split
  · exact .of_error _ s
  split
  · exact .of_error _ s
  split
  · exact .of_error _ s
  · next previous hprevious =>
    dsimp only
    cases hsecret : (w.secret <|> previous.map CodeSlot.secret) with
    | none =>
      have hempty : previous = none := eq_none_of_no_secret hsecret
      rw [hempty] at hprevious
      rw [CodeTable.set_eq_self hprevious]
      exact .of_error _ s
    | some secret => exact .of_ok () s _

theorem eraseCode_cases (s : Store) (kind : CodeKind) (index : UInt8) :
    (s.eraseCode kind index).1 = .error .wrongSlot
      ∨ s.eraseCode kind index = (.ok (), { s with codes := s.codes.set kind index none }) := by
  unfold eraseCode
  split
  · exact .inl rfl
  · exact .inr rfl

theorem atomic_eraseCode (s : Store) (kind : CodeKind) (index : UInt8) :
    Atomic s (s.eraseCode kind index) := by
  unfold eraseCode
  split
  · exact .of_error _ s
  · exact .of_ok () s _

/-- The next code of a slot, with the one place that moves on. -/
theorem nextHotp_cases (s : Store) (index : UInt8) (maximum : UInt64) :
    (∃ status ∈ Status.refusals, (s.nextHotp index maximum).1 = .error status)
      ∨ ∃ slot code, s.codes.get? .hotp index = some (some slot)
          ∧ slot.details.counter < maximum
          ∧ codeValue slot.secret.bytes slot.details.counter slot.details.flags.digits = .ok code
          ∧ s.nextHotp index maximum = (.ok ⟨code, slot.details.flags⟩,
              { s with codes := s.codes.set .hotp index (some { slot with
                details := { slot.details with counter := slot.details.counter + 1 } }) }) := by
  unfold nextHotp
  rcases s.code_cases .hotp index with ⟨status, hs, hcode⟩ | ⟨slot, hslot, hcode⟩
  · rw [hcode]
    exact .inl ⟨status, hs, rfl⟩
  · rw [hcode]
    dsimp only
    -- an exhausted slot is refused before a code is made
    split
    · exact .inl ⟨_, by decide, rfl⟩
    · next hmax =>
      split
      · exact .inl ⟨_, by decide, rfl⟩
      · next code hc => exact .inr ⟨slot, code, hslot, UInt64.not_le.mp hmax, hc, rfl⟩

/-- **A code that is refused moves no counter.** -/
theorem atomic_nextHotp (s : Store) (index : UInt8) (maximum : UInt64) :
    Atomic s (s.nextHotp index maximum) := by
  unfold nextHotp
  split
  · exact .of_error _ s
  split
  · exact .of_error _ s
  split
  · exact .of_error _ s
  · exact .of_ok _ s _

theorem totp_cases (s : Store) (index : UInt8) (time : UInt64) :
    (∃ status ∈ Status.refusals,
        s.totp index time = .error status)
      ∨ ∃ slot step code, s.codes.get? .totp index = some (some slot)
          ∧ slot.details.counter.toNat < UInt32.size
          ∧ timeStep time slot.details.counter.toUInt32 = .ok step
          ∧ codeValue slot.secret.bytes step slot.details.flags.digits = .ok code
          ∧ s.totp index time = .ok ⟨code, slot.details.flags⟩ := by
  unfold totp
  rcases s.code_cases .totp index with ⟨status, hs, hcode⟩ | ⟨slot, hslot, hcode⟩
  · rw [hcode]
    exact .inl ⟨status, hs, rfl⟩
  · rw [hcode]
    dsimp only
    -- a period that does not fit comes first; then the step and the code can fail
    split
    · exact .inl ⟨_, by decide, rfl⟩
    · next hperiod =>
      cases hstep : timeStep time slot.details.counter.toUInt32 with
      | error why => exact .inl ⟨_, by decide, rfl⟩
      | ok step =>
        cases hc : codeValue slot.secret.bytes step slot.details.flags.digits with
        | error why => exact .inl ⟨.unknown, by decide, by simp [Except.bind, hc]⟩
        | ok code =>
          exact .inr ⟨slot, step, code, hslot, Nat.not_le.mp hperiod, hstep, hc,
            by simp [Except.bind, hc]⟩

theorem updateSafe_of_none {s : Store} {index : UInt8} (h : s.safe[index.toNat]? = none)
    (next : Option SafeEntry → Option SafeEntry) :
    s.updateSafe index next = (.error .wrongSlot, s) := by
  unfold updateSafe safeEntry
  rw [h]

theorem updateSafe_of_some {s : Store} {index : UInt8} {contents : Option SafeEntry}
    (h : s.safe[index.toNat]? = some contents) (next : Option SafeEntry → Option SafeEntry) :
    s.updateSafe index next
      = (.ok (), { s with safe := s.safe.setIfInBounds index.toNat (next contents) }) := by
  unfold updateSafe safeEntry
  rw [h]

theorem updateSafe_cases (s : Store) (index : UInt8)
    (next : Option SafeEntry → Option SafeEntry) :
    (s.updateSafe index next).1 = .error .wrongSlot
      ∨ ∃ safe, s.updateSafe index next = (.ok (), { s with safe }) := by
  cases h : s.safe[index.toNat]? with
  | none => exact .inl (congrArg Prod.fst (updateSafe_of_none h next))
  | some contents => exact .inr ⟨_, updateSafe_of_some h next⟩

theorem atomic_updateSafe (s : Store) (index : UInt8)
    (next : Option SafeEntry → Option SafeEntry) : Atomic s (s.updateSafe index next) := by
  unfold updateSafe
  split
  · exact .of_error _ s
  · exact .of_ok () s _

end Store

namespace Staged

/-- A piece is refused only for lying past the end of the buffer. -/
theorem withChunk_cases (s : Staged) (capacity : Nat) (chunk : UInt8) (data : Bytes) :
    (s.withChunk capacity chunk data).1 = .error .notSupported
      ∨ ∃ staged, s.withChunk capacity chunk data = (.ok (), staged) := by
  unfold withChunk
  dsimp only
  split
  · exact .inl rfl
  · exact .inr ⟨_, rfl⟩

theorem atomic_withChunk (s : Staged) (capacity : Nat) (chunk : UInt8) (data : Bytes) :
    Atomic s (s.withChunk capacity chunk data) := by
  unfold withChunk
  dsimp only
  split
  · exact .of_error _ s
  · exact .of_ok () s _

end Staged

namespace Token

variable {P : Answer × Token → Prop}

/-! ## §2. Guards. -/

theorem tell_ok {t : Token} {payload : Except LibraryError Payload} {told : Payload}
    (h : payload = .ok told) : t.tell payload = (.ok told, t) := by
  rw [tell, h]
  rfl

theorem tell_error {t : Token} {payload : Except LibraryError Payload} {why : LibraryError}
    (h : payload = .error why) : t.tell payload = t.refuse .unknown := by
  rw [tell, h]
  rfl

theorem withTemp_rule {t : Token} {role : Role} {temp : Secret} {next : Answer × Token}
    (hrefuse : t.session.admits role temp.bytes = false → P (t.refuse .notAuthorized))
    (hnext : t.session.admits role temp.bytes = true → P next) :
    P (t.withTemp role temp next) := by
  unfold withTemp
  split
  · next h => exact hnext h
  · next h => exact hrefuse (Bool.not_eq_true _ ▸ h)

theorem withSafe_rule {t : Token} {next : Answer × Token}
    (hrefuse : t.safeEnabled = false → P (t.refuse .notAuthorized))
    (hnext : t.safeEnabled = true → P next) : P (t.withSafe next) := by
  unfold withSafe
  split
  · next h => exact hnext h
  · next h => exact hrefuse (Bool.not_eq_true _ ▸ h)

theorem withSlot_rule {t : Token} {number : UInt8} {next : CodeKind → UInt8 → Answer × Token}
    (hrefuse : CodeKind.ofSlotNumber? number = none → P (t.refuse .wrongSlot))
    (hnext : ∀ kind index, CodeKind.ofSlotNumber? number = some (kind, index) →
      P (next kind index)) : P (t.withSlot number next) := by
  unfold withSlot
  split
  · next kind index h => exact hnext kind index h
  · next h => exact hrefuse h

/-! ## §3. PINs. -/

/-- A PIN that was wrong has been tried, and so has one that was right. -/
theorem withPin_rule {t : Token} {role : Role} {k : Credential} {pin : Secret}
    {next : Token → Answer × Token} (hk : t.session.credential? role = some k)
    (hwrong : k.accepts pin.bytes = false →
      P (refuse { t with session := t.session.update role (k.tried pin.bytes) } .wrongPassword))
    (hright : k.accepts pin.bytes = true →
      P (next { t with session := t.session.update role (k.tried pin.bytes) })) :
    P (t.withPin role pin next) := by
  unfold withPin Session.verifyPin
  rw [hk]
  dsimp only
  cases h : k.accepts pin.bytes with
  | false => exact hwrong h
  | true => exact hright h

theorem login_rule {t : Token} {role : Role} {k : Credential} {pin temp : Secret}
    (hk : t.session.credential? role = some k)
    (hwrong : k.accepts pin.bytes = false →
      P (refuse { t with session := t.session.update role (k.loggedIn pin.bytes temp) }
        .wrongPassword))
    (hright : k.accepts pin.bytes = true →
      P (done { t with session := t.session.update role (k.loggedIn pin.bytes temp) })) :
    P (t.settle (t.session.login role pin.bytes temp)) := by
  unfold settle Session.login
  rw [hk]
  dsimp only
  cases h : k.accepts pin.bytes with
  | false => exact hwrong h
  | true => exact hright h

/-- A new PIN that is too short is refused after the right old one has
counted. -/
theorem changePin_rule {t : Token} {role : Role} {k : Credential} {old new : Secret}
    {minimum : Nat} {failure : Status} (hk : t.session.credential? role = some k)
    (hrule : role.pinRule? = some (minimum, failure))
    (hwrong : k.accepts old.bytes = false →
      P (refuse { t with session := t.session.update role (k.tried old.bytes) } .wrongPassword))
    (hshort : k.accepts old.bytes = true →
      P (refuse { t with session := t.session.update role (k.tried old.bytes) } failure))
    (hdone : k.accepts old.bytes = true →
      P (done { t with
        session := t.session.update role { k.tried old.bytes with pin := new } })) :
    P (t.settle (t.session.changePin role old.bytes new)) := by
  unfold settle Session.changePin
  rw [hk, hrule]
  dsimp only
  cases h : k.accepts old.bytes with
  | false => exact hwrong h
  | true =>
    rw [if_pos rfl]
    -- the new PIN is looked at only now
    split
    · exact hshort h
    · exact hdone h

theorem unlockUser_rule {t : Token} {adminPin newUserPin : Secret}
    (hwrong : t.session.admin.accepts adminPin.bytes = false →
      P (refuse { t with session := t.session.update .admin (t.session.admin.tried adminPin.bytes) }
        .wrongPassword))
    (hshort : t.session.admin.accepts adminPin.bytes = true →
      P (refuse { t with session := t.session.update .admin (t.session.admin.tried adminPin.bytes) }
        .userPinNotUnblocked))
    (hdone : t.session.admin.accepts adminPin.bytes = true →
      P (done { t with
        session := ⟨t.session.admin.tried adminPin.bytes, .fresh newUserPin⟩ })) :
    P (t.settle (t.session.unlockUser adminPin.bytes newUserPin)) := by
  -- an unlock tries the admin's PIN as every other command does
  have hv : t.session.verifyPin .admin adminPin.bytes
      = (if t.session.admin.accepts adminPin.bytes then .ok () else .error .wrongPassword,
          t.session.update .admin (t.session.admin.tried adminPin.bytes)) := rfl
  unfold settle Session.unlockUser
  rw [hv]
  cases h : t.session.admin.accepts adminPin.bytes with
  | false => exact hwrong h
  | true =>
    rw [if_pos rfl]
    dsimp only
    split
    · exact hshort h
    · exact hdone h

/-! ## §4. Code slots. -/

theorem stage_rule {t : Token} {kind : DataKind} {chunk : UInt8} {data : Bytes}
    (hrefuse : P (t.refuse .notSupported))
    (hname : kind = .name → data.length ≤ nameWidth →
      P (done { t with staged := .withName (Utf8.decodeLossy data) }))
    (hsecret : ∀ staged, kind = .secret →
      t.staged.withChunk t.capabilities.secretLength chunk data = (.ok (), staged) →
      P (done { t with staged })) : P (t.stage kind chunk data) := by
  unfold stage
  split
  · split
    · exact hrefuse
    · next h => exact hname rfl (Nat.not_lt.mp h)
  · have hatomic := t.staged.atomic_withChunk t.capabilities.secretLength chunk data
    dsimp only
    rcases t.staged.withChunk_cases t.capabilities.secretLength chunk data with h | ⟨staged, h⟩
    · rw [hatomic.eq_of_error h]
      exact hrefuse
    · rw [h]
      exact hsecret staged rfl h

/-- However a write ends, nothing is staged afterwards. -/
theorem writeStaged_rule {t : Token} {number : UInt8} {counter : UInt64} {flags : SlotFlags}
    {tokenId : String}
    (hrefuse : ∀ status ∈ Status.refusals,
      P (refuse { t with staged := .empty } status))
    (hdone : ∀ kind index name previous secret,
      CodeKind.ofSlotNumber? number = some (kind, index) → t.staged.name = some name →
      ¬ (kind = .totp ∧ counter = 0) → t.store.codes.get? kind index = some previous →
      (t.staged.secret.map Secret.mk <|> previous.map CodeSlot.secret) = some secret →
      P (done { t with
        staged := .empty
        store := { t.store with
          codes := t.store.codes.set kind index
            (some ⟨⟨name, flags, tokenId, counter⟩, secret⟩) } })) :
    P (t.writeStaged number counter flags tokenId) := by
  unfold writeStaged
  refine withSlot_rule (fun _ => hrefuse _ (by decide)) fun kind index hnumber => ?_
  split
  · -- without a name the store is not looked at
    exact hrefuse _ (by decide)
  · next name hname =>
    rcases t.store.writeCode_cases kind index
      ⟨⟨name, flags, tokenId, counter⟩, t.staged.secret.map Secret.mk⟩ with
      ⟨status, hs, h⟩ | ⟨previous, secret, hperiod, hprevious, hsecret, h⟩
    · rw [(t.store.atomic_writeCode kind index _).eq_of_error h]
      exact hrefuse status hs
    · rw [h]
      exact hdone kind index name previous secret hnumber hname hperiod hprevious hsecret

theorem tellSlot_rule {t : Token} {number : UInt8}
    {payload : CodeSlot → Except LibraryError Payload}
    (hrefuse : ∀ status ∈ Status.refusals, P (t.refuse status))
    (hdone : ∀ kind index slot told, CodeKind.ofSlotNumber? number = some (kind, index) →
      t.store.codes.get? kind index = some (some slot) → payload slot = .ok told →
      P (.ok told, t)) : P (t.tellSlot number payload) := by
  unfold tellSlot
  refine withSlot_rule (fun _ => hrefuse _ (by decide)) fun kind index hnumber => ?_
  rcases t.store.code_cases kind index with ⟨status, hs, h⟩ | ⟨slot, hslot, h⟩
  · rw [h]
    exact hrefuse status hs
  · rw [h]
    dsimp only
    cases hp : payload slot with
    | error why =>
      -- a payload that cannot be laid out is refused like anything else
      rw [tell_error rfl]
      exact hrefuse _ (by decide)
    | ok told =>
      rw [tell_ok rfl]
      exact hdone kind index slot told hnumber hslot hp

/-- A counter moves on exactly together with the code that is given for
it; a time code changes nothing. -/
theorem giveCode_rule {t : Token} {number : UInt8}
    (hrefuse : ∀ status ∈ Status.refusals,
      P (t.refuse status))
    (hhotp : ∀ index slot code told,
      CodeKind.ofSlotNumber? number = some (.hotp, index) →
      t.store.codes.get? .hotp index = some (some slot) →
      slot.details.counter < t.encoding.maximum →
      codeValue slot.secret.bytes slot.details.counter slot.details.flags.digits = .ok code →
      CodeRecord.encode ⟨code, slot.details.flags⟩ = .ok told →
      P (.ok told, { t with store := { t.store with
        codes := t.store.codes.set .hotp index (some { slot with
          details := { slot.details with counter := slot.details.counter + 1 } }) } }))
    (htotp : ∀ index slot step code told,
      CodeKind.ofSlotNumber? number = some (.totp, index) →
      t.store.codes.get? .totp index = some (some slot) →
      slot.details.counter.toNat < UInt32.size →
      timeStep t.clock slot.details.counter.toUInt32 = .ok step →
      codeValue slot.secret.bytes step slot.details.flags.digits = .ok code →
      CodeRecord.encode ⟨code, slot.details.flags⟩ = .ok told →
      P (.ok told, t)) : P (t.giveCode number) := by
  unfold giveCode
  refine withSlot_rule (fun _ => hrefuse _ (by decide)) fun kind index hnumber => ?_
  cases kind with
  | hotp =>
    dsimp only
    rcases t.store.nextHotp_cases index t.encoding.maximum with
      ⟨status, hs, h⟩ | ⟨slot, code, hslot, hmax, hcode, h⟩
    · rw [(t.store.atomic_nextHotp index t.encoding.maximum).eq_of_error h]
      exact hrefuse status hs
    · -- the record always fits, so no counter moves without its code
      rw [h]
      obtain ⟨told, htold⟩ := CodeRecord.encode_code ⟨code, slot.details.flags⟩
      dsimp only
      rw [tell_ok htold]
      exact hhotp index slot code told hnumber hslot hmax hcode htold
  | totp =>
    dsimp only
    rcases t.store.totp_cases index t.clock with
      ⟨status, hs, h⟩ | ⟨slot, step, code, hslot, hperiod, hstep, hcode, h⟩
    · rw [h]
      exact hrefuse status hs
    · rw [h]
      obtain ⟨told, htold⟩ := CodeRecord.encode_code ⟨code, slot.details.flags⟩
      dsimp only
      rw [tell_ok htold]
      exact htotp index slot step code told hnumber hslot hperiod hstep hcode htold

/-! ## §5. Password Safe. -/

theorem tellSafe_rule {t : Token} {index : UInt8} {label : String} {width : Nat}
    {field : SafeEntry → Bytes} (hclosed : t.safeEnabled = false → P (t.refuse .notAuthorized))
    (hrefuse : t.safeEnabled = true → ∀ status ∈ Status.refusals,
      P (t.refuse status))
    (hdone : t.safeEnabled = true → ∀ told, P (.ok told, t)) :
    P (t.tellSafe index label width field) := by
  unfold tellSafe
  refine withSafe_rule hclosed fun hopen => ?_
  split
  · next status h =>
    unfold Store.safeEntry at h
    split at h
    · cases h
      exact hrefuse hopen _ (by decide)
    · cases h
  · next entry h =>
    cases hp : Payload.ofBytes label width ((entry.map field).getD []) with
    | error why =>
      rw [tell_error rfl]
      exact hrefuse hopen _ (by decide)
    | ok told =>
      rw [tell_ok rfl]
      exact hdone hopen told

/-- A change of a Password Safe slot that is made or refused as a whole. -/
theorem changeSafe_rule {t : Token} {index : UInt8} {next : Option SafeEntry → Option SafeEntry}
    (hclosed : t.safeEnabled = false → P (t.refuse .notAuthorized))
    (hrefuse : t.safeEnabled = true → P (t.refuse .wrongSlot))
    (hdone : t.safeEnabled = true → ∀ safe, P (done { t with store := { t.store with safe } })) :
    P (t.withSafe (t.commit (t.store.updateSafe index next))) := by
  refine withSafe_rule hclosed fun hopen => ?_
  rcases t.store.updateSafe_cases index next with h | ⟨safe, h⟩
  · rw [(t.store.atomic_updateSafe index next).eq_of_error h]
    exact hrefuse hopen
  · rw [h]
    exact hdone hopen safe

end Token

end OtpToken
