/-
  OtpToken.Proofs.Token.Tellable
  ──────────────────────────────
  **A TOKEN CAN TELL EVERYTHING THAT A HOST HAS STORED ON IT.**

  Five statuses are there for what should not happen (`Status.internal`):

      wrongCrc         a request was changed on its way
      unknownCommand   nothing is known of its command byte
      wrongSlot        it names a slot that does not exist
      unknown          what is stored does not fit the record that tells it, or
                       no code can be made of it
      busy             never told by a token that answers at once

  A host names only slots that exist and sends texts as texts
  (`Command.Plain`), and what it sends fits its fields (`Command.Fits`).  What
  such commands store can be told again (`Token.Tellable`): every field on the
  way back is as wide as the one on the way in.  So they keep a token tellable
  (`Tellable.execute`), and on a sound and tellable token none of them ends with
  one of the five (`expected_execute`).
-/
import OtpToken.Proofs.Record
import OtpToken.Proofs.Token.Place
import OtpToken.Proofs.Token.Sound

namespace OtpToken

/-! ## §1. What should not happen. -/

/-- The statuses for what should not happen. -/
def Status.internal : List Status := [.wrongCrc, .wrongSlot, .unknownCommand, .unknown, .busy]

/-- The answer is a payload, or it has another status. -/
def Answer.Expected (a : Answer) : Prop := a.status ∉ Status.internal

/-- A command as a host makes it: its slot exists, a name is a text, and a
period has sixteen bits. -/
def Command.Plain : Command → Prop
  | sendOtpData _ .name _ data => ∃ name, data = .ofText name
  | writeToSlot _ number counter _ _ =>
      ∃ kind index, CodeKind.ofSlotNumber? number = some (kind, index)
        ∧ (kind = .totp → counter.toNat < UInt16.size)
  | readSlotName number | readSlot number | getCode number .. | eraseSlot number _ =>
      ∃ kind index, CodeKind.ofSlotNumber? number = some (kind, index)
  | safeName index | safePassword index | safeLogin index | setSafePrimary index ..
  | setSafeLogin index _ | eraseSafe index => SlotFamily.safe.holds index = true
  | _ => True

/-- A text that is cut on its way is a text. -/
theorem Secret.untilNul_ofText (text : String) :
    (ofText text).untilNul = ofText (Utf8.untilNul text) :=
  congrArg Secret.mk (Utf8.untilNul_encode text)

theorem Command.Plain.norm {c : Command} (h : c.Plain) : c.norm.Plain := by
  cases c with
  | sendOtpData adminTemp kind chunk data =>
    cases kind with
    | name =>
      obtain ⟨name, rfl⟩ := h
      exact ⟨Utf8.untilNul name, Secret.untilNul_ofText name⟩
    | secret => trivial
  | _ => exact h

/-! ## §2. What can be told. -/

/-- What is kept in a code slot fits the fields that it is told in. -/
structure CodeSlot.Tellable (kind : CodeKind) (slot : CodeSlot) : Prop where
  name : (Utf8.encode slot.details.name).length ≤ nameWidth
  tokenId : (Utf8.encode slot.details.tokenId).length ≤ tokenIdWidth
  period : kind = .totp → slot.details.counter.toNat < UInt16.size

/-- What is kept in a Password Safe slot fits the fields that it is told in. -/
structure SafeEntry.Tellable (entry : SafeEntry) : Prop where
  name : (Utf8.encode entry.name).length ≤ safeNameWidth
  login : (Utf8.encode entry.login).length ≤ safeLoginWidth
  password : entry.password.bytes.length ≤ safePasswordWidth

/-- Everything that is stored can be told, and so can what is staged. -/
structure Token.Tellable (t : Token) : Prop where
  slots : ∀ kind index slot, t.store.codes.at? kind index = some slot → slot.Tellable kind
  entries : ∀ index entry, t.store.safe? index = some entry → entry.Tellable
  staged : ∀ name, t.staged.name = some name → (Utf8.encode name).length ≤ nameWidth

theorem SafeEntry.tellable_blank : blank.Tellable :=
  ⟨Nat.zero_le _, Nat.zero_le _, Nat.zero_le _⟩

/-- An empty slot is told as blanks. -/
theorem Token.Tellable.safeAt {t : Token} (h : t.Tellable) (index : UInt8) :
    (t.store.safeAt index).Tellable := by
  unfold Store.safeAt
  cases hentry : t.store.safe? index with
  | none => exact SafeEntry.tellable_blank
  | some entry => exact h.entries index entry hentry

theorem Token.tellable_fresh (config : TokenConfig) : (fresh config).Tellable where
  slots _ _ _ h := by cases CodeTable.at?_empty.symm.trans h
  entries index _ h := by cases (Store.safe?_empty index).symm.trans h
  staged _ h := by cases h

/-! ## §3. What commands store. -/

/-- A piece of a secret leaves the name, also a piece that is refused. -/
theorem Staged.name_withChunk (s : Staged) (capacity : Nat) (chunk : UInt8) (data : Bytes) :
    (s.withChunk capacity chunk data).2.name = s.name := by
  unfold withChunk
  dsimp only
  split
  · rfl
  · rfl

/-- What is in a Password Safe slot was in it before, or the command has
written one part of it. -/
theorem Command.entry_storeAfter {c : Command} {keeps : Bool} {s : Store} {index : UInt8}
    {entry : SafeEntry} (h : (c.storeAfter keeps s).safe? index = some entry) :
    s.safe? index = some entry
      ∨ (∃ name password, c = .setSafePrimary index name password
          ∧ entry = { s.safeAt index with name, password })
      ∨ ∃ login, c = .setSafeLogin index login ∧ entry = { s.safeAt index with login } := by
  have hspares : c.id.sparesSafe keeps = true → s.safe? index = some entry := by
    intro hspares
    unfold Store.safe? at h ⊢
    rwa [safe_storeAfter hspares] at h
  cases c with
  | setSafePrimary number name password =>
    rcases s.of_safe?_putSafe h with ⟨rfl, hentry⟩ | hkept
    · exact .inr (.inl ⟨name, password, rfl, (Option.some.inj hentry).symm⟩)
    · exact .inl hkept
  | setSafeLogin number login =>
    rcases s.of_safe?_putSafe h with ⟨rfl, hentry⟩ | hkept
    · exact .inr (.inr ⟨login, rfl, (Option.some.inj hentry).symm⟩)
    · exact .inl hkept
  | eraseSafe number =>
    rcases s.of_safe?_putSafe h with ⟨-, hnone⟩ | hkept
    · cases hnone
    · exact .inl hkept
  | factoryReset pin => cases (Store.safe?_empty index).symm.trans h
  | newAesKey pin =>
    cases keeps with
    | true => exact .inl (hspares rfl)
    | false => cases (s.safe?_clearSafe index).symm.trans h
  | _ => exact .inl (hspares rfl)

namespace Token

variable {t t' : Token} {c : Command}

/-- A name that was taken was short enough. -/
theorem length_of_sendName {temp data : Secret} {chunk : UInt8} {payload : Payload}
    (h : t.execute (.sendOtpData temp .name chunk data) = (.ok payload, t')) :
    data.bytes.length ≤ nameWidth := by
  have h : t.stage .name chunk data.bytes = (.ok payload, t') := of_withTemp_ok h
  revert h
  refine stage_rule (P := fun r => r = (.ok payload, t') → _) ?_ ?_ ?_
  · intro h
    cases h
  · intro _ hlen _
    exact hlen
  · intro staged hkind
    cases hkind

/-- **Where the contents of a Password Safe slot come from.** -/
inductive EntryStep (t : Token) (c : Command) (index : UInt8) : SafeEntry → Prop
  | kept {entry : SafeEntry} (hkept : t.store.safe? index = some entry) : EntryStep t c index entry
  | primary {name : String} {password : Secret} (hc : c = .setSafePrimary index name password) :
      EntryStep t c index { t.store.safeAt index with name, password }
  | login {login : String} (hc : c = .setSafeLogin index login) :
      EntryStep t c index { t.store.safeAt index with login }

theorem entry_execute {index : UInt8} {entry : SafeEntry}
    (h : (t.execute c).2.store.safe? index = some entry) : t.EntryStep c index entry := by
  have heffect := effect_execute t c
  cases hr : t.execute c with
  | mk answer t' =>
    rw [hr] at h heffect
    cases answer with
    | error status =>
      have hstore : t'.store = t.store := heffect.store_of_refused
      have h : t'.store.safe? index = some entry := h
      rw [hstore] at h
      exact .kept h
    | ok payload =>
      by_cases hwrite : c.id = .writeToSlot
      · cases c with
        | writeToSlot temp number counter flags tokenId =>
          obtain ⟨kind, place, name, previous, secret, -, -, -, -, rfl⟩ :=
            heffect.of_writeToSlot_ok
          exact .kept h
        | _ => cases hwrite
      · have hstore := store_of_done hr hwrite
        have h : t'.store.safe? index = some entry := h
        rw [hstore] at h
        rcases Command.entry_storeAfter h with hkept | ⟨name, password, hc, rfl⟩ | ⟨login, hc, rfl⟩
        · exact .kept hkept
        · exact .primary hc
        · exact .login hc

/-- **A staged name was staged before, or it was read in the bytes of this
command.** -/
theorem staged_execute {name : String} (h : (t.execute c).2.staged.name = some name) :
    t.staged.name = some name
      ∨ ∃ temp chunk data, c = .sendOtpData temp .name chunk data
          ∧ name = Utf8.decodeLossy data.bytes ∧ data.bytes.length ≤ nameWidth
          ∧ (t.execute c).1.status = .ok := by
  have heffect := effect_execute t c
  have hshort : ∀ temp chunk data payload t', c = .sendOtpData temp .name chunk data →
      t.execute c = (.ok payload, t') → data.bytes.length ≤ nameWidth := by
    rintro temp chunk data payload t' rfl hdone
    exact length_of_sendName hdone
  generalize t.execute c = r at h heffect hshort
  cases heffect with
  | @staged temp data kind chunk _ _ hnext =>
    cases kind with
    | name =>
      rw [show (_ : Staged) = _ from hnext] at h
      exact .inr ⟨temp, chunk, data, rfl, (Option.some.inj h).symm, hshort _ _ _ _ _ rfl rfl, rfl⟩
    | secret =>
      have hname := t.staged.name_withChunk t.capabilities.secretLength chunk data.bytes
      rw [show Staged.withChunk _ _ _ _ = _ from hnext] at hname
      exact .inl (hname.symm.trans h)
  | unwritten _ _ => cases h
  | written _ _ _ _ _ _ => cases h
  | reset _ => cases h
  | _ => exact .inl h

namespace Tellable

/-- What is in a Password Safe slot after a command that fits can be told. -/
theorem entry_execute (h : t.Tellable) (hfits : c.Fits t.encoding) {index : UInt8}
    {entry : SafeEntry} (hentry : (t.execute c).2.store.safe? index = some entry) :
    entry.Tellable := by
  cases Token.entry_execute hentry with
  | kept hkept => exact h.entries index entry hkept
  | primary hc =>
    subst hc
    obtain ⟨hname, hpassword⟩ := List.forall_mem_cons.mp hfits.1
    exact ⟨hname, (h.safeAt index).login, hpassword _ List.mem_cons_self⟩
  | login hc =>
    subst hc
    exact ⟨(h.safeAt index).name, hfits.1 _ List.mem_cons_self, (h.safeAt index).password⟩

/-- What is in a code slot after such a command can be told. -/
theorem slot_execute (h : t.Tellable) (hplain : c.Plain) (hfits : c.Fits t.encoding)
    {kind : CodeKind} {index : UInt8} {slot : CodeSlot}
    (hslot : (t.execute c).2.store.codes.at? kind index = some slot) : slot.Tellable kind := by
  cases Token.slot_execute hslot with
  | kept hkept => exact h.slots kind index slot hkept
  | counted hkind hprevious =>
    obtain ⟨hname, hid, -⟩ := h.slots kind index _ hprevious
    refine ⟨hname, hid, fun htotp => ?_⟩
    cases hkind.symm.trans htotp
  | @written temp secret number counter flags tokenId name hc hnumber hname =>
    subst hc
    obtain ⟨kind', index', hnumber', hperiod⟩ := hplain
    cases hnumber.symm.trans hnumber'
    have hid : (Utf8.encode tokenId).length ≤ tokenIdWidth :=
      hfits.1 ⟨Utf8.encode tokenId, 13, true⟩ (List.mem_cons_of_mem _ List.mem_cons_self)
    exact ⟨h.staged name hname, hid, hperiod⟩

/-- So can the name that is staged. -/
theorem staged_execute (h : t.Tellable) (hplain : c.Plain) {name : String}
    (hname : (t.execute c).2.staged.name = some name) :
    (Utf8.encode name).length ≤ nameWidth := by
  rcases Token.staged_execute hname with hkept | ⟨temp, chunk, data, rfl, rfl, hlength, -⟩
  · exact h.staged name hkept
  · -- a text that arrives as bytes is the same text
    obtain ⟨text, rfl⟩ := hplain
    show (Utf8.encode (Utf8.decodeLossy (Utf8.encode text))).length ≤ nameWidth
    rw [Utf8.decodeLossy_encode]
    exact hlength

/-- **A command of a host keeps a token tellable**, however it ends. -/
theorem execute (h : t.Tellable) (hplain : c.Plain) (hfits : c.Fits t.encoding) :
    (t.execute c).2.Tellable where
  slots _ _ _ hslot := h.slot_execute hplain hfits hslot
  entries _ _ hentry := h.entry_execute hfits hentry
  staged _ hname := h.staged_execute hplain hname

end Tellable

end Token

/-! ## §4. Records that fit. -/

/-- A period can be written, whichever way the token writes counters. -/
theorem CounterEncoding.le_maximum_of_period {encoding : CounterEncoding} {counter : UInt64}
    (h : counter.toNat < UInt16.size) : counter ≤ encoding.maximum := by
  refine CounterEncoding.le_maximum_iff.mpr fun _ => ?_
  have hperiod : counter.toNat < 65536 := h
  rw [UInt64.le_iff_toNat_le]
  show counter.toNat ≤ 99999999
  omega

/-- **The details of a slot have a record.** -/
theorem CodeSlot.exists_encode {capabilities : Capabilities} {kind : CodeKind} {slot : CodeSlot}
    (hsound : slot.Sound capabilities kind) (h : slot.Tellable kind) :
    ∃ payload, slot.details.encode capabilities.encoding = .ok payload := by
  refine SlotDetails.exists_encode_iff.mpr ⟨h.name, h.tokenId, ?_⟩
  cases kind with
  | hotp => exact hsound.counter rfl
  | totp => exact CounterEncoding.le_maximum_of_period (h.period rfl)

/-- A secret that is not empty has codes. -/
theorem exists_codeValue {secret : Bytes} (h : secret ≠ []) (counter : UInt64) (digits : Digits) :
    ∃ code, codeValue secret counter digits = .ok code :=
  ⟨_, codeValue_of_ne_nil h counter digits⟩

/-- A stored secret is not empty. -/
theorem CodeSlot.Sound.secret_ne_nil {capabilities : Capabilities} {kind : CodeKind}
    {slot : CodeSlot} (h : slot.Sound capabilities kind) : slot.secret.bytes ≠ [] := by
  intro hempty
  have hlength : slot.secret.bytes.length = capabilities.secretLength := h.secret
  rw [hempty] at hlength
  unfold Capabilities.secretLength at hlength
  split at hlength
  · cases hlength
  · cases hlength

/-! ## §5. What a token answers a host. -/

theorem Store.code_of_holds {kind : CodeKind} {index : UInt8} (s : Store)
    (h : (SlotFamily.code kind).holds index = true) :
    s.code kind index = .error .notProgrammed
      ∨ ∃ slot, s.codes.at? kind index = some slot ∧ s.code kind index = .ok slot := by
  obtain ⟨contents, hget⟩ := Option.isSome_iff_exists.mp (CodeTable.isSome_get?_iff.mpr h)
  unfold code CodeTable.at?
  rw [hget]
  cases contents with
  | none => exact .inl rfl
  | some slot => exact .inr ⟨slot, rfl, rfl⟩

/-- A write to a slot that exists is refused for its name, its period or a
secret that is missing. -/
theorem Store.writeCode_of_holds {kind : CodeKind} {index : UInt8} {s : Store} {w : CodeWrite}
    {status : Status} (h : (SlotFamily.code kind).holds index = true)
    (hrefused : (s.writeCode kind index w).1 = .error status) : status ∉ Status.internal := by
  obtain ⟨previous, hget⟩ := Option.isSome_iff_exists.mp (CodeTable.isSome_get?_iff.mpr h)
  unfold writeCode at hrefused
  rw [hget] at hrefused
  dsimp only at hrefused
  split at hrefused
  · cases hrefused
    decide
  split at hrefused
  · cases hrefused
    decide
  split at hrefused
  · cases hrefused
    decide
  · cases hrefused

namespace Token

variable {t : Token} {number index : UInt8} {kind : CodeKind}

theorem expected_ok (payload : Payload) : Answer.Expected (.ok payload) := by
  show Status.ok ∉ Status.internal
  decide

theorem expected_refuse (t : Token) {status : Status} (h : status ∉ Status.internal) :
    (t.refuse status).1.Expected := h

theorem expected_tell {payload : Except LibraryError Payload}
    (h : ∃ told, payload = .ok told) : (t.tell payload).1.Expected := by
  obtain ⟨told, htold⟩ := h
  rw [tell_ok htold]
  exact expected_ok told

theorem expected_commit {step : Except Status Unit × Store}
    (h : ∀ status, step.1 = .error status → status ∉ Status.internal) :
    (t.commit step).1.Expected := by
  obtain ⟨status | _, store⟩ := step
  · exact expected_refuse { t with store } (h status rfl)
  · exact expected_ok _

theorem expected_withTemp {role : Role} {temp : Secret} {next : Answer × Token}
    (h : next.1.Expected) : (t.withTemp role temp next).1.Expected :=
  withTemp_rule (P := fun r => r.1.Expected) (fun _ => t.expected_refuse (by decide)) fun _ => h

theorem expected_withSafe {next : Answer × Token} (h : next.1.Expected) :
    (t.withSafe next).1.Expected :=
  withSafe_rule (P := fun r => r.1.Expected) (fun _ => t.expected_refuse (by decide)) fun _ => h

theorem withSlot_of_number (hnumber : CodeKind.ofSlotNumber? number = some (kind, index))
    (next : CodeKind → UInt8 → Answer × Token) : t.withSlot number next = next kind index := by
  unfold withSlot
  rw [hnumber]

theorem expected_writeStaged {counter : UInt64} {flags : SlotFlags} {tokenId : String}
    (hnumber : CodeKind.ofSlotNumber? number = some (kind, index)) :
    (t.writeStaged number counter flags tokenId).1.Expected := by
  unfold writeStaged
  dsimp only
  rw [withSlot_of_number hnumber]
  split
  · exact expected_refuse _ (by decide)
  · exact expected_commit fun _ =>
      Store.writeCode_of_holds (CodeKind.holds_of_ofSlotNumber? hnumber)

theorem expected_tellSlot {payload : CodeSlot → Except LibraryError Payload}
    (hnumber : CodeKind.ofSlotNumber? number = some (kind, index))
    (h : ∀ slot, t.store.codes.at? kind index = some slot → ∃ told, payload slot = .ok told) :
    (t.tellSlot number payload).1.Expected := by
  unfold tellSlot
  rw [withSlot_of_number hnumber]
  rcases t.store.code_of_holds (CodeKind.holds_of_ofSlotNumber? hnumber) with
    hcode | ⟨slot, hslot, hcode⟩
  · rw [hcode]
    exact expected_refuse t (by decide)
  · rw [hcode]
    exact expected_tell (h slot hslot)

/-- The next code of a slot: only an empty slot or an exhausted counter is
refused. -/
theorem expected_hotp (hsound : t.Sound)
    (hnumber : CodeKind.ofSlotNumber? number = some (.hotp, index)) :
    (t.giveCode number).1.Expected := by
  unfold giveCode
  rw [withSlot_of_number hnumber]
  dsimp only
  unfold Store.nextHotp
  rcases t.store.code_of_holds (CodeKind.holds_of_ofSlotNumber? hnumber) with
    hcode | ⟨slot, hslot, hcode⟩
  · rw [hcode]
    exact expected_refuse t (by decide)
  · rw [hcode]
    dsimp only
    by_cases hexhausted : t.encoding.maximum ≤ slot.details.counter
    · rw [if_pos hexhausted]
      exact expected_refuse t (by decide)
    · obtain ⟨code, hvalue⟩ := exists_codeValue (hsound.slots .hotp index slot hslot).secret_ne_nil
        slot.details.counter slot.details.flags.digits
      rw [if_neg hexhausted, hvalue]
      exact expected_tell (CodeRecord.encode_code _)

/-- The code of a slot now: only an empty slot is refused. -/
theorem expected_totp (hsound : t.Sound) (h : t.Tellable)
    (hnumber : CodeKind.ofSlotNumber? number = some (.totp, index)) :
    (t.giveCode number).1.Expected := by
  unfold giveCode
  rw [withSlot_of_number hnumber]
  dsimp only
  unfold Store.totp
  rcases t.store.code_of_holds (CodeKind.holds_of_ofSlotNumber? hnumber) with
    hcode | ⟨slot, hslot, hcode⟩
  · rw [hcode]
    exact expected_refuse t (by decide)
  · have hslotSound := hsound.slots .totp index slot hslot
    have hperiod : slot.details.counter.toNat < 65536 := (h.slots .totp index slot hslot).period rfl
    have hsmall : slot.details.counter.toNat < UInt32.size := by
      show _ < 4294967296
      omega
    have hstep : timeStep t.clock slot.details.counter.toUInt32 = .ok _ :=
      if_neg (toUInt32_ne_zero (hslotSound.period rfl) hsmall)
    obtain ⟨code, hvalue⟩ := exists_codeValue hslotSound.secret_ne_nil
      (t.clock / slot.details.counter.toUInt32.toUInt64) slot.details.flags.digits
    rw [hcode]
    dsimp only
    rw [if_neg (Nat.not_le.mpr hsmall), hstep]
    dsimp only [Except.bind]
    rw [hvalue]
    exact expected_tell (CodeRecord.encode_code _)

theorem expected_tellSafe {label : String} {width : Nat} {field : SafeEntry → Bytes}
    (hholds : SlotFamily.safe.holds index = true) (hroom : width ≤ 53)
    (h : ∀ entry, t.store.safe? index = some entry → (field entry).length ≤ width) :
    (t.tellSafe index label width field).1.Expected := by
  have hlt : index.toNat < safeCapacity := of_decide_eq_true hholds
  have hget : t.store.safe[index.toNat]? = some t.store.safe[index.toNat] :=
    Vector.getElem?_eq_getElem hlt
  have hsafe : t.store.safe? index = t.store.safe[index.toNat] := congrArg Option.join hget
  rw [hsafe] at h
  unfold tellSafe Store.safeEntry
  rw [hget]
  refine expected_withSafe (expected_tell (Payload.exists_ofBytes ?_ hroom))
  generalize t.store.safe[index.toNat] = contents at h
  cases contents with
  | none => exact Nat.zero_le _
  | some entry => exact h entry rfl

theorem expected_changeSafe (hholds : SlotFamily.safe.holds index = true)
    (next : Option SafeEntry → Option SafeEntry) :
    (t.withSafe (t.commit (t.store.updateSafe index next))).1.Expected := by
  have hlt : index.toNat < safeCapacity := of_decide_eq_true hholds
  rw [Store.updateSafe_of_some (Vector.getElem?_eq_getElem hlt)]
  exact expected_withSafe (expected_ok _)

/-- A command that tries a PIN ends with a status of its own. -/
theorem Effect.expected_of_check {c : Command} {r : Answer × Token} {x : Role × Secret}
    (h : t.Effect c r) (hcheck : c.check? = some x) : r.1.Expected := by
  have hfailures : ∀ status ∈ failures, status ∉ Status.internal := by decide
  cases h with
  | barred _ => exact expected_refuse t (by decide)
  | refused _ hnone _ => cases hnone.symm.trans hcheck
  | unwritten _ _ => cases hcheck
  | wrongPin _ _ _ => exact expected_refuse t (by decide)
  | failed _ _ _ _ hstatus => exact expected_refuse t (hfailures _ hstatus)
  | _ => exact expected_ok _

/-- **No command of a host ends with a status for what should not happen.** -/
theorem expected_execute (hsound : t.Sound) (h : t.Tellable) {c : Command} (hplain : c.Plain) :
    (t.execute c).1.Expected := by
  cases c with
  | getStatus =>
    obtain ⟨payload, hpayload, -⟩ := StatusRecord.exists_encode t.statusRecord
    exact expected_tell ⟨payload, hpayload⟩
  | getAdminRetryCount => exact expected_ok _
  | getUserRetryCount => exact expected_ok _
  | lockDevice => exact expected_ok _
  | writeConfig config temp => exact expected_withTemp (expected_ok _)
  | setTime reset time =>
    show (ite _ _ _ : Answer × Token).1.Expected
    split
    · exact expected_refuse t (by decide)
    · exact expected_ok _
  -- code slots
  | sendOtpData temp kind chunk data =>
    exact expected_withTemp (stage_rule (P := fun r => r.1.Expected)
      (t.expected_refuse (by decide)) (fun _ _ => expected_ok _) fun _ _ _ => expected_ok _)
  | writeToSlot temp number counter flags tokenId =>
    obtain ⟨kind, index, hnumber, -⟩ := hplain
    exact expected_withTemp (expected_writeStaged hnumber)
  | readSlotName number =>
    obtain ⟨kind, index, hnumber⟩ := hplain
    exact expected_tellSlot hnumber fun slot hslot =>
      Payload.exists_ofBytes (h.slots kind index slot hslot).name (by decide)
  | readSlot number =>
    obtain ⟨kind, index, hnumber⟩ := hplain
    exact expected_tellSlot hnumber fun slot hslot =>
      CodeSlot.exists_encode (hsound.slots kind index slot hslot) (h.slots kind index slot hslot)
  | getCode number challenge lastTime lastInterval temp =>
    obtain ⟨kind, index, hnumber⟩ := hplain
    have hgive : (t.giveCode number).1.Expected := by
      cases kind with
      | hotp => exact expected_hotp hsound hnumber
      | totp => exact expected_totp hsound h hnumber
    show (ite _ _ _ : Answer × Token).1.Expected
    split
    · exact expected_withTemp hgive
    · exact hgive
  | eraseSlot number temp =>
    obtain ⟨kind, index, hnumber⟩ := hplain
    have hholds := CodeKind.holds_of_ofSlotNumber? hnumber
    obtain ⟨contents, hget⟩ :=
      Option.isSome_iff_exists.mp (CodeTable.isSome_get?_iff (t := t.store.codes).mpr hholds)
    refine expected_withTemp ?_
    rw [withSlot_of_number hnumber]
    unfold Store.eraseCode
    rw [hget]
    exact expected_ok _
  -- the Password Safe
  | safeStatus => exact expected_withSafe (expected_ok _)
  | safeName index =>
    exact expected_tellSafe hplain (by decide) fun entry hentry =>
      (h.entries index entry hentry).name
  | safeLogin index =>
    exact expected_tellSafe hplain (by decide) fun entry hentry =>
      (h.entries index entry hentry).login
  | safePassword index =>
    exact expected_tellSafe hplain (by decide) fun entry hentry =>
      (h.entries index entry hentry).password
  | setSafePrimary index name password => exact expected_changeSafe hplain _
  | setSafeLogin index login => exact expected_changeSafe hplain _
  | eraseSafe index => exact expected_changeSafe hplain _
  -- logins, PINs and the AES key
  | _ => exact (effect_execute t _).expected_of_check rfl

end Token

end OtpToken
