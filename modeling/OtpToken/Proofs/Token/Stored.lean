/-
  OtpToken.Proofs.Token.Stored
  ────────────────────────────
  **WHAT IS STORED AFTER A COMMAND THAT WAS DONE.**

  A command that was done passed its guards, and each guard has one lemma that
  goes back from the outcome to what came after it.  `Command.storeAfter` says
  what is in the slots and in the config register then, from what was in them
  before; `store_of_done` says that it is so.  Only a write of a code slot is
  missing there, since it looks at what is staged.

  Most commands are quiet: slots, register and the state of the Password Safe
  stay the same, however the command ends (`same_of_quiet`).
-/
import OtpToken.Proofs.Token.Codes

namespace OtpToken

/-! ## §1. Changes of what is stored. -/

namespace CodeTable

variable {α : Type} {table : CodeTable α} {kind kind' : CodeKind} {index index' : UInt8}

/-- What is at a place once another was changed: it was put there, or it has
been there. -/
theorem of_at?_set {contents : Option α} {a : α}
    (h : (table.set kind index contents).at? kind' index' = some a) :
    (kind' = kind ∧ index' = index ∧ contents = some a)
      ∨ (kind' = kind → index' ≠ index) ∧ table.at? kind' index' = some a := by
  by_cases hplace : kind' = kind ∧ index' = index
  · obtain ⟨rfl, rfl⟩ := hplace
    have hget : (table.set kind' index' contents).get? kind' index' = some (some a) :=
      Option.join_eq_some_iff.mp h
    have hholds : (SlotFamily.code kind').holds index' = true := by
      rw [← isSome_get?_iff, hget]
      rfl
    rw [get?_set_self hholds] at hget
    exact .inl ⟨rfl, rfl, Option.some.inj hget⟩
  · have hother : kind' = kind → index' ≠ index := fun hk hi => hplace ⟨hk, hi⟩
    unfold at? at h
    rw [get?_set_of_ne hother] at h
    exact .inr ⟨hother, h⟩

theorem at?_set_self {contents : Option α} (h : (SlotFamily.code kind).holds index = true) :
    (table.set kind index contents).at? kind index = contents :=
  congrArg Option.join (get?_set_self h)

theorem at?_set_of_ne {contents : Option α} (h : kind' = kind → index' ≠ index) :
    (table.set kind index contents).at? kind' index' = table.at? kind' index' :=
  congrArg Option.join (get?_set_of_ne h)

/-- A change of one place is a change of this one, or leaves it alone. -/
theorem at?_set_or (table : CodeTable α) (kind kind' : CodeKind) (index index' : UInt8) :
    (kind' = kind ∧ index' = index) ∨ ∀ contents : Option α,
      (table.set kind index contents).at? kind' index' = table.at? kind' index' := by
  by_cases hplace : kind' = kind ∧ index' = index
  · exact .inl hplace
  · exact .inr fun contents => at?_set_of_ne fun hk hi => hplace ⟨hk, hi⟩

theorem holds_of_at? {a : α} (h : table.at? kind index = some a) :
    (SlotFamily.code kind).holds index = true := by
  have hget : table.get? kind index = some (some a) := Option.join_eq_some_iff.mp h
  rw [← isSome_get?_iff, hget]
  rfl

theorem at?_empty : (empty : CodeTable α).at? kind index = none := by
  unfold at?
  cases kind with
  | hotp =>
    show ((Vector.replicate 3 none)[index.toNat]?).join = none
    rw [Vector.getElem?_replicate]
    split
    · rfl
    · rfl
  | totp =>
    show ((Vector.replicate 15 none)[index.toNat]?).join = none
    rw [Vector.getElem?_replicate]
    split
    · rfl
    · rfl

end CodeTable

/-- The slot with its counter one further on. -/
def CodeSlot.counted (slot : CodeSlot) : CodeSlot :=
  { slot with details := { slot.details with counter := slot.details.counter + 1 } }

/-- A Password Safe slot before anything is in it. -/
def SafeEntry.blank : SafeEntry := ⟨"", "", ⟨[]⟩⟩

namespace Store

variable (s : Store)

/-- The store after the code slot of a number was emptied. -/
def erased (number : UInt8) : Store :=
  match CodeKind.ofSlotNumber? number with
  | some (kind, index) => { s with codes := s.codes.set kind index none }
  | none => s

/-- The store after a code of the slot of a number was given. -/
def used (number : UInt8) : Store :=
  match CodeKind.ofSlotNumber? number with
  | some (.hotp, index) =>
      { s with codes := s.codes.set .hotp index ((s.codes.at? .hotp index).map CodeSlot.counted) }
  | _ => s

section Numbered

variable {number index : UInt8} {kind : CodeKind}

theorem erased_of_number (h : CodeKind.ofSlotNumber? number = some (kind, index)) :
    s.erased number = { s with codes := s.codes.set kind index none } := by
  unfold erased
  rw [h]

theorem used_of_hotp (h : CodeKind.ofSlotNumber? number = some (.hotp, index)) :
    s.used number = { s with
      codes := s.codes.set .hotp index ((s.codes.at? .hotp index).map CodeSlot.counted) } := by
  unfold used
  rw [h]

theorem used_of_totp (h : CodeKind.ofSlotNumber? number = some (.totp, index)) :
    s.used number = s := by
  unfold used
  rw [h]

end Numbered

/-- What is in a Password Safe slot; nothing is past the end. -/
def safe? (index : UInt8) : Option SafeEntry := s.safe[index.toNat]?.join

/-- What is in a Password Safe slot, and blanks in an empty one. -/
def safeAt (index : UInt8) : SafeEntry := (s.safe? index).getD .blank

/-- The store with other contents in one Password Safe slot. -/
def putSafe (index : UInt8) (contents : Option SafeEntry) : Store :=
  { s with safe := s.safe.setIfInBounds index.toNat contents }

theorem safe?_putSafe_self {index : UInt8} {previous contents : Option SafeEntry}
    (h : s.safe[index.toNat]? = some previous) :
    (s.putSafe index contents).safe? index = contents := by
  obtain ⟨hlt, -⟩ := Vector.getElem?_eq_some_iff.mp h
  exact congrArg Option.join (Vector.getElem?_setIfInBounds_self_of_lt hlt)

/-- An emptied slot is empty, also past the end. -/
theorem safe?_putSafe_none (index : UInt8) : (s.putSafe index none).safe? index = none := by
  unfold safe? putSafe
  cases h : s.safe[index.toNat]? with
  | none =>
    have hout : safeCapacity ≤ index.toNat := Vector.getElem?_eq_none_iff.mp h
    rw [Vector.getElem?_eq_none_iff.mpr hout]
    rfl
  | some previous => exact s.safe?_putSafe_self h

/-- Changing one slot leaves every other slot as it was. -/
theorem safe?_putSafe_of_ne {index index' : UInt8} (contents : Option SafeEntry)
    (h : index ≠ index') : (s.putSafe index contents).safe? index' = s.safe? index' := by
  have hne : index.toNat ≠ index'.toNat := fun e => h (UInt8.toNat_inj.mp e)
  exact congrArg Option.join (Vector.getElem?_setIfInBounds_ne hne)

/-- What is in a slot once one was changed: it was put there, or it has been
there. -/
theorem of_safe?_putSafe {index index' : UInt8} {contents : Option SafeEntry} {entry : SafeEntry}
    (h : (s.putSafe index contents).safe? index' = some entry) :
    (index' = index ∧ contents = some entry) ∨ s.safe? index' = some entry := by
  by_cases hindex : index = index'
  · subst hindex
    cases hget : s.safe[index.toNat]? with
    | none =>
      -- nothing is put past the end
      have hout : safeCapacity ≤ index.toNat := Vector.getElem?_eq_none_iff.mp hget
      have hnone : (s.putSafe index contents).safe[index.toNat]? = none :=
        Vector.getElem?_eq_none_iff.mpr hout
      unfold safe? at h
      rw [hnone] at h
      cases h
    | some previous =>
      rw [s.safe?_putSafe_self hget] at h
      exact .inl ⟨rfl, h⟩
  · rw [s.safe?_putSafe_of_ne contents hindex] at h
    exact .inr h

theorem safe?_empty (index : UInt8) : empty.safe? index = none := by
  unfold safe? empty
  rw [Vector.getElem?_replicate]
  split
  · rfl
  · rfl

theorem safe?_clearSafe (s : Store) (index : UInt8) : s.clearSafe.safe? index = none :=
  safe?_empty index

end Store

/-! ## §2. Back through the guards. -/

namespace Token

variable {t t' : Token} {payload : Payload}

theorem of_withTemp_ok {role : Role} {temp : Secret} {next : Answer × Token}
    (h : t.withTemp role temp next = (.ok payload, t')) : next = (.ok payload, t') := by
  unfold withTemp at h
  split at h
  · exact h
  · cases h

theorem of_withPin_ok {role : Role} {pin : Secret} {next : Token → Answer × Token}
    (h : t.withPin role pin next = (.ok payload, t')) :
    ∃ session, next { t with session } = (.ok payload, t') := by
  unfold withPin at h
  split at h
  · exact ⟨_, h⟩
  · cases h

theorem of_withSafe_ok {next : Answer × Token} (h : t.withSafe next = (.ok payload, t')) :
    next = (.ok payload, t') := by
  unfold withSafe at h
  split at h
  · exact h
  · cases h

theorem of_withSlot_ok {number : UInt8} {next : CodeKind → UInt8 → Answer × Token}
    (h : t.withSlot number next = (.ok payload, t')) :
    ∃ kind index, CodeKind.ofSlotNumber? number = some (kind, index)
      ∧ next kind index = (.ok payload, t') := by
  unfold withSlot at h
  split at h
  · next kind index hnumber => exact ⟨kind, index, hnumber, h⟩
  · cases h

theorem of_tell_ok {told : Except LibraryError Payload} (h : t.tell told = (.ok payload, t')) :
    told = .ok payload ∧ t' = t := by
  cases told with
  | error why => cases h
  | ok payload' =>
    cases h
    exact ⟨rfl, rfl⟩

theorem of_commit_ok {step : Except Status Unit × Store}
    (h : t.commit step = (.ok payload, t')) :
    ∃ s, step = (.ok (), s) ∧ t' = { t with store := s } := by
  obtain ⟨status | _, s⟩ := step
  · cases h
  · cases h
    exact ⟨s, rfl, rfl⟩

theorem of_settle_ok {step : Session.Verdict × Session}
    (h : t.settle step = (.ok payload, t')) : ∃ session, t' = { t with session } := by
  have ht : (t.settle step).2 = t' := congrArg Prod.snd h
  exact ⟨step.2, ht.symm⟩

/-- What was told of a code slot is what was asked about the slot. -/
theorem of_tellSlot_ok {number : UInt8} {told : CodeSlot → Except LibraryError Payload}
    (h : t.tellSlot number told = (.ok payload, t')) :
    t' = t ∧ ∃ kind index slot, CodeKind.ofSlotNumber? number = some (kind, index)
      ∧ t.store.codes.get? kind index = some (some slot) ∧ told slot = .ok payload := by
  obtain ⟨kind, index, hnumber, h⟩ := of_withSlot_ok h
  rcases t.store.code_cases kind index with ⟨status, -, hcode⟩ | ⟨slot, hslot, hcode⟩
  · rw [hcode] at h
    cases h
  · rw [hcode] at h
    obtain ⟨htold, ht⟩ := of_tell_ok h
    exact ⟨ht, kind, index, slot, hnumber, hslot, htold⟩

/-- What was told of a Password Safe slot is the field that was asked for. -/
theorem of_tellSafe_ok {index : UInt8} {label : String} {width : Nat} {field : SafeEntry → Bytes}
    (hblank : field .blank = []) (h : t.tellSafe index label width field = (.ok payload, t')) :
    t' = t ∧ Payload.ofBytes label width (field (t.store.safeAt index)) = .ok payload := by
  have h := of_withSafe_ok h
  unfold Store.safeEntry at h
  unfold Store.safeAt Store.safe?
  cases hcontents : t.store.safe[index.toNat]? with
  | none =>
    rw [hcontents] at h
    cases h
  | some contents =>
    rw [hcontents] at h
    obtain ⟨htold, ht⟩ := of_tell_ok h
    refine ⟨ht, ?_⟩
    cases contents with
    | none =>
      show Payload.ofBytes label width (field .blank) = _
      rw [hblank]
      exact htold
    | some entry => exact htold

end Token

/-! ## §3. What a command that was done has changed. -/

/-- What is stored after a command that was done; `keeps` says whether a new
AES key leaves the Password Safe in place. -/
def Command.storeAfter (keeps : Bool) (s : Store) : Command → Store
  | writeConfig config _ => { s with config }
  | eraseSlot number _ => s.erased number
  | getCode number .. => s.used number
  | factoryReset _ => .empty
  | newAesKey _ => if keeps then s else s.clearSafe
  | setSafePrimary index name password =>
      s.putSafe index (some { s.safeAt index with name, password })
  | setSafeLogin index login => s.putSafe index (some { s.safeAt index with login })
  | eraseSafe index => s.putSafe index none
  | _ => s

namespace Store

variable {s s' : Store} {index : UInt8} {name login : String} {password : Secret}

theorem of_updateSafe_ok {next : Option SafeEntry → Option SafeEntry}
    (h : s.updateSafe index next = (.ok (), s')) :
    s' = s.putSafe index (next (s.safe? index)) := by
  cases hcontents : s.safe[index.toNat]? with
  | none =>
    rw [updateSafe_of_none hcontents] at h
    cases h
  | some contents =>
    have hsafe : s.safe? index = contents := congrArg Option.join hcontents
    rw [updateSafe_of_some hcontents] at h
    cases h
    rw [hsafe]
    rfl

theorem of_writeSafePrimary_ok (h : s.writeSafePrimary index name password = (.ok (), s')) :
    s' = s.putSafe index (some { s.safeAt index with name, password }) := by
  rw [of_updateSafe_ok h]
  unfold safeAt
  cases s.safe? index with
  | none => rfl
  | some entry => rfl

theorem of_writeSafeLogin_ok (h : s.writeSafeLogin index login = (.ok (), s')) :
    s' = s.putSafe index (some { s.safeAt index with login }) := by
  rw [of_updateSafe_ok h]
  unfold safeAt
  cases s.safe? index with
  | none => rfl
  | some entry => rfl

end Store

namespace Token

variable {t t' : Token} {payload : Payload} {c : Command}

/-- A code that was given moves the counter of its slot on, if it is an HOTP
slot. -/
theorem store_of_giveCode_ok {number : UInt8} (h : t.giveCode number = (.ok payload, t')) :
    t'.store = t.store.used number := by
  revert h
  refine giveCode_rule (P := fun r => r = (.ok payload, t') → _) ?_ ?_ ?_
  · intro status _ h
    cases h
  · intro index slot code told hnumber hslot _ _ _ h
    cases h
    have hat : t.store.codes.at? .hotp index = some slot := congrArg Option.join hslot
    rw [Store.used_of_hotp _ hnumber, hat]
    rfl
  · intro index slot step code told hnumber _ _ _ _ _ h
    cases h
    exact (t.store.used_of_totp hnumber).symm

/-- **What is stored after a command that was done.** -/
theorem store_of_done (h : t.execute c = (.ok payload, t')) (hwrite : c.id ≠ .writeToSlot) :
    t'.store = c.storeAfter t.config.newKeyKeepsSafe t.store := by
  cases c with
  | writeToSlot temp slot counter flags tokenId => exact absurd rfl hwrite
  -- commands that tell something
  | getStatus => exact congrArg Token.store (of_tell_ok h).2
  | readSlotName number => exact congrArg Token.store (of_tellSlot_ok h).1
  | readSlot number => exact congrArg Token.store (of_tellSlot_ok h).1
  | safeName index => exact congrArg Token.store (of_tellSafe_ok rfl h).1
  | safePassword index => exact congrArg Token.store (of_tellSafe_ok rfl h).1
  | safeLogin index => exact congrArg Token.store (of_tellSafe_ok rfl h).1
  | safeStatus =>
    cases of_withSafe_ok h
    rfl
  | getAdminRetryCount =>
    cases h
    rfl
  | getUserRetryCount =>
    cases h
    rfl
  -- code slots and the register
  | sendOtpData temp kind chunk data =>
    have h := of_withTemp_ok h
    revert h
    refine stage_rule (P := fun r => r = (.ok payload, t') → _) ?_ ?_ ?_
    · intro h
      cases h
    · intro _ _ h
      cases h
      rfl
    · intro staged _ _ h
      cases h
      rfl
  | getCode number challenge lastTime lastInterval temp =>
    have h : (if t.store.config.protectsCodes then t.withTemp .user temp (t.giveCode number)
      else t.giveCode number) = (.ok payload, t') := h
    have hgive : t.giveCode number = (.ok payload, t') := by
      split at h
      · exact of_withTemp_ok h
      · exact h
    exact store_of_giveCode_ok hgive
  | writeConfig config temp =>
    cases of_withTemp_ok h
    rfl
  | eraseSlot number temp =>
    obtain ⟨kind, index, hnumber, h⟩ := of_withSlot_ok (of_withTemp_ok h)
    show t'.store = t.store.erased number
    rw [t.store.erased_of_number hnumber]
    rcases t.store.eraseCode_cases kind index with he | he
    · rw [(t.store.atomic_eraseCode kind index).eq_of_error he] at h
      cases h
    · rw [he] at h
      cases h
      rfl
  | setTime reset time =>
    have h : (if !reset && time < t.clock then t.refuse .timestampWarning
      else done { t with clock := time }) = (.ok payload, t') := h
    split at h
    · cases h
    · cases h
      rfl
  -- logins and PINs
  | firstAuthenticate pin temp =>
    obtain ⟨session, rfl⟩ := of_settle_ok h
    rfl
  | userAuthenticate pin temp =>
    obtain ⟨session, rfl⟩ := of_settle_ok h
    rfl
  | unlockUserPassword adminPin new =>
    obtain ⟨session, rfl⟩ := of_settle_ok h
    rfl
  | changeUserPin old new =>
    obtain ⟨session, rfl⟩ := of_settle_ok h
    rfl
  | changeAdminPin old new =>
    obtain ⟨session, rfl⟩ := of_settle_ok h
    rfl
  | lockDevice =>
    cases h
    rfl
  | factoryReset pin =>
    have h : t.withPin .admin pin (fun t => done t.factoryReset) = (.ok payload, t') := h
    obtain ⟨session, h⟩ := of_withPin_ok h
    cases h
    rfl
  | detectAes pin =>
    have h : t.withPin .user pin (fun t => (.ok (.ofByte 1), t)) = (.ok payload, t') := h
    obtain ⟨session, h⟩ := of_withPin_ok h
    cases h
    rfl
  | newAesKey pin =>
    have h : t.withPin .admin pin (fun t => done t.renewKey) = (.ok payload, t') := h
    obtain ⟨session, h⟩ := of_withPin_ok h
    cases h
    rfl
  -- the Password Safe
  | enableSafe pin =>
    have h : t.withPin .user pin (fun t =>
      if t.keyValid then done { t with safeEnabled := true }
      else t.refuse .aesDecryptionFailed) = (.ok payload, t') := h
    obtain ⟨session, h⟩ := of_withPin_ok h
    split at h
    · cases h
      rfl
    · cases h
  | setSafePrimary index name password =>
    obtain ⟨s, hs, rfl⟩ := of_commit_ok (of_withSafe_ok h)
    exact Store.of_writeSafePrimary_ok hs
  | setSafeLogin index login =>
    obtain ⟨s, hs, rfl⟩ := of_commit_ok (of_withSafe_ok h)
    exact Store.of_writeSafeLogin_ok hs
  | eraseSafe index =>
    obtain ⟨s, hs, rfl⟩ := of_commit_ok (of_withSafe_ok h)
    exact Store.of_updateSafe_ok hs

end Token

/-! ## §4. Password Safe slots. -/

/-- The commands that leave every Password Safe slot alone. -/
def CommandId.sparesSafe (keeps : Bool) : CommandId → Bool
  | setSafePrimary | setSafeLogin | eraseSafe | factoryReset => false
  | newAesKey => keeps
  | _ => true

theorem Command.safe_storeAfter {x : Command} {keeps : Bool} (h : x.id.sparesSafe keeps = true)
    (s : Store) : (x.storeAfter keeps s).safe = s.safe := by
  cases x with
  | newAesKey pin =>
    have hkeeps : keeps = true := h
    show (if keeps then s else s.clearSafe).safe = s.safe
    rw [if_pos hkeeps]
  | eraseSlot number temp =>
    show (s.erased number).safe = s.safe
    unfold Store.erased
    split
    · rfl
    · rfl
  | getCode number challenge lastTime lastInterval temp =>
    show (s.used number).safe = s.safe
    unfold Store.used
    split
    · rfl
    · rfl
  | _ => first | rfl | cases h

/-! ## §5. Quiet commands. -/

/-- The commands that change no slot, nor the config register, nor whether the
Password Safe is open. -/
def CommandId.quiet : CommandId → Bool
  | writeToSlot | getCode | writeConfig | eraseSlot | lockDevice | factoryReset | enableSafe
  | newAesKey | setSafePrimary | setSafeLogin | eraseSafe => false
  | _ => true

theorem Command.storeAfter_of_quiet {c : Command} (h : c.id.quiet = true) (keeps : Bool)
    (s : Store) : c.storeAfter keeps s = s := by
  cases c <;> first | rfl | cases h

theorem Command.turn_of_quiet {c : Command} (h : c.id.quiet = true) (s : Switches) :
    (c.turn s).safeEnabled = s.safeEnabled := by
  cases c <;> first | rfl | cases h

/-- Slots, config register and the state of the Password Safe are the same. -/
def Token.SameStored (t t' : Token) : Prop :=
  t'.store = t.store ∧ t'.safeEnabled = t.safeEnabled

namespace Token

variable {t t' t'' : Token} {c : Command}

theorem SameStored.refl (t : Token) : t.SameStored t := ⟨rfl, rfl⟩

theorem SameStored.trans (h : t.SameStored t') (h' : t'.SameStored t'') : t.SameStored t'' :=
  ⟨h'.1.trans h.1, h'.2.trans h.2⟩

/-- **A refused command leaves everything that is stored alone.** -/
theorem Effect.stored_of_refused {status : Status} (h : t.Effect c (.error status, t')) :
    t.SameStored t' := by
  have hok : Answer.status (.error status) ≠ .ok := (h.status_of_error rfl).1
  have hswitch := h.switches_eq
  rw [if_neg hok] at hswitch
  exact ⟨h.store_of_refused, congrArg Switches.safeEnabled hswitch⟩

/-- **So does a quiet command, however it ends.** -/
theorem same_of_quiet (h : c.id.quiet = true) (t : Token) : t.SameStored (t.execute c).2 := by
  have heffect := effect_execute t c
  cases hr : t.execute c with
  | mk answer t' =>
    rw [hr] at heffect
    cases answer with
    | error status => exact heffect.stored_of_refused
    | ok payload =>
      have hwrite : c.id ≠ .writeToSlot := by
        intro e
        rw [e] at h
        cases h
      have hswitch : t'.switches = c.turn t.switches := heffect.switches_eq
      refine ⟨?_, ?_⟩
      · rw [store_of_done hr hwrite]
        exact Command.storeAfter_of_quiet h _ _
      · show t'.switches.safeEnabled = _
        rw [hswitch]
        exact Command.turn_of_quiet h _

end Token

end OtpToken
