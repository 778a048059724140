/-
  OtpToken.Proofs.Token.Isolation
  ───────────────────────────────
  **A COMMAND REACHES NO FURTHER THAN IT SHOULD.**

  `Store.Changed` lists what a command can make of the slots and of the config
  register; `changed_execute` says that the list is complete.  The frame of
  every command is read off it:

      write, erase, code               at most the code slot that is named
      Password Safe set and erase      at most the Password Safe slot that is named
      new AES key                      no code slot
      factory reset                    everything
      every other command              no slot

  Four commands touch one slot and nothing else.  They go on in the same way
  whatever is put in another slot (`execute_put`), and so any two of them that
  are about different slots commute.
-/
import OtpToken.Proofs.Token.Place

namespace OtpToken

/-! ## §1. What a command makes of the slots. -/

namespace CommandId

/-- The commands that change the contents of one slot. -/
def puts : CommandId → Bool
  | writeToSlot | getCode | eraseSlot | setSafePrimary | setSafeLogin | eraseSafe => true
  | _ => false

/-- The commands that set or erase a Password Safe slot. -/
def changesSafe : CommandId → Bool
  | setSafePrimary | setSafeLogin | eraseSafe => true
  | _ => false

/-- The commands that touch one slot and nothing else. -/
def isLocal : CommandId → Bool
  | getCode | setSafePrimary | setSafeLogin | eraseSafe => true
  | _ => false

/-- The commands that leave every slot alone: authentication, PINs, lock, time,
config, staging and everything that only tells. -/
def sparesSlots : CommandId → Bool
  | writeToSlot | getCode | eraseSlot | setSafePrimary | setSafeLogin | eraseSafe
  | newAesKey | factoryReset => false
  | _ => true

theorem puts_of_isLocal {id : CommandId} (h : id.isLocal = true) : id.puts = true := by
  cases id <;> first | rfl | cases h

theorem isLocal_of_changesSafe {id : CommandId} (h : id.changesSafe = true) :
    id.isLocal = true := by
  cases id <;> first | rfl | cases h

theorem sparesSlots_of_puts {id : CommandId} (h : id.puts = true) : id.sparesSlots = false := by
  cases id <;> first | rfl | cases h

end CommandId

theorem Command.family_of_safe {c : Command} {p : Place} (hsafe : c.id.changesSafe = true)
    (hplace : c.place? = some p) : p.family = .safe := by
  cases c with
  | setSafePrimary index name password => exact (Place.of?_eq_some_iff.mp hplace).1
  | setSafeLogin index login => exact (Place.of?_eq_some_iff.mp hplace).1
  | eraseSafe index => exact (Place.of?_eq_some_iff.mp hplace).1
  | _ => cases hsafe

/-- **What a command can make of the slots and of the config register.** -/
inductive Store.Changed (s : Store) (c : Command) : Store → Prop
  | same : Changed s c s
  | put {p : Place} (x : Option p.family.Entry) (hputs : c.id.puts = true)
      (hplace : c.place? = some p) : Changed s c (s.put p x)
  | configured (config : Config) (hid : c.id = .writeConfig) : Changed s c { s with config }
  | cleared (hid : c.id = .newAesKey) : Changed s c s.clearSafe
  | reset (hid : c.id = .factoryReset) : Changed s c .empty

namespace Store

variable {s s' : Store} {c : Command}

theorem changed_of_code {number index : UInt8} {kind : CodeKind} (hputs : c.id.puts = true)
    (hplace : c.place? = Place.ofNumber? number)
    (hnumber : CodeKind.ofSlotNumber? number = some (kind, index)) (x : Option CodeSlot) :
    s.Changed c { s with codes := s.codes.set kind index x } :=
  .put (p := ⟨.code kind, index, CodeKind.holds_of_ofSlotNumber? hnumber⟩) x hputs
    (hplace.trans (Place.ofNumber?_eq hnumber))

theorem changed_of_safe {index : UInt8} (hputs : c.id.puts = true)
    (hplace : c.place? = Place.of? .safe index) (x : Option SafeEntry) :
    s.Changed c (s.putSafe index x) := by
  by_cases h : SlotFamily.safe.holds index = true
  · exact .put (p := ⟨.safe, index, h⟩) x hputs (hplace.trans (Place.of?_of_holds h))
  · rw [putSafe_of_not_holds (Bool.eq_false_iff.mpr h)]
    exact .same

/-- What a command stores when it was done is on the list. -/
theorem changed_storeAfter (keeps : Bool) (s : Store) (c : Command) :
    s.Changed c (c.storeAfter keeps s) := by
  cases c with
  | writeConfig config temp => exact .configured config rfl
  | eraseSlot number temp =>
    show s.Changed _ (s.erased number)
    unfold erased
    split
    · next hnumber => exact changed_of_code rfl rfl hnumber none
    · exact .same
  | getCode number challenge lastTime lastInterval temp =>
    show s.Changed _ (s.used number)
    unfold used
    split
    · next hnumber => exact changed_of_code rfl rfl hnumber _
    · exact .same
  | factoryReset pin => exact .reset rfl
  | newAesKey pin =>
    show s.Changed _ (if keeps then s else s.clearSafe)
    split
    · exact .same
    · exact .cleared rfl
  | setSafePrimary index name password => exact changed_of_safe rfl rfl _
  | setSafeLogin index login => exact changed_of_safe rfl rfl _
  | eraseSafe index => exact changed_of_safe rfl rfl none
  | _ => exact .same

/-- A command that changes the contents of one slot does no more to the
store. -/
theorem Changed.of_puts (h : s.Changed c s') (hputs : c.id.puts = true) :
    s' = s ∨ ∃ (p : Place) (x : Option p.family.Entry), c.place? = some p ∧ s' = s.put p x := by
  cases h with
  | same => exact .inl rfl
  | put x _ hplace => exact .inr ⟨_, x, hplace, rfl⟩
  | configured _ hid => cases (congrArg CommandId.puts hid).symm.trans hputs
  | cleared hid => cases (congrArg CommandId.puts hid).symm.trans hputs
  | reset hid => cases (congrArg CommandId.puts hid).symm.trans hputs

/-- **Places that the command is not about hold what they held.** -/
theorem Changed.look_eq (h : s.Changed c s') (hputs : c.id.puts = true) {q : Place}
    (hq : c.place? ≠ some q) : s'.look q = s.look q := by
  rcases h.of_puts hputs with rfl | ⟨p, x, hplace, rfl⟩
  · rfl
  · refine s.look_put_of_ne x ?_
    rintro rfl
    exact hq hplace

/-- A command about a code slot leaves the Password Safe alone. -/
theorem Changed.safe_eq (h : s.Changed c s') (hputs : c.id.puts = true)
    (hcode : ∀ p, c.place? = some p → p.family ≠ .safe) : s'.safe = s.safe := by
  rcases h.of_puts hputs with rfl | ⟨⟨kind | _, index, hp⟩, x, hplace, rfl⟩
  · rfl
  · rfl
  · exact absurd rfl (hcode _ hplace)

/-- A command about a Password Safe slot leaves everything else alone. -/
theorem Changed.eq_of_safe (h : s.Changed c s') (hputs : c.id.puts = true)
    (hsafe : ∀ p, c.place? = some p → p.family = .safe) : s' = { s with safe := s'.safe } := by
  rcases h.of_puts hputs with rfl | ⟨⟨kind | _, index, hp⟩, x, hplace, rfl⟩
  · rfl
  · cases hsafe _ hplace
  · rfl

/-- A new AES key leaves code slots and config register alone. -/
theorem Changed.of_newAesKey {pin : Secret} (h : s.Changed (.newAesKey pin) s') :
    s'.codes = s.codes ∧ s'.config = s.config := by
  cases h with
  | same => exact ⟨rfl, rfl⟩
  | cleared _ => exact ⟨rfl, rfl⟩
  | put _ hputs _ => cases hputs
  | configured _ hid => cases hid
  | reset hid => cases hid

/-- **Only a reset changes code slots and Password Safe slots together.** -/
theorem Changed.codes_or_safe (h : s.Changed c s') :
    s'.codes = s.codes ∨ s'.safe = s.safe ∨ c.id = .factoryReset := by
  cases h with
  | same => exact .inl rfl
  | @put p x _ _ =>
    obtain ⟨kind | _, index, hp⟩ := p
    · exact .inr (.inl rfl)
    · exact .inl rfl
  | configured _ _ => exact .inl rfl
  | cleared _ => exact .inl rfl
  | reset hid => exact .inr (.inr hid)

/-- **A command that spares slots changes none.** -/
theorem Changed.same_of_sparesSlots (h : s.Changed c s') (hspares : c.id.sparesSlots = true) :
    s'.codes = s.codes ∧ s'.safe = s.safe := by
  cases h with
  | same => exact ⟨rfl, rfl⟩
  | configured _ _ => exact ⟨rfl, rfl⟩
  | put _ hputs _ => cases hspares.symm.trans (CommandId.sparesSlots_of_puts hputs)
  | cleared hid => rw [hid] at hspares; cases hspares
  | reset hid => rw [hid] at hspares; cases hspares

end Store

namespace Token

variable {t : Token} {c : Command} {p : Place}

/-- **A command makes nothing of the slots that is not on the list.** -/
theorem changed_execute (t : Token) (c : Command) :
    t.store.Changed c (t.execute c).2.store := by
  have heffect := effect_execute t c
  cases hr : t.execute c with
  | mk answer t' =>
    rw [hr] at heffect
    cases answer with
    | error status =>
      rw [show t'.store = t.store from heffect.store_of_refused]
      exact .same
    | ok payload =>
      by_cases hwrite : c.id = .writeToSlot
      · cases c with
        | writeToSlot temp number counter flags tokenId =>
          obtain ⟨kind, index, name, previous, secret, hnumber, -, -, -, rfl⟩ :=
            heffect.of_writeToSlot_ok
          exact Store.changed_of_code rfl rfl hnumber _
        | _ => cases hwrite
      · rw [store_of_done hr hwrite]
        exact Store.changed_storeAfter _ _ _

/-! ## §2. What else a command changes. -/

/-- The code of a TOTP slot changes nothing at all. -/
theorem eq_of_totp (hid : c.id = .getCode) (hplace : c.place? = some p)
    (htotp : p.family = .code .totp) : (t.execute c).2 = t := by
  cases c with
  | getCode number challenge lastTime lastInterval temp =>
    have heffect := effect_execute t (.getCode number challenge lastTime lastInterval temp)
    generalize t.execute (.getCode number challenge lastTime lastInterval temp) = r at heffect
    cases heffect with
    | barred _ => rfl
    | refused _ _ _ => rfl
    | told _ _ => rfl
    | timed _ _ _ _ _ _ => rfl
    | counted _ hnumber _ _ _ _ =>
      cases (Place.ofNumber?_eq hnumber).symm.trans hplace
      cases htotp
    | safeChanged _ huses => cases huses
    | wrongPin hcheck _ _ => cases hcheck
    | failed hcheck _ _ _ _ => cases hcheck
    | loggedIn hcheck _ _ _ => cases hcheck
    | pinChanged hcheck _ _ _ => cases hcheck
  | _ => cases hid

theorem check?_of_isLocal (h : c.id.isLocal = true) : c.check? = none := by
  cases c <;> first | rfl | cases h

/-- A command that touches one slot changes nothing but the slots. -/
theorem rest_of_local (h : c.id.isLocal = true) (t : Token) :
    (t.execute c).2 = { t with store := (t.execute c).2.store } := by
  have heffect := effect_execute t c
  generalize t.execute c = r at heffect
  cases heffect with
  | staged _ _ => cases h
  | unwritten _ _ => cases h
  | written _ _ _ _ _ _ => cases h
  | erased _ _ => cases h
  | clockSet _ => cases h
  | locked => cases h
  | unlocked _ => cases h
  | reset _ => cases h
  | safeOpened _ _ => cases h
  | keyDetected _ => cases h
  | keyRenewed _ => cases h
  | wrongPin hcheck _ _ => cases (check?_of_isLocal h).symm.trans hcheck
  | failed hcheck _ _ _ _ => cases (check?_of_isLocal h).symm.trans hcheck
  | loggedIn hcheck _ _ _ => cases (check?_of_isLocal h).symm.trans hcheck
  | pinChanged hcheck _ _ _ => cases (check?_of_isLocal h).symm.trans hcheck
  | _ => rfl

/-- A new AES key changes neither the clock nor the user's credential. -/
theorem rest_of_newAesKey {pin : Secret} (t : Token) :
    (t.execute (.newAesKey pin)).2.clock = t.clock
      ∧ (t.execute (.newAesKey pin)).2.session.user = t.session.user := by
  have hclock : (t.execute (.newAesKey pin)).2.switches.clock = t.clock := by
    rw [(effect_execute t _).switches_eq]
    split
    · rfl
    · rfl
  refine ⟨hclock, ?_⟩
  show (t.withPin .admin pin fun t => done t.renewKey).2.session.user = _
  exact withPin_rule (P := fun r => r.2.session.user = t.session.user) rfl (fun _ => rfl)
    fun _ => rfl

end Token

/-! ## §3. What is in other slots does not matter. -/

namespace Store

variable {s : Store} {p : Place} {index : UInt8}

theorem nextHotp_put (x : Option p.family.Entry) (maximum : UInt64)
    (h : ∀ holds, p ≠ ⟨.code .hotp, index, holds⟩) :
    (s.put p x).nextHotp index maximum
      = ((s.nextHotp index maximum).1, (s.nextHotp index maximum).2.put p x) := by
  unfold nextHotp code
  rw [s.get?_put_of_ne x h]
  cases hget : s.codes.get? .hotp index with
  | none => rfl
  | some contents =>
    have hholds : (SlotFamily.code .hotp).holds index = true := by
      rw [← CodeTable.isSome_get?_iff, hget]
      rfl
    cases contents with
    | none => rfl
    | some slot =>
      dsimp only
      split
      · rfl
      · cases codeValue slot.secret.bytes slot.details.counter slot.details.flags.digits with
        | error why => rfl
        | ok code =>
          -- the slot that moves on is another place than `p`
          refine congrArg (Except.ok _, ·) ?_
          exact put_comm (q := ⟨.code .hotp, index, hholds⟩) s x _ (h hholds)

theorem totp_put (x : Option p.family.Entry) (time : UInt64)
    (h : ∀ holds, p ≠ ⟨.code .totp, index, holds⟩) :
    (s.put p x).totp index time = s.totp index time := by
  unfold totp code
  rw [s.get?_put_of_ne x h]

theorem updateSafe_put (x : Option p.family.Entry) (next : Option SafeEntry → Option SafeEntry)
    (h : ∀ holds, p ≠ ⟨.safe, index, holds⟩) :
    (s.put p x).updateSafe index next
      = ((s.updateSafe index next).1, (s.updateSafe index next).2.put p x) := by
  have hsafe := s.safe_put_of_ne x h
  cases hcontents : s.safe[index.toNat]? with
  | none =>
    rw [updateSafe_of_none hcontents, updateSafe_of_none (hsafe.trans hcontents)]
  | some contents =>
    rw [updateSafe_of_some hcontents, updateSafe_of_some (hsafe.trans hcontents)]
    obtain ⟨hlt, -⟩ := Vector.getElem?_eq_some_iff.mp hcontents
    have hholds : SlotFamily.safe.holds index = true := decide_eq_true hlt
    refine congrArg (Except.ok (), ·) ?_
    exact put_comm (q := ⟨.safe, index, hholds⟩) s x _ (h hholds)

end Store

namespace Token

/-- The token with other contents in a slot. -/
def put (t : Token) (p : Place) (x : Option p.family.Entry) : Token :=
  { t with store := t.store.put p x }

variable {t : Token} {c c' : Command} {p : Place}

theorem withSafe_put (t : Token) (x : Option p.family.Entry) {next next' : Answer × Token}
    (h : next' = (next.1, next.2.put p x)) :
    (t.put p x).withSafe next' = ((t.withSafe next).1, (t.withSafe next).2.put p x) := by
  rw [h]
  show (if t.safeEnabled then _ else _) = _
  unfold withSafe
  split
  · rfl
  · rfl

theorem withTemp_put (t : Token) (role : Role) (temp : Secret) (x : Option p.family.Entry)
    {next next' : Answer × Token} (h : next' = (next.1, next.2.put p x)) :
    (t.put p x).withTemp role temp next'
      = ((t.withTemp role temp next).1, (t.withTemp role temp next).2.put p x) := by
  rw [h]
  show (if t.session.admits role temp.bytes then _ else _) = _
  unfold withTemp
  split
  · rfl
  · rfl

/-- A change of a Password Safe slot does not see the other slots. -/
theorem changeSafe_put {index : UInt8} (t : Token) (x : Option p.family.Entry)
    (next : Option SafeEntry → Option SafeEntry) (h : Place.of? .safe index ≠ some p) :
    (t.put p x).withSafe ((t.put p x).commit ((t.put p x).store.updateSafe index next))
      = ((t.withSafe (t.commit (t.store.updateSafe index next))).1,
          (t.withSafe (t.commit (t.store.updateSafe index next))).2.put p x) := by
  have hne : ∀ holds, p ≠ ⟨.safe, index, holds⟩ := by
    rintro holds rfl
    exact h (Place.of?_of_holds holds)
  exact withSafe_put t x (congrArg (t.put p x).commit (Store.updateSafe_put x next hne))

/-- Nor does a code. -/
theorem giveCode_put {number : UInt8} (t : Token) (x : Option p.family.Entry)
    (h : Place.ofNumber? number ≠ some p) :
    (t.put p x).giveCode number = ((t.giveCode number).1, (t.giveCode number).2.put p x) := by
  unfold giveCode withSlot
  cases hnumber : CodeKind.ofSlotNumber? number with
  | none => rfl
  | some slot =>
    obtain ⟨kind, index⟩ := slot
    have hne : ∀ holds, p ≠ ⟨.code kind, index, holds⟩ := by
      rintro holds rfl
      exact h (Place.ofNumber?_eq hnumber)
    cases kind with
    | hotp =>
      have hnext : (t.put p x).store.nextHotp index (t.put p x).encoding.maximum
          = ((t.store.nextHotp index t.encoding.maximum).1,
              (t.store.nextHotp index t.encoding.maximum).2.put p x) :=
        Store.nextHotp_put x _ hne
      dsimp only
      rw [hnext]
      obtain ⟨status | record, store⟩ := t.store.nextHotp index t.encoding.maximum
      · rfl
      · rfl
    | totp =>
      have htotp : (t.put p x).store.totp index (t.put p x).clock = t.store.totp index t.clock :=
        Store.totp_put x _ hne
      dsimp only
      rw [htotp]
      cases t.store.totp index t.clock with
      | error status => rfl
      | ok record => rfl

/-- **A command that touches one slot does not see what is in the others.** -/
theorem execute_put (hlocal : c.id.isLocal = true) (hplace : c.place? ≠ some p) (t : Token)
    (x : Option p.family.Entry) :
    (t.put p x).execute c = ((t.execute c).1, (t.execute c).2.put p x) := by
  cases c with
  | getCode number challenge lastTime lastInterval temp =>
    have hgive := giveCode_put t x hplace
    have hconfig : (t.put p x).store.config = t.store.config := t.store.config_put p x
    show (if (t.put p x).store.config.protectsCodes then _ else _) = _
    unfold execute
    rw [hconfig]
    dsimp only
    split
    · exact withTemp_put t .user temp x hgive
    · exact hgive
  | setSafePrimary index name password => exact changeSafe_put t x _ hplace
  | setSafeLogin index login => exact changeSafe_put t x _ hplace
  | eraseSafe index => exact changeSafe_put t x _ hplace
  | _ => cases hlocal

/-! ## §4. Commands for different slots. -/

/-- A command that touches one slot leaves the token as it is, or changes the
slot that it is about. -/
theorem execute_local (hlocal : c.id.isLocal = true) (t : Token) :
    (t.execute c).2 = t ∨ ∃ (p : Place) (x : Option p.family.Entry),
      c.place? = some p ∧ (t.execute c).2 = t.put p x := by
  have hrest := rest_of_local hlocal t
  rcases (changed_execute t c).of_puts (CommandId.puts_of_isLocal hlocal) with
    h | ⟨p, x, hplace, h⟩
  · rw [h] at hrest
    exact .inl hrest
  · rw [h] at hrest
    exact .inr ⟨p, x, hplace, hrest⟩

/-- **Two commands that each touch one slot commute when these are different
slots**: the answers are those that each would get alone, and the token ends
the same in either order. -/
theorem execute_comm (hlocal : c.id.isLocal = true) (hlocal' : c'.id.isLocal = true)
    (hother : ∀ p, c.place? = some p → c'.place? ≠ some p) (t : Token) :
    ((t.execute c).2.execute c').1 = (t.execute c').1
      ∧ ((t.execute c').2.execute c).1 = (t.execute c).1
      ∧ ((t.execute c).2.execute c').2 = ((t.execute c').2.execute c).2 := by
  rcases execute_local hlocal t with h | ⟨p, x, hp, h⟩
  · rw [h]
    rcases execute_local hlocal' t with h' | ⟨q, y, hq, h'⟩
    · rw [h']
      exact ⟨rfl, rfl, h.symm⟩
    · -- only the second command changes something
      rw [h', execute_put hlocal (fun hp => hother q hp hq) t y, h]
      exact ⟨rfl, rfl, rfl⟩
  · rw [h, execute_put hlocal' (hother p hp) t x]
    rcases execute_local hlocal' t with h' | ⟨q, y, hq, h'⟩
    · rw [h', h]
      exact ⟨rfl, rfl, rfl⟩
    · rw [h', execute_put hlocal (fun hp => hother q hp hq) t y, h]
      have hne : q ≠ p := by
        rintro rfl
        exact hother q hp hq
      exact ⟨rfl, rfl, congrArg (fun s => { t with store := s }) (t.store.put_comm y x hne)⟩

/-- **The parts of a token are isolated from each other.** -/
theorem isolation (t : Token) (c : Command) :
    let t' := (t.execute c).2
    -- writing, erasing and giving a code
    (c.id = .writeToSlot ∨ c.id = .eraseSlot ∨ c.id = .getCode →
        (∀ p, c.place? ≠ some p → t'.store.look p = t.store.look p)
          ∧ t'.store.safe = t.store.safe)
      ∧ (∀ p, c.id = .getCode → c.place? = some p → p.family = .code .totp → t' = t)
      -- setting and erasing a Password Safe slot
      ∧ (c.id.changesSafe = true →
          (∀ p, c.place? ≠ some p → t'.store.look p = t.store.look p)
            ∧ t' = { t with store := { t.store with safe := t'.store.safe } })
      ∧ (c.id = .newAesKey → t'.store.codes = t.store.codes ∧ t'.store.config = t.store.config
          ∧ t'.clock = t.clock ∧ t'.session.user = t.session.user)
      ∧ (c.id.sparesSlots = true →
          t'.store.codes = t.store.codes ∧ t'.store.safe = t.store.safe)
      ∧ (t'.store.codes ≠ t.store.codes → t'.store.safe ≠ t.store.safe →
          c.id = .factoryReset)
      -- different slots
      ∧ ∀ c' : Command, c.id.isLocal = true → c'.id.isLocal = true →
          (∀ p, c.place? = some p → c'.place? ≠ some p) →
          (t'.execute c').1 = (t.execute c').1
            ∧ ((t.execute c').2.execute c).1 = (t.execute c).1
            ∧ (t'.execute c').2 = ((t.execute c').2.execute c).2 := by
  have hchanged := changed_execute t c
  refine ⟨fun hid => ?_, fun p hid hplace htotp => ?_, fun hsafe => ?_, fun hid => ?_,
    fun hspares => ?_, fun hcodes hsafe => ?_, fun c' hlocal hlocal' hother => ?_⟩
  · have hputs : c.id.puts = true := by
      rcases hid with hid | hid | hid <;> rw [hid] <;> rfl
    refine ⟨fun p hp => hchanged.look_eq hputs hp, hchanged.safe_eq hputs fun p hp => ?_⟩
    exact Command.family_of_code hid hp
  · exact eq_of_totp hid hplace htotp
  · have hlocal := CommandId.isLocal_of_changesSafe hsafe
    have hputs := CommandId.puts_of_isLocal hlocal
    refine ⟨fun p hp => hchanged.look_eq hputs hp, (rest_of_local hlocal t).trans ?_⟩
    have heq := hchanged.eq_of_safe hputs fun p hp => Command.family_of_safe hsafe hp
    exact congrArg (fun s => { t with store := s }) heq
  · cases c with
    | newAesKey pin =>
      have hstore := hchanged.of_newAesKey
      exact ⟨hstore.1, hstore.2, rest_of_newAesKey t⟩
    | _ => cases hid
  · exact hchanged.same_of_sparesSlots hspares
  · rcases hchanged.codes_or_safe with h | h | h
    · exact absurd h hcodes
    · exact absurd h hsafe
    · exact h
  · exact execute_comm hlocal hlocal' hother t

end Token

end OtpToken
