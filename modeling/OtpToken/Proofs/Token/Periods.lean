/-
  OtpToken.Proofs.Token.Periods
  ─────────────────────────────
  **PERIODS THAT ARE TAKEN AND GIVE NO CODES.**

  The period of a TOTP slot comes in the eight bytes of a counter, and a write is
  refused for its period only if that is zero.  Codes are made with periods of 32
  bits.  A longer period is taken (`Command.LongPeriod`), and then the slot is
  programmed and answers `unknown` to everybody who asks it for a code:

      period 0                the write is refused
      period below 2 ^ 32     a code at every time
      any other period        the write is done, and there is never a code

  Nothing else stands in the way of a code (`giveCode_totp`): a stored secret is not
  empty, and every code fits its record.  Tokens that write counters in decimal
  digits cannot be told a longer period at all.
-/
import OtpToken.Proofs.Token.ReadBack

namespace OtpToken

/-! ## §1. Codes of a programmed slot. -/

/-- A period that fits 32 bits divides the time as it is. -/
theorem timeStep_of_fits {period : UInt64} (hpositive : 1 ≤ period)
    (hfits : period.toNat < UInt32.size) (time : UInt64) :
    timeStep time period.toUInt32 = .ok (time / period) := by
  have hsame : period.toUInt32.toUInt64 = period := by
    apply UInt64.toNat_inj.mp
    show period.toNat % 4294967296 = period.toNat
    exact Nat.mod_eq_of_lt hfits
  unfold timeStep
  rw [if_neg (toUInt32_ne_zero hpositive hfits), hsame]

namespace Token

variable {t : Token} {number index : UInt8} {slot : CodeSlot}

/-- Who asks for a code is given it, unless codes are protected and the user is not
logged in with what was presented. -/
theorem execute_getCode {challenge lastTime : UInt64} {lastInterval : UInt8} {temp : Secret}
    (h : t.store.config.protectsCodes = true → t.session.admits .user temp.bytes = true) :
    t.execute (.getCode number challenge lastTime lastInterval temp) = t.giveCode number := by
  show (if t.store.config.protectsCodes then t.withTemp .user temp _ else _) = _
  by_cases hprotects : t.store.config.protectsCodes = true
  · rw [if_pos hprotects, withTemp, if_pos (h hprotects)]
  · rw [if_neg hprotects]

/-- **A programmed TOTP slot gives the code of its step exactly if its period fits 32
bits**, and an internal error else. -/
theorem giveCode_totp (hsound : t.Sound)
    (hnumber : CodeKind.ofSlotNumber? number = some (.totp, index))
    (hslot : t.store.codes.at? .totp index = some slot) :
    if slot.details.counter.toNat < UInt32.size then
      ∃ code payload,
        codeValue slot.secret.bytes (t.clock / slot.details.counter) slot.details.flags.digits
            = .ok code
          ∧ CodeRecord.encode ⟨code, slot.details.flags⟩ = .ok payload
          ∧ t.giveCode number = (.ok payload, t)
    else t.giveCode number = (.error .unknown, t) := by
  have hslotSound := hsound.slots .totp index slot hslot
  unfold giveCode
  rw [withSlot_of_number hnumber]
  dsimp only
  unfold Store.totp
  rw [code_of_at? hslot]
  dsimp only
  by_cases hfits : slot.details.counter.toNat < UInt32.size
  · obtain ⟨code, hcode⟩ := exists_codeValue hslotSound.secret_ne_nil
      (t.clock / slot.details.counter) slot.details.flags.digits
    obtain ⟨payload, hpayload⟩ := CodeRecord.encode_code ⟨code, slot.details.flags⟩
    rw [if_pos hfits]
    refine ⟨code, payload, hcode, hpayload, ?_⟩
    rw [if_neg (Nat.not_le.mpr hfits), timeStep_of_fits (hslotSound.period rfl) hfits]
    dsimp only [Except.bind]
    rw [hcode]
    exact tell_ok hpayload
  · rw [if_neg hfits, if_pos (Nat.not_lt.mp hfits)]
    rfl

/-- The same whatever the clock is set to. -/
theorem getCode_totp (hsound : t.Sound)
    (hnumber : CodeKind.ofSlotNumber? number = some (.totp, index))
    (hslot : t.store.codes.at? .totp index = some slot) (clock challenge lastTime : UInt64)
    (lastInterval : UInt8) {temp : Secret}
    (hopen : t.store.config.protectsCodes = true → t.session.admits .user temp.bytes = true) :
    let r := { t with clock }.execute (.getCode number challenge lastTime lastInterval temp)
    if slot.details.counter.toNat < UInt32.size then
      ∃ code payload,
        codeValue slot.secret.bytes (clock / slot.details.counter) slot.details.flags.digits
            = .ok code
          ∧ CodeRecord.encode ⟨code, slot.details.flags⟩ = .ok payload
          ∧ r = (.ok payload, { t with clock })
    else r = (.error .unknown, { t with clock }) := by
  -- nothing that is sound depends on the clock
  have hsound : { t with clock }.Sound :=
    ⟨hsound.attempts, hsound.slots, hsound.staged, hsound.key⟩
  have hgive : { t with clock }.execute (.getCode number challenge lastTime lastInterval temp)
      = { t with clock }.giveCode number := execute_getCode (t := { t with clock }) hopen
  have hcode := giveCode_totp hsound hnumber hslot
  rw [← hgive] at hcode
  exact hcode

end Token

/-! ## §2. Periods that are taken. -/

/-- A TOTP slot is written with a period that does not fit 32 bits. -/
def Command.LongPeriod : Command → Prop
  | writeToSlot _ number counter _ _ =>
      (∃ index, CodeKind.ofSlotNumber? number = some (.totp, index))
        ∧ UInt32.size ≤ counter.toNat
  | _ => False

namespace Token

variable {t : Token}

/-- The store looks at a number no further than that it is not zero. -/
theorem commit_counter (t : Token) (kind : CodeKind) (index : UInt8) (name tokenId : String)
    (flags : SlotFlags) (secret : Option Secret) {counter counter' : UInt64} (hne : counter ≠ 0)
    (hne' : counter' ≠ 0) :
    (t.commit (t.store.writeCode kind index ⟨⟨name, flags, tokenId, counter⟩, secret⟩)).1
      = (t.commit
          (t.store.writeCode kind index ⟨⟨name, flags, tokenId, counter'⟩, secret⟩)).1 := by
  unfold Store.writeCode
  dsimp only
  by_cases hname : name.isEmpty = true
  · rw [if_pos hname, if_pos hname]
  · rw [if_neg hname, if_neg hname, if_neg fun h => hne h.2, if_neg fun h => hne' h.2]
    -- slot and secret are looked for without the number
    cases t.store.codes.get? kind index with
    | none => rfl
    | some previous =>
      dsimp only
      cases secret <|> previous.map CodeSlot.secret with
      | none => rfl
      | some secret => rfl

/-- **All numbers but zero are taken alike**, be they a period of a TOTP slot or not. -/
theorem write_counter (t : Token) (temp : Secret) (number : UInt8) (flags : SlotFlags)
    (tokenId : String) {counter counter' : UInt64} (hne : counter ≠ 0) (hne' : counter' ≠ 0) :
    (t.execute (.writeToSlot temp number counter flags tokenId)).1
      = (t.execute (.writeToSlot temp number counter' flags tokenId)).1 := by
  refine withTemp_both (R := fun r r' => r.1 = r'.1) rfl rfl ?_
  refine withSlot_both (R := fun r r' => r.1 = r'.1) rfl fun kind index => ?_
  cases t.staged.name with
  | none => rfl
  | some name => exact commit_counter _ kind index name tokenId flags _ hne hne'

/-- The periods of all TOTP slots fit 32 bits. -/
def PeriodsFit (t : Token) : Prop :=
  ∀ index slot, t.store.codes.at? .totp index = some slot →
    slot.details.counter.toNat < UInt32.size

theorem periodsFit_fresh (config : TokenConfig) : (fresh config).PeriodsFit :=
  fun _ _ h => by cases CodeTable.at?_empty.symm.trans h

/-- **A command leaves no longer period, unless it is done and wrote one.** -/
theorem PeriodsFit.execute {c : Command} (h : t.PeriodsFit)
    (hc : (t.execute c).1.status = .ok → ¬ c.LongPeriod) : (t.execute c).2.PeriodsFit := by
  intro index slot hslot
  cases hstatus : (t.execute c).1 with
  | error status =>
    -- a refused command stores nothing
    have heffect := effect_execute t c
    rw [show t.execute c = (.error status, (t.execute c).2) from Prod.ext hstatus rfl] at heffect
    rw [heffect.store_of_refused] at hslot
    exact h index slot hslot
  | ok payload =>
    have hshort : ¬ c.LongPeriod := hc (by rw [hstatus]; rfl)
    cases slot_execute hslot with
    | kept hkept => exact h index slot hkept
    | counted hkind => cases hkind
    | written hwrite hnumber =>
      subst hwrite
      exact Nat.not_le.mp fun hlong => hshort ⟨⟨index, hnumber⟩, hlong⟩

/-- What can be written in decimal digits fits 32 bits. -/
theorem Printable.periodsFit (h : t.Printable) (hascii : t.encoding = .ascii) : t.PeriodsFit := by
  intro index slot hslot
  have hle : slot.details.counter ≤ CounterEncoding.ascii.maximum :=
    hascii ▸ h.counter .totp index slot hslot
  have hle : slot.details.counter.toNat ≤ 99999999 := UInt64.le_iff_toNat_le.mp hle
  show _ < 4294967296
  omega

end Token

/-! ## §3. Dialogues. -/

namespace Dialogue

/-- **The codes of TOTP slots**, whatever reports a token was sent.

* A programmed slot whose period fits 32 bits gives the code of its step to everybody
  who may ask for it, whatever the clock; with a longer period the answer is always
  `unknown`.
* A write is not refused for a longer period: only zero makes a difference.
* If no write was done with a longer period, then every period fits, and on tokens
  that write counters in decimal digits every period fits anyway. -/
theorem time_codes_over_runs (config : TokenConfig) (reports : List Report) :
    let d := (start config).run reports
    let t := d.token
    (∀ index slot number, t.store.codes.at? .totp index = some slot →
        CodeKind.ofSlotNumber? number = some (.totp, index) →
        ∀ (clock challenge lastTime : UInt64) (lastInterval : UInt8) (temp : Secret),
          (t.store.config.protectsCodes = true → t.session.admits .user temp.bytes = true) →
          let r := { t with clock }.execute
            (.getCode number challenge lastTime lastInterval temp)
          if slot.details.counter.toNat < UInt32.size then
            ∃ code payload,
              codeValue slot.secret.bytes (clock / slot.details.counter) slot.details.flags.digits
                  = .ok code
                ∧ CodeRecord.encode ⟨code, slot.details.flags⟩ = .ok payload
                ∧ r = (.ok payload, { t with clock })
          else r = (.error .unknown, { t with clock }))
      ∧ (∀ temp number flags tokenId counter counter', counter ≠ 0 → counter' ≠ 0 →
          (t.execute (.writeToSlot temp number counter flags tokenId)).1
            = (t.execute (.writeToSlot temp number counter' flags tokenId)).1)
      ∧ ((∀ x ∈ d.past, ¬ x.Did Command.LongPeriod) → t.PeriodsFit)
      ∧ (t.encoding = .ascii → t.PeriodsFit) := by
  intro d t
  have hsound : t.Sound := sound_run config reports
  refine ⟨?_, ?_, ?_, (printable_run config reports).periodsFit⟩
  · intro index slot number hslot hnumber clock challenge lastTime lastInterval temp hopen
    exact Token.getCode_totp hsound hnumber hslot clock challenge lastTime lastInterval hopen
  · intro temp number flags tokenId counter counter' hne hne'
    exact t.write_counter temp number flags tokenId hne hne'
  · exact run_unless (Token.periodsFit_fresh config) (fun _ _ hfit hc => hfit.execute hc) reports

/-- A TOTP slot is programmed with the least period that does not fit 32 bits. -/
def longPeriod : Dialogue :=
  (start .factory).run <| Command.reports .binary
    [.firstAuthenticate (.ofText "12345678") (.ofText "temp"),
      .sendOtpData (.ofText "temp") .name 0 (.ofText "mail"),
      .sendOtpData (.ofText "temp") .secret 0 (.ofText "12345678901234567890"),
      .writeToSlot (.ofText "temp") 32 4294967296 default "id"]

set_option maxRecDepth 20000 in
/-- It is not true that every programmed TOTP slot gives codes: this one was written
without a complaint, codes are not protected, and the answer is an internal error. -/
theorem not_all_time_codes :
    ¬ ∀ (config : TokenConfig) (reports : List Report),
        let t := ((start config).run reports).token
        ∀ index slot number, t.store.codes.at? .totp index = some slot →
          CodeKind.ofSlotNumber? number = some (.totp, index) →
          ∀ (clock challenge lastTime : UInt64) (lastInterval : UInt8) (temp : Secret),
            (t.store.config.protectsCodes = true → t.session.admits .user temp.bytes = true) →
            ({ t with clock }.execute
              (.getCode number challenge lastTime lastInterval temp)).1.status = .ok := by
  intro h
  have hprogrammed : (longPeriod.token.store.codes.at? .totp 0).isSome = true := by decide +kernel
  have hopen : longPeriod.token.store.config.protectsCodes = false := by decide +kernel
  have hunknown : (longPeriod.token.execute (.getCode 32 0 0 0 ⟨[]⟩)).1.status = .unknown := by
    decide +kernel
  obtain ⟨slot, hslot⟩ := Option.isSome_iff_exists.mp hprogrammed
  have hcode := h .factory _ 0 slot 32 hslot rfl longPeriod.token.clock 0 0 0 ⟨[]⟩
    fun hprotects => absurd (hopen.symm.trans hprotects) Bool.false_ne_true
  cases hunknown.symm.trans hcode

end Dialogue

end OtpToken
