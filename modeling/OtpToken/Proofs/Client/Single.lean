/-
  OtpToken.Proofs.Client.Single
  ─────────────────────────────
  **CALLS OF ONE COMMAND.**

  All calls but the three writes ask a single command.  `Call.command?` says
  which one, and `Call.of_single_done` that a call that was done has done
  exactly that command.  A call that fails leaves slots, config register and
  the state of the Password Safe as they were, also one of the three
  (`Call.stored_of_error`).

  The host may take the token to be capable of anything.  Only a write of a code
  slot depends on it, and `Call.write_ends` says how: the token makes of the
  counter what it reads in the field, and of the secret what it has room for.
-/
import OtpToken.Proofs.Client.SafeWrite
import OtpToken.Proofs.Client.SlotWrite
import OtpToken.Proofs.Client.Trace
import OtpToken.Proofs.Command.Carry
import OtpToken.Proofs.Token.Account
import OtpToken.Proofs.Token.Stored

namespace OtpToken

/-! ## §1. Which command a call asks. -/

namespace Call

/-- The calls that ask one command. -/
def single : Call → Bool
  | writeHotp .. | writeTotp .. | writeSafe .. => false
  | _ => true

/-- The command of a call that asks one; none for a code slot that does not
exist. -/
def command? : Call → Option Command
  | getStatus | serialNumber | majorVersion | minorVersion | readConfig => some .getStatus
  | writeConfig config adminTemp => some (.writeConfig config adminTemp)
  | setTime reset time => some (.setTime reset time)
  | firstAuthenticate pin temp => some (.firstAuthenticate pin temp)
  | userAuthenticate pin temp => some (.userAuthenticate pin temp)
  | adminRetryCount => some .getAdminRetryCount
  | userRetryCount => some .getUserRetryCount
  | unlockUserPassword adminPin newUserPin => some (.unlockUserPassword adminPin newUserPin)
  | changeAdminPin old new => some (.changeAdminPin old new)
  | changeUserPin old new => some (.changeUserPin old new)
  | lockDevice => some .lockDevice
  | factoryReset adminPin => some (.factoryReset adminPin)
  | newAesKey adminPin => some (.newAesKey adminPin)
  | aesSupported userPin => some (.detectAes userPin)
  | hotpCode index userTemp =>
      (CodeKind.hotp.slotNumber? index).map fun number => .getCode number 0 0 0 userTemp
  | totpCode index challenge lastTime lastInterval userTemp =>
      (CodeKind.totp.slotNumber? index).map fun number =>
        .getCode number challenge lastTime lastInterval userTemp
  | readSlot kind index => (kind.slotNumber? index).map .readSlot
  | slotName kind index => (kind.slotNumber? index).map .readSlotName
  | eraseSlot kind index adminTemp =>
      (kind.slotNumber? index).map fun number => .eraseSlot number adminTemp
  | enableSafe userPin => some (.enableSafe userPin)
  | safeStatus => some .safeStatus
  | safeName index => some (.safeName index)
  | safeLogin index => some (.safeLogin index)
  | safePassword index => some (.safePassword index)
  | eraseSafe index => some (.eraseSafe index)
  | writeHotp .. | writeTotp .. | writeSafe .. => none

end Call

namespace Operation

variable {α : Type} {c : Client}

/-- Operations that ask one command and need nothing checked. -/
theorem asks_always {x : Command} {conclude : Client → Payload → Except DecodeError α × Client} :
    (single (fun _ => .ok x) conclude).Asks c fun cs last => cs = [] ∧ some x = some last := by
  refine asks_single fun last hlast => ?_
  cases hlast
  exact ⟨rfl, rfl⟩

/-- Operations that ask one command about a code slot. -/
theorem asks_numbered {kind : CodeKind} {index : UInt8} {make : UInt8 → Command}
    {conclude : Client → Payload → Except DecodeError α × Client} :
    (single (fun _ => do return make (← codeSlot kind index)) conclude).Asks c fun cs last =>
      cs = [] ∧ (kind.slotNumber? index).map make = some last := by
  intro script hprepare
  obtain ⟨cs, last, hscript, rfl, number, hnumber, rfl⟩ := asks_codeSlot script hprepare
  exact ⟨[], _, hscript, rfl, by rw [hnumber]; rfl⟩

/-- Operations that ask one command about a Password Safe slot. -/
theorem asks_safeSlot {index : UInt8} {make : UInt8 → Command}
    {conclude : Client → Payload → Except DecodeError α × Client} :
    (single (fun c => do return make (← safeSlot index c)) conclude).Asks c fun cs last =>
      cs = [] ∧ some (make index) = some last := by
  refine asks_single fun last hlast => ?_
  obtain ⟨number, hnumber, hlast⟩ := exists_of_bind_ok hlast
  cases hlast
  rw [(of_safeSlot hnumber).1]
  exact ⟨rfl, rfl⟩

theorem asks_safeStatus :
    safeStatus.Asks c fun cs last => cs = [] ∧ some .safeStatus = some last := by
  refine asks_single fun last hlast => ?_
  split at hlast
  · cases hlast
    exact ⟨rfl, rfl⟩
  · cases hlast

end Operation

namespace Call

open Operation

/-- **A call of one command asks that command and nothing else.** -/
theorem asks_command {call : Call} (h : call.single = true) (c : Client) :
    call.operation.Asks c fun cs last => cs = [] ∧ call.command? = some last := by
  cases call with
  | writeHotp index data counter temp => cases h
  | writeTotp index data period temp => cases h
  | writeSafe index name login password => cases h
  | hotpCode index temp => exact asks_numbered
  | totpCode index challenge lastTime lastInterval temp => exact asks_numbered
  | readSlot kind index => exact asks_numbered
  | slotName kind index => exact asks_numbered
  | eraseSlot kind index temp => exact asks_numbered
  | safeName index => exact asks_safeSlot
  | safeLogin index => exact asks_safeSlot
  | safePassword index => exact asks_safeSlot
  | eraseSafe index => exact asks_safeSlot
  | safeStatus => exact asks_safeStatus
  | _ => exact asks_always

end Call

/-! ## §2. What a command that was asked leaves stored. -/

namespace Token

variable {t t' : Token} {x last : Command} {cs : List Command} {payload : Payload} {why : Error}

theorem execute_of_ask_ok (h : t.ask x = (.ok payload, t')) :
    t.execute x.norm = (.ok payload, t') := by
  unfold ask at h
  cases hr : t.execute x.norm with
  | mk answer t'' =>
    rw [hr] at h
    cases answer with
    | error status => cases h
    | ok payload' =>
      cases h
      rfl

theorem store_of_ask_ok (h : t.ask x = (.ok payload, t')) (hwrite : x.id ≠ .writeToSlot) :
    t'.store = x.norm.storeAfter t.config.newKeyKeepsSafe t.store := by
  refine store_of_done (execute_of_ask_ok h) ?_
  rw [Command.id_norm]
  exact hwrite

theorem safeEnabled_of_ask_ok (h : t.ask x = (.ok payload, t')) :
    t'.safeEnabled = (x.norm.turn t.switches).safeEnabled := by
  have hswitch : t'.switches = x.norm.turn t.switches := (effect_of_ask_ok h).switches_eq
  rw [← hswitch]
  rfl

theorem stored_of_ask_error (h : t.ask x = (.error why, t')) : t.SameStored t' := by
  obtain ⟨status, heffect⟩ := effect_of_ask_error h
  exact heffect.stored_of_refused

theorem stored_of_ask_quiet {answer : Except Error Payload} (h : x.id.quiet = true)
    (hask : t.ask x = (answer, t')) : t.SameStored t' := by
  have hquiet : x.norm.id.quiet = true := by
    rw [Command.id_norm]
    exact h
  have hsame : t.SameStored (t.ask x).2 := same_of_quiet hquiet t
  rw [hask] at hsame
  exact hsame

/-- After quiet commands, a command that is refused leaves everything that is
stored alone. -/
theorem stored_of_askAll_error (h : ∀ x ∈ cs, x.id.quiet = true)
    (hall : t.askAll last cs = (.error why, t')) : t.SameStored t' := by
  induction cs generalizing t with
  | nil => exact stored_of_ask_error hall
  | cons x cs ih =>
    unfold askAll at hall
    cases hask : t.ask x with
    | mk answer t₁ =>
      have hsame := stored_of_ask_quiet (h x List.mem_cons_self) hask
      rw [hask] at hall
      cases answer with
      | error why' =>
        cases hall
        exact hsame
      | ok payload => exact hsame.trans (ih (fun y hy => h y (List.mem_cons_of_mem x hy)) hall)

/-- The pieces of a slot are quiet. -/
theorem quiet_of_mem_staging {temp secret : Secret} {name : String}
    (h : x ∈ Operation.stagingCommands temp name secret) : x.id.quiet = true := by
  rcases Operation.of_mem_stagingCommands h with rfl | ⟨chunk, data, rfl⟩
  · rfl
  · rfl

/-- Both parts of a Password Safe slot, with nothing lost of them: the token
stays as it was, or the whole entry is new. -/
theorem askAll_safeParts (t : Token) (index : UInt8) (name login : String) (password : Secret) :
    (∃ why, t.askAll (.setSafeLogin index login) [.setSafePrimary index name password]
        = (.error why, t))
      ∨ ∃ contents, t.store.safe[index.toNat]? = some contents
          ∧ t.askAll (.setSafeLogin index login) [.setSafePrimary index name password]
            = (.ok .empty, t.putSafe index
                ⟨Utf8.untilNul name, Utf8.untilNul login, password.untilNul⟩) := by
  unfold askAll
  rcases t.ask_setSafePrimary index name password with
    ⟨why, hask⟩ | ⟨hopen, contents, hslot, hask⟩
  · rw [hask]
    exact .inl ⟨why, rfl⟩
  · rw [hask]
    exact .inr ⟨contents, hslot, ask_setSafeLogin hopen hslot _ login⟩

/-- A request for a command that stores something leaves the session alone, also
if the token does not read the counter as it was written. -/
theorem session_of_send {q : Request} {encoding : CounterEncoding}
    (hq : x.toRequest encoding = .ok q) (hstores : x.id.stores = true) (t : Token) :
    (Token.line.send t q.toReport).2.session = t.session := by
  by_cases hplug : t.pluggedIn = true
  · rw [send_toReport hplug]
    show (t.handle q).2.session = _
    unfold handle
    cases hparse : Command.parse q t.encoding with
    | error status => rfl
    | ok y =>
      refine (effect_execute t y).session_of_stores ?_
      rw [Command.id_of_parse hq hparse]
      exact hstores
  · rw [send_of_unplugged (Bool.eq_false_iff.mpr hplug)]

/-- Whatever is handed over, the settings of a token stay. -/
theorem keeps_config (config : TokenConfig) : Token.line.Keeps fun t => t.config = config := by
  intro t r ht
  show (t.send r).2.config = config
  by_cases hplug : t.pluggedIn = true
  · rw [send_of_plugged hplug]
    cases Request.ofReport r with
    | error why => exact ht
    | ok q =>
      show (t.handle q).2.config = config
      unfold handle
      split
      · exact ht
      · exact (effect_execute t _).config_eq.trans ht
  · exact (congrArg (fun r => r.2.config)
      (send_of_unplugged (Bool.eq_false_iff.mpr hplug) r)).trans ht

end Token

/-! ## §3. How a call ends. -/

namespace Call

variable {call : Call} {c c' : Client} {t t' : Token} {v : Value} {why : Error}

theorem config_of_perform {result : Except Error Value}
    (h : call.perform Token.line c t = (result, c', t')) : t'.config = t.config := by
  have hkeeps := (Token.keeps_config t.config).perform rfl c call.operation
  rw [show c.perform Token.line call.operation t = (result, c', t') from h] at hkeeps
  exact hkeeps

/-- No call of one command writes a code slot. -/
theorem ne_write_of_command? {x : Command} (hx : call.command? = some x) :
    x.id ≠ .writeToSlot := by
  cases call with
  | writeHotp index data counter temp => cases hx
  | writeTotp index data period temp => cases hx
  | writeSafe index name login password => cases hx
  -- one command about a code slot, and it writes none
  | hotpCode index temp =>
    obtain ⟨number, -, rfl⟩ := Option.map_eq_some_iff.mp hx
    exact CommandId.noConfusion
  | totpCode index challenge lastTime lastInterval temp =>
    obtain ⟨number, -, rfl⟩ := Option.map_eq_some_iff.mp hx
    exact CommandId.noConfusion
  | readSlot kind index =>
    obtain ⟨number, -, rfl⟩ := Option.map_eq_some_iff.mp hx
    exact CommandId.noConfusion
  | slotName kind index =>
    obtain ⟨number, -, rfl⟩ := Option.map_eq_some_iff.mp hx
    exact CommandId.noConfusion
  | eraseSlot kind index temp =>
    obtain ⟨number, -, rfl⟩ := Option.map_eq_some_iff.mp hx
    exact CommandId.noConfusion
  | _ =>
    cases hx
    exact CommandId.noConfusion

/-- So every host writes its command as the token reads it. -/
theorem alike_of_command? {x : Command} (hx : call.command? = some x) (c : Client) (t : Token) :
    ∀ y ∈ [x], y.WrittenAlike c t := by
  intro y hy
  cases List.mem_singleton.mp hy
  exact Command.writtenAlike_of_ne (ne_write_of_command? hx) c t

/-- A call of one command ends in one of the ways in which an operation can end,
whatever the host takes the token to be capable of. -/
theorem performed_single {result : Except Error Value} (hsingle : call.single = true)
    (h : call.perform Token.line c t = (result, c', t')) :
    c.Performed t call.operation (fun cs last => cs = [] ∧ call.command? = some last)
      (result, c', t') := by
  rw [← h]
  refine Client.performed_of_run call.tidy fun script hprepare hplug => ?_
  obtain ⟨cs, last, hasks, rfl, hlast⟩ := asks_command hsingle c script hprepare
  exact ⟨[], last, ⟨rfl, hlast⟩, script.run_alike hplug hasks (alike_of_command? hlast c t) _⟩

/-- **A call of one command that was done has done that command**, and its
value is what the host reads in the answer. -/
theorem of_single_done (hsingle : call.single = true)
    (h : call.perform Token.line c t = (.ok v, c', t')) :
    ∃ x payload after, call.command? = some x ∧ t.ask x = (.ok payload, t')
      ∧ call.operation.conclude c payload = (.ok v, after)
      ∧ c' = { after with lastStatus := .ok } := by
  cases performed_single hsingle h with
  | done hQ hall hconclude =>
    obtain ⟨rfl, hx⟩ := hQ
    exact ⟨_, _, _, hx, hall, hconclude, rfl⟩

/-- What is stored after the command of a call was done. -/
theorem store_of_command? {x : Command} {payload : Payload} (hx : call.command? = some x)
    (hask : t.ask x = (.ok payload, t')) :
    t'.store = x.norm.storeAfter t.config.newKeyKeepsSafe t.store :=
  Token.store_of_ask_ok hask (ne_write_of_command? hx)

theorem stored_of_single_error (hsingle : call.single = true)
    (h : call.perform Token.line c t = (.error why, c', t')) :
    t.SameStored t' := by
  cases performed_single hsingle h with
  | unsent => exact .refl t
  | failed hQ hall =>
    obtain ⟨rfl, -⟩ := hQ
    exact Token.stored_of_ask_error hall
  | unread hQ hall hconclude =>
    obtain ⟨rfl, hx⟩ := hQ
    -- to ask for the details of a slot is quiet
    obtain ⟨kind, index, rfl⟩ := eq_readSlot_of_unread hconclude
    obtain ⟨number, -, rfl⟩ := Option.map_eq_some_iff.mp hx
    exact Token.stored_of_ask_quiet rfl hall

/-! ## §4. Calls about code slots and the clock when they are done. -/

section Done

variable {index lastInterval : UInt8} {challenge lastTime : UInt64} {temp : Secret}

theorem of_setTime {reset : Bool} {time : UInt64}
    (h : (setTime reset time).perform Token.line c t = (.ok v, c', t')) :
    t'.store.codes = t.store.codes ∧ t'.clock = time := by
  obtain ⟨x, payload, after, hx, hask, -⟩ := of_single_done rfl h
  cases hx
  exact (Token.effect_of_ask_ok hask).of_setTime_ok

theorem of_factoryReset {pin : Secret}
    (h : (factoryReset pin).perform Token.line c t = (.ok v, c', t')) :
    t'.clock = t.clock ∧ t'.store.codes = .empty := by
  obtain ⟨x, payload, after, hx, hask, -⟩ := of_single_done rfl h
  cases hx
  exact (Token.effect_of_ask_ok hask).of_factoryReset_ok

theorem of_eraseSlot {kind : CodeKind}
    (h : (eraseSlot kind index temp).perform Token.line c t = (.ok v, c', t')) :
    t'.clock = t.clock ∧ t'.store.codes = t.store.codes.set kind index none := by
  obtain ⟨x, payload, after, hx, hask, -⟩ := of_single_done rfl h
  obtain ⟨number, hnumber, rfl⟩ := Option.map_eq_some_iff.mp hx
  obtain ⟨hclock, kind', index', hnumber', hcodes⟩ :=
    (Token.effect_of_ask_ok hask).of_eraseSlot_ok
  cases (CodeKind.ofSlotNumber?_of_slotNumber? hnumber).symm.trans hnumber'
  exact ⟨hclock, hcodes⟩

/-- A code of an HOTP slot: the code at its counter, which moves on. -/
theorem of_hotpCode (h : (hotpCode index temp).perform Token.line c t = (.ok v, c', t')) :
    t'.clock = t.clock ∧ ∃ slot code, t.store.codes.get? .hotp index = some (some slot)
      ∧ slot.details.counter < t.encoding.maximum
      ∧ counterCode slot.secret.bytes slot.details.counter slot.details.flags.digits = .ok code
      ∧ v = .text code
      ∧ t'.store.codes = t.store.codes.set .hotp index (some { slot with
          details := { slot.details with counter := slot.details.counter + 1 } }) := by
  obtain ⟨x, payload, after, hx, hask, hconclude, -⟩ := of_single_done rfl h
  obtain ⟨number, hnumber, rfl⟩ := Option.map_eq_some_iff.mp hx
  obtain ⟨hclock, slot, code, hslot, hmax, hcode, hpayload, hcodes⟩ :=
    (Token.effect_of_ask_ok hask).of_getCode_hotp_ok (CodeKind.ofSlotNumber?_of_slotNumber? hnumber)
  have hread := Operation.conclude_map Value.text
    (Operation.conclude_code (c := c) hpayload .hotp index 0 0 0 temp)
  cases hread.symm.trans hconclude
  refine ⟨hclock, slot, _, hslot, hmax, ?_, rfl, hcodes⟩
  unfold counterCode
  rw [hcode]
  rfl

/-- A code of a TOTP slot: the code at the clock. -/
theorem of_totpCode (h : (totpCode index challenge lastTime lastInterval temp).perform Token.line c t
      = (.ok v, c', t')) :
    t.SameCodes t' ∧ ∃ slot code, t.store.codes.get? .totp index = some (some slot)
      ∧ timeCode slot.secret.bytes t.clock slot.details.flags.digits slot.details.counter.toUInt32
        = .ok code
      ∧ v = .text code := by
  obtain ⟨x, payload, after, hx, hask, hconclude, -⟩ := of_single_done rfl h
  obtain ⟨number, hnumber, rfl⟩ := Option.map_eq_some_iff.mp hx
  obtain ⟨rfl, slot, step, code, hslot, hstep, hcode, hpayload⟩ :=
    (Token.effect_of_ask_ok hask).of_getCode_totp_ok (CodeKind.ofSlotNumber?_of_slotNumber? hnumber)
  have hread := Operation.conclude_map Value.text (Operation.conclude_code (c := c) hpayload .totp
    index challenge lastTime lastInterval temp)
  cases hread.symm.trans hconclude
  refine ⟨.refl _, slot, _, hslot, ?_, rfl⟩
  unfold timeCode
  rw [hstep]
  show counterCode _ step _ = _
  unfold counterCode
  rw [hcode]
  rfl

end Done

/-! ## §5. The three writes. -/

variable {kind : CodeKind} {index : UInt8} {data : SlotData} {moving : UInt64}

/-- All calls but those of one command write a code slot or a Password Safe
slot. -/
theorem writes_of_not_single (h : ¬ call.single = true) :
    (∃ kind index data moving, call.write? kind index = some (data, moving))
      ∨ ∃ index name login password, call = writeSafe index name login password := by
  cases call with
  | writeHotp index data counter temp => exact .inl ⟨.hotp, index, data, _, if_pos ⟨rfl, rfl⟩⟩
  | writeTotp index data period temp => exact .inl ⟨.totp, index, data, _, if_pos ⟨rfl, rfl⟩⟩
  | writeSafe index name login password => exact .inr ⟨_, _, _, _, rfl⟩
  | _ => exact absurd rfl h

/-- After a write of a code slot the host knows what it has written. -/
theorem conclude_of_write? (h : call.write? kind index = some (data, moving)) (c : Client)
    (payload : Payload) :
    call.operation.conclude c payload = (.ok .nothing, { c with
      known := c.known.withSlot kind index ⟨data.name, data.flags, data.tokenId, moving⟩ }) := by
  obtain ⟨temp, hop⟩ := operation_of_write? h
  rw [hop]
  rfl

/-- **A write of a code slot fails and changes nothing that is stored, or it is
done**: then the slot has the counter that the token reads where the host wrote
it, and as much of the secret as there is room for. -/
theorem write_ends {result : Except Error Value}
    (hwrite : call.write? kind index = some (data, moving))
    (h : call.perform Token.line c t = (result, c', t')) :
    (∃ why, result = .error why ∧ t.SameStored t')
      ∨ ∃ read slot, result = .ok .nothing
          ∧ (∃ secret, Secret.ofHex data.secret c.capabilities.secretLength = .ok secret)
          ∧ moving ≤ c.capabilities.encoding.maximum
          ∧ c.capabilities.encoding.carry? t.encoding moving = some read
          ∧ ¬ (kind = .totp ∧ read = 0)
          ∧ (SlotFamily.code kind).holds index = true
          ∧ slot.Takes data read t.capabilities.secretLength (t.store.codes.at? kind index)
          ∧ t' = { t with
              staged := .empty
              store := { t.store with codes := t.store.codes.set kind index (some slot) } }
          ∧ c' = { c with
              known := c.known.withSlot kind index ⟨data.name, data.flags, data.tokenId, moving⟩
              lastStatus := .ok } := by
  unfold perform at h
  cases hprepare : (call.operation.prepare c).1 with
  | error why =>
    rw [Client.perform_of_refused call.tidy hprepare] at h
    cases h
    exact .inl ⟨why, rfl, .refl _⟩
  | ok script =>
    obtain ⟨cs, last, ⟨hopening, hfinal⟩, hasks⟩ := call.asks c script hprepare
    obtain ⟨temp, hasks⟩ := asks_of_write? hwrite hasks
    obtain ⟨number, secret, hnumber, hsecret, rfl, rfl⟩ := hasks
    rw [Client.perform_of_prepared call.tidy hprepare] at h
    by_cases hplug : t.pluggedIn = true
    · have hquiet : ∀ x ∈ Operation.stagingCommands temp data.name secret, x.id.quiet = true :=
        fun x => Token.quiet_of_mem_staging
      have halike : ∀ x ∈ Operation.stagingCommands temp data.name secret, x.WrittenAlike c t := by
        intro x hx
        refine Command.writtenAlike_of_ne (fun hid => ?_) c t
        cases (congrArg CommandId.quiet hid).symm.trans (hquiet x hx)
      rcases Script.run_opening hplug halike hopening c.options.verifyCrc with
        ⟨why, t₁, hrun, hall⟩ | ⟨t₁, htaken, hplug₁, hconfig₁, hall, hrun⟩
      · -- a piece was refused
        rw [hrun, Client.finish_error] at h
        cases h
        exact .inl ⟨why, rfl, Token.stored_of_askAll_error hquiet
          (hall (.writeToSlot temp number moving data.flags data.tokenId))⟩
      · -- all pieces are there, and the token reads the request of the write
        have hstaged : t.SameStored t₁ := by
          obtain ⟨-, ht₁⟩ := Token.eq_of_taken_staging
            (Nat.le_trans (Secret.of_ofHex hsecret).2 (Capabilities.secretLength_le _)) htaken
          rw [ht₁]
          exact ⟨rfl, rfl⟩
        have hencoding : t₁.encoding = t.encoding :=
          congrArg Capabilities.encoding (Token.capabilities_eq hconfig₁)
        have hq := Client.toRequest_of_request hfinal
        have hparse : Command.parse script.final t.encoding = _ := Command.parse_write hq
        rw [hrun, Request.exchange_handle hplug₁] at h
        unfold Token.handle at h
        rw [hencoding, hparse] at h
        cases hcarry : c.capabilities.encoding.carry? t.encoding moving with
        | none =>
          rw [hcarry] at h
          cases h
          exact .inl ⟨_, rfl, hstaged⟩
        | some read =>
          rw [hcarry] at h
          dsimp only at h
          have hask : t₁.ask (.writeToSlot temp number read data.flags data.tokenId)
              = ((t₁.execute (Command.norm _)).1.mapError .device,
                  (t₁.execute (Command.norm _)).2) := rfl
          cases hr : t₁.execute (Command.writeToSlot temp number read data.flags data.tokenId).norm
            with
          | mk answer t₂ =>
            rw [hr] at h hask
            cases answer with
            | error status =>
              cases h
              exact .inl ⟨_, rfl, hstaged.trans (Token.stored_of_ask_error hask)⟩
            | ok payload =>
              have hroom : moving ≤ c.capabilities.encoding.maximum := by
                have hfits := Command.forall_fits_iff.mp
                  ((Command.toRequest_isOk_iff _ _).mp ⟨_, hq⟩)
                exact CounterEncoding.le_maximum_iff.mpr fun hascii => hfits.2 hascii moving rfl
              have hasks : Operation.AsksWrite c kind index data read temp
                  (Operation.stagingCommands temp data.name secret)
                  (.writeToSlot temp number read data.flags data.tokenId) :=
                ⟨number, secret, hnumber, hsecret, rfl, rfl⟩
              obtain ⟨hholds, slot, htakes, hperiod, ht₂⟩ := Token.takes_of_write hasks htaken hask
              dsimp only [Except.mapError] at h
              rw [Client.finish_of_read (conclude_of_write? hwrite c payload)] at h
              cases h
              exact .inr ⟨read, slot, rfl, ⟨secret, hsecret⟩, hroom, rfl, hperiod, hholds, htakes, ht₂,
                rfl⟩
    · rw [script.run_unplugged (Bool.eq_false_iff.mpr hplug), Client.finish_error] at h
      cases h
      exact .inl ⟨_, rfl, .refl _⟩

/-- **A write of a code slot that was done**, by a host that knows what the token
is capable of. -/
theorem of_write_done (hwrite : call.write? kind index = some (data, moving))
    (hcap : c.capabilities = t.capabilities)
    (h : call.perform Token.line c t = (.ok v, c', t')) :
    ∃ slot, slot.Holds data moving t.capabilities.secretLength (t.store.codes.at? kind index)
      ∧ t' = { t with
          staged := .empty
          store := { t.store with codes := t.store.codes.set kind index (some slot) } }
      ∧ c' = { c with
          known := c.known.withSlot kind index ⟨data.name, data.flags, data.tokenId, moving⟩
          lastStatus := .ok } := by
  cases performed hcap h with
  | done hasks hall hconclude =>
    obtain ⟨temp, hasks⟩ := asks_of_write? hwrite hasks
    obtain ⟨t₁, htaken, hask⟩ := Token.taken_of_askAll_ok hall
    obtain ⟨-, slot, hholds, rfl⟩ := Token.of_write hcap hasks htaken hask
    cases (conclude_of_write? hwrite c _).symm.trans hconclude
    exact ⟨slot, hholds, rfl, rfl⟩

/-- **A write of a Password Safe slot is done or changes nothing.** -/
theorem of_writeSafe {name login password : String} {result : Except Error Value}
    (h : (writeSafe index name login password).perform Token.line c t = (result, c', t')) :
    (∃ why, result = .error why ∧ t' = t)
      ∨ ∃ contents, result = .ok .nothing ∧ t.store.safe[index.toNat]? = some contents
          ∧ t' = t.putSafe index ⟨Utf8.untilNul name, Utf8.untilNul login,
              (Secret.ofText password).untilNul⟩
          ∧ c' = { c with known := c.known.withSafeSlot index true, lastStatus := .ok } := by
  have hperformed : c.Performed t (writeSafe index name login password).operation
      (fun cs last => cs = [.setSafePrimary index name (.ofText password)]
        ∧ last = .setSafeLogin index login)
      ((writeSafe index name login password).perform Token.line c t) := by
    refine Client.performed_of_run (tidy _) fun script hprepare hplug => ?_
    obtain ⟨cs, last, hasks, rfl, rfl⟩ := Operation.asks_writeSafe script hprepare
    refine ⟨_, _, ⟨rfl, rfl⟩, script.run_alike hplug hasks (fun x hx => ?_) _⟩
    -- neither part writes a counter
    rcases List.mem_cons.mp hx with rfl | hx
    · rfl
    · cases List.mem_singleton.mp hx
      rfl
  rw [h] at hperformed
  have hparts := t.askAll_safeParts index name login (.ofText password)
  cases hperformed with
  | unsent => exact .inl ⟨_, rfl, rfl⟩
  | failed hQ hall =>
    obtain ⟨rfl, rfl⟩ := hQ
    rcases hparts with ⟨why, hrefused⟩ | ⟨contents, -, hdone⟩
    · cases hrefused.symm.trans hall
      exact .inl ⟨_, rfl, rfl⟩
    · cases hdone.symm.trans hall
  | unread _ _ hconclude => cases hconclude
  | done hQ hall hconclude =>
    obtain ⟨rfl, rfl⟩ := hQ
    rcases hparts with ⟨why, hrefused⟩ | ⟨contents, hslot, hdone⟩
    · cases hrefused.symm.trans hall
    · cases hdone.symm.trans hall
      cases hconclude
      exact .inr ⟨contents, rfl, hslot, rfl, rfl⟩

/-- The commands of a write are those that store something. -/
theorem asks_stores (h : ¬ call.single = true) (c : Client) :
    call.operation.Asks c fun cs last => ∀ x ∈ last :: cs, x.id.stores = true := by
  rcases writes_of_not_single h with ⟨kind, index, data, moving, hwrite⟩ |
    ⟨index, name, login, password, rfl⟩
  · intro script hprepare
    obtain ⟨cs, last, hscript, hasks⟩ := call.asks c script hprepare
    obtain ⟨temp, number, secret, -, -, rfl, rfl⟩ := asks_of_write? hwrite hasks
    refine ⟨_, _, hscript, List.forall_mem_cons.mpr ⟨rfl, fun x hx => ?_⟩⟩
    rcases Operation.of_mem_stagingCommands hx with rfl | ⟨chunk, data, rfl⟩
    · rfl
    · rfl
  · intro script hprepare
    obtain ⟨cs, last, hscript, rfl, rfl⟩ := Operation.asks_writeSafe script hprepare
    exact ⟨_, _, hscript, List.forall_mem_cons.mpr ⟨rfl, List.forall_mem_singleton.mpr rfl⟩⟩

/-- **A write leaves PINs, attempts and temporary passwords alone**, done or
not. -/
theorem session_of_not_single (h : ¬ call.single = true) (c : Client) (t : Token) :
    (call.perform Token.line c t).2.2.session = t.session := by
  unfold perform
  cases hprepare : (call.operation.prepare c).1 with
  | error why => rw [Client.perform_of_refused call.tidy hprepare]
  | ok script =>
    obtain ⟨cs, last, hscript, hstores⟩ := asks_stores h c script hprepare
    rw [Client.perform_of_prepared call.tidy hprepare]
    let I (t' : Token) := t'.session = t.session
    refine script.run_keeps (I := I) (fun q hq t' ht' => ?_) rfl c.options.verifyCrc
    obtain ⟨x, hx, hrequest⟩ := hscript.exists_command hq
    have hx : x ∈ last :: cs := by
      rcases hx with hx | rfl
      · exact List.mem_cons_of_mem last hx
      · exact List.mem_cons_self
    exact (Token.session_of_send hrequest (hstores x hx) t').trans ht'

/-- **A call that fails leaves slots, config register and the state of the
Password Safe alone.** -/
theorem stored_of_error (h : call.perform Token.line c t = (.error why, c', t')) :
    t.SameStored t' := by
  by_cases hsingle : call.single = true
  · exact stored_of_single_error hsingle h
  · rcases writes_of_not_single hsingle with ⟨kind, index, data, moving, hwrite⟩ |
      ⟨index, name, login, password, rfl⟩
    · rcases write_ends hwrite h with ⟨-, -, hsame⟩ | ⟨read, slot, hdone, -⟩
      · exact hsame
      · cases hdone
    · rcases of_writeSafe h with ⟨why, -, rfl⟩ | ⟨contents, hdone, -⟩
      · exact .refl _
      · cases hdone

end Call

/-! ## §6. Runs. -/

namespace World

/-- The token has these settings, and the host goes by what it is capable
of. -/
structure Fits (config : TokenConfig) (w : World) : Prop where
  config : w.token.config = config
  capabilities : w.client.capabilities = w.token.capabilities

/-- A call is done and becomes the last of the past, or it fails and leaves
the past as it was. -/
theorem step_call (w : World) (call : Call) :
    (∃ why client token, call.perform Token.line w.client w.token = (.error why, client, token)
        ∧ w.step (.call call) = ⟨client, token, w.past⟩)
      ∨ ∃ v client token, call.perform Token.line w.client w.token = (.ok v, client, token)
          ∧ w.step (.call call) = ⟨client, token, call :: w.past⟩ := by
  unfold step
  dsimp only
  cases call.perform Token.line w.client w.token with
  | mk result after =>
    obtain ⟨client, token⟩ := after
    cases result with
    | error why => exact .inl ⟨why, client, token, rfl, rfl⟩
    | ok v => exact .inr ⟨v, client, token, rfl, rfl⟩

theorem Fits.step {config : TokenConfig} {w : World} (h : w.Fits config) (event : Event) :
    (w.step event).Fits config := by
  have hafter : ∀ {call : Call} {result client token},
      call.perform Token.line w.client w.token = (result, client, token) →
      ∀ past, Fits config ⟨client, token, past⟩ := by
    intro call result client token hperform past
    obtain ⟨hconfig, hcap⟩ := Call.settings_of_perform h.capabilities hperform
    refine ⟨hconfig.trans h.config, ?_⟩
    show client.capabilities = token.capabilities
    rw [hcap, Token.capabilities_eq hconfig]
    exact h.capabilities
  cases event with
  | unplug => exact ⟨h.config, h.capabilities⟩
  | plugIn => exact ⟨h.config, h.capabilities⟩
  | call call =>
    rcases w.step_call call with ⟨why, client, token, hperform, hstep⟩ |
      ⟨v, client, token, hperform, hstep⟩
    · rw [hstep]
      exact hafter hperform _
    · rw [hstep]
      exact hafter hperform _

/-- **What holds at the start and is preserved by every event holds after every
run**, and so does `Fits`. -/
theorem fits_induction {config : TokenConfig} {w : World} {I : World → Prop} (hfits : w.Fits config)
    (h : I w) (hstep : ∀ w event, w.Fits config → I w → I (w.step event)) (events : List Event) :
    (w.run events).Fits config ∧ I (w.run events) :=
  run_induction (I := fun w => w.Fits config ∧ I w) ⟨hfits, h⟩
    (fun w event h => ⟨h.1.step event, hstep w event h.1 h.2⟩) events

end World

end OtpToken
