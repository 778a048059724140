/-
  OtpToken.Proofs.Client.Agreement
  ────────────────────────────────
  **WHAT THE HOST KNOWS OF A TOKEN IS TRUE.**

  The host keeps a view of the slots and the config register next to the token
  and changes it on its own, operation by operation.  `Knowledge.TrueOf` says
  that everything in the view is so on the token; there is one lemma for each
  change of the view, next to the change of the token that goes with it.

  A call that fails changes neither, a call that is done changes both in the
  same way (`Client.Agrees.of_done`), and so they agree after every run
  (`host_view_over_runs`).
-/
import OtpToken.Proofs.Client.Connect
import OtpToken.Proofs.Client.Latch
import OtpToken.Proofs.Client.Single
import OtpToken.Proofs.Record

namespace OtpToken

/-! ## §1. Texts that are cut. -/

/-- Every code slot has its texts cut. -/
def Store.Cut (s : Store) : Prop :=
  ∀ kind index slot, s.codes.at? kind index = some slot → slot.details.cut = slot.details

namespace Store.Cut

variable {s : Store} {kind : CodeKind} {index : UInt8}

theorem empty : Store.empty.Cut := by
  intro kind index slot h
  exact absurd (CodeTable.at?_empty.symm.trans h) nofun

/-- One slot changed: it is enough that its new details are cut. -/
theorem set {contents : Option CodeSlot} (h : s.Cut)
    (hcut : ∀ slot, contents = some slot → slot.details.cut = slot.details) :
    Cut { s with codes := s.codes.set kind index contents } := by
  intro kind' index' slot hslot
  rcases CodeTable.of_at?_set hslot with ⟨-, -, hcontents⟩ | ⟨-, hold⟩
  · exact hcut slot hcontents
  · exact h kind' index' slot hold

theorem erased (h : s.Cut) (number : UInt8) : (s.erased number).Cut := by
  unfold Store.erased
  split
  · exact h.set nofun
  · exact h

theorem used (h : s.Cut) (number : UInt8) : (s.used number).Cut := by
  unfold Store.used
  split
  · next index _ =>
    refine h.set fun slot hslot => ?_
    obtain ⟨before, hbefore, rfl⟩ := Option.map_eq_some_iff.mp hslot
    have hcut : before.details.cut = before.details := h .hotp index before hbefore
    show (⟨before.details.cut.name, before.details.flags, before.details.cut.tokenId,
      before.details.counter + 1⟩ : SlotDetails) = _
    rw [hcut]
    rfl
  · exact h

/-- **No command but a write lets in a text that is not cut.** -/
theorem storeAfter (h : s.Cut) (keeps : Bool) (x : Command) : (x.storeAfter keeps s).Cut := by
  cases x with
  | eraseSlot number temp => exact h.erased number
  | getCode number challenge lastTime lastInterval temp => exact h.used number
  | factoryReset pin => exact empty
  | newAesKey pin =>
    show (if keeps then s else s.clearSafe).Cut
    split
    · exact h
    · exact h
  | _ => exact h

end Store.Cut

/-! ## §2. What the host knows. -/

/-- **Everything that the host knows is so on the token.** -/
structure Knowledge.TrueOf (k : Knowledge) (s : Store) : Prop where
  codes : ∀ kind index d, k.codes.at? kind index = some d →
    ∃ slot, s.codes.at? kind index = some slot ∧ slot.details = d.cut
  safe : ∀ status, k.safe = some status → status = s.safeStatus
  config : ∀ config, k.config = some config → config = s.config

namespace Knowledge.TrueOf

variable {k : Knowledge} {s : Store} {kind : CodeKind} {index : UInt8} {d : SlotDetails}
  {slot : CodeSlot}

theorem empty (s : Store) : Knowledge.empty.TrueOf s :=
  ⟨fun _ _ _ h => absurd (CodeTable.at?_empty.symm.trans h) nofun, nofun, nofun⟩

/-- The config register was read. -/
theorem withConfig (h : k.TrueOf s) : (k.withConfig s.config).TrueOf s := by
  refine ⟨h.codes, h.safe, ?_⟩
  rintro config ⟨⟩
  rfl

/-- The config register was written. -/
theorem configured (h : k.TrueOf s) (config : Config) :
    (k.withConfig config).TrueOf { s with config } := by
  refine ⟨h.codes, h.safe, ?_⟩
  rintro config ⟨⟩
  rfl

/-- A code slot was read. -/
theorem withSlot (h : k.TrueOf s) (hslot : s.codes.at? kind index = some slot)
    (hdetails : slot.details = d.cut) : (k.withSlot kind index d).TrueOf s := by
  refine ⟨?_, h.safe, h.config⟩
  intro kind' index' d' hd
  rcases CodeTable.of_at?_set hd with ⟨rfl, rfl, hnew⟩ | ⟨-, hold⟩
  · cases hnew
    exact ⟨slot, hslot, hdetails⟩
  · exact h.codes kind' index' d' hold

/-- What is known of other slots stays true when one is changed on both
sides. -/
theorem set {known : Option SlotDetails} {contents : Option CodeSlot} (h : k.TrueOf s)
    (hplace : ∀ d, known = some d → (SlotFamily.code kind).holds index = true →
      ∃ slot, contents = some slot ∧ slot.details = d.cut) :
    TrueOf { k with codes := k.codes.set kind index known }
      { s with codes := s.codes.set kind index contents } := by
  refine ⟨?_, h.safe, h.config⟩
  intro kind' index' d hd
  rcases CodeTable.of_at?_set hd with ⟨rfl, rfl, hnew⟩ | ⟨hother, hold⟩
  · have hholds := CodeTable.holds_of_at? hd
    obtain ⟨slot, hcontents, hdetails⟩ := hplace d hnew hholds
    exact ⟨slot, (CodeTable.at?_set_self hholds).trans hcontents, hdetails⟩
  · obtain ⟨slot, hslot, hdetails⟩ := h.codes kind' index' d hold
    exact ⟨slot, (CodeTable.at?_set_of_ne hother).trans hslot, hdetails⟩

/-- A code slot was written. -/
theorem written (h : k.TrueOf s) (hdetails : slot.details = d.cut) :
    (k.withSlot kind index d).TrueOf
      { s with codes := s.codes.set kind index (some slot) } := by
  refine h.set fun d' hd _ => ?_
  cases hd
  exact ⟨slot, rfl, hdetails⟩

/-- A code slot was emptied. -/
theorem erased (h : k.TrueOf s) :
    (k.withoutSlot kind index).TrueOf { s with codes := s.codes.set kind index none } :=
  h.set nofun

/-- A code was given out: both counters move on, if the host knows one. -/
theorem used (h : k.TrueOf s) :
    (k.withHotpUse index).TrueOf
      { s with
        codes := s.codes.set .hotp index ((s.codes.at? .hotp index).map CodeSlot.counted) } := by
  unfold Knowledge.withHotpUse
  cases hknown : k.codes.at? .hotp index with
  | none =>
    refine ⟨?_, h.safe, h.config⟩
    intro kind' index' d hd
    have hother : kind' = .hotp → index' ≠ index := by
      rintro rfl rfl
      cases hknown.symm.trans hd
    obtain ⟨slot, hslot, hdetails⟩ := h.codes kind' index' d hd
    exact ⟨slot, (CodeTable.at?_set_of_ne hother).trans hslot, hdetails⟩
  | some d =>
    obtain ⟨slot, hslot, hdetails⟩ := h.codes .hotp index d hknown
    refine h.set fun d' hd _ => ?_
    cases hd
    refine ⟨slot.counted, by rw [hslot]; rfl, ?_⟩
    show { slot.details with counter := slot.details.counter + 1 } = _
    rw [hdetails]
    rfl

/-- The status of the Password Safe was read. -/
theorem withSafe (h : k.TrueOf s) : (k.withSafe s.safeStatus).TrueOf s := by
  refine ⟨h.codes, ?_, h.config⟩
  rintro status ⟨⟩
  rfl

/-- A Password Safe slot was written or emptied. -/
theorem putSafe (h : k.TrueOf s) (contents : Option SafeEntry) :
    (k.withSafeSlot index contents.isSome).TrueOf (s.putSafe index contents) := by
  refine ⟨h.codes, ?_, h.config⟩
  intro status hstatus
  obtain ⟨before, hbefore, rfl⟩ := Option.map_eq_some_iff.mp hstatus
  rw [h.safe before hbefore]
  exact congrArg SafeStatus.mk Vector.map_setIfInBounds.symm

/-- Nothing is known of the Password Safe any more. -/
theorem withoutSafe (h : k.TrueOf s) (safe : Vector (Option SafeEntry) safeCapacity) :
    k.withoutSafe.TrueOf { s with safe } :=
  ⟨h.codes, nofun, h.config⟩

end Knowledge.TrueOf

/-! ## §3. What the host learns. -/

namespace Operation

variable {α : Type} {c after : Client} {payload : Payload} {t t' : Token}

/-- From an answer that is only read the host learns nothing. -/
theorem eq_of_conclude_ask {command : Client → Except Error Command} {decoder : Decoder α} {a : α}
    (h : (ask command decoder).conclude c payload = (.ok a, after)) : after = c := by
  obtain ⟨b, -, hlearn⟩ := of_conclude_consult h
  exact (congrArg Prod.snd hlearn).symm

/-- From a status the host learns the config register. -/
theorem of_conclude_getStatus {d : DeviceStatus} (hask : t.ask .getStatus = (.ok payload, t'))
    (h : getStatus.conclude c payload = (.ok d, after)) :
    after = { c with known := c.known.withConfig t.store.config } := by
  obtain ⟨told, -⟩ := Token.of_tell_ok (Token.execute_of_ask_ok hask)
  obtain ⟨payload', hencode, hdecode⟩ := StatusRecord.exists_encode t.statusRecord
  cases hencode.symm.trans told
  obtain ⟨r, hr, hlearn⟩ := of_conclude_consult h
  cases hdecode.symm.trans hr
  exact (congrArg Prod.snd hlearn).symm

/-- From a slot that is read the host learns its details. -/
theorem of_conclude_readSlot {kind : CodeKind} {index number : UInt8} {d : SlotDetails}
    (hcap : c.capabilities = t.capabilities) (hnumber : kind.slotNumber? index = some number)
    (hask : t.ask (.readSlot number) = (.ok payload, t'))
    (h : (readSlot kind index).conclude c payload = (.ok d, after)) :
    ∃ slot, t.store.codes.at? kind index = some slot
      ∧ after = { c with known := c.known.withSlot kind index slot.details.cut } := by
  obtain ⟨-, kind', index', slot, hnumber', hslot, told⟩ :=
    Token.of_tellSlot_ok (Token.execute_of_ask_ok hask)
  cases (CodeKind.ofSlotNumber?_of_slotNumber? hnumber).symm.trans hnumber'
  have hdecode : (SlotDetails.decoder c.capabilities.encoding).decode payload.bytes
      = .ok slot.details.cut := by
    rw [hcap]
    exact SlotDetails.decode_encode told
  obtain ⟨d', hd, hlearn⟩ := of_conclude_consult h
  cases hdecode.symm.trans hd
  exact ⟨slot, congrArg Option.join hslot, (congrArg Prod.snd hlearn).symm⟩

/-- From its status the host learns which Password Safe slots are
programmed. -/
theorem of_conclude_safeStatus {status : SafeStatus}
    (hask : t.ask .safeStatus = (.ok payload, t'))
    (h : safeStatus.conclude c payload = (.ok status, after)) :
    after = { c with known := c.known.withSafe t.store.safeStatus } := by
  cases Token.of_withSafe_ok (Token.execute_of_ask_ok hask)
  obtain ⟨status', hstatus, hlearn⟩ := of_conclude_consult h
  cases (SafeStatus.decode_ofSafeStatus t.store.safeStatus).symm.trans hstatus
  exact (congrArg Prod.snd hlearn).symm

/-- From a code of an HOTP slot the host learns that a counter has moved
on. -/
theorem of_conclude_hotpCode {index : UInt8} {temp : Secret} {text : String}
    (h : (hotpCode index temp).conclude c payload = (.ok text, after)) :
    after = { c with known := c.known.withHotpUse index } := by
  unfold hotpCode code at h
  obtain ⟨r, -, hlearn⟩ := of_conclude_consult h
  exact (congrArg Prod.snd hlearn).symm

theorem eq_of_conclude_totpCode {index lastInterval : UInt8} {challenge lastTime : UInt64}
    {temp : Secret} {text : String}
    (h : (totpCode index challenge lastTime lastInterval temp).conclude c payload
      = (.ok text, after)) : after = c := by
  unfold totpCode code at h
  obtain ⟨r, -, hlearn⟩ := of_conclude_consult h
  exact (congrArg Prod.snd hlearn).symm

end Operation

/-! ## §4. Host and token. -/

/-- What the host knows is so on the token, and both say the same of the
Password Safe. -/
structure Client.Agrees (c : Client) (t : Token) : Prop where
  known : c.known.TrueOf t.store
  safeEnabled : c.safeEnabled = t.safeEnabled

namespace Client.Agrees

variable {call : Call} {c c' : Client} {t t' : Token} {v : Value}

/-- Nothing was learned, and nothing stored has changed. -/
theorem of_same (h : c.Agrees t) (hsame : t.SameStored t') (hknown : c'.known = c.known)
    (hsafe : c'.safeEnabled = c.safeEnabled) : c'.Agrees t' := by
  refine ⟨?_, ?_⟩
  · rw [hknown, hsame.1]
    exact h.known
  · rw [hsafe, hsame.2]
    exact h.safeEnabled

/-- An answer was only read, and nothing stored has changed. -/
theorem of_ask {α : Type} {x : Command} {payload : Payload} {after : Client} {a : α}
    {command : Client → Except Error Command} {decoder : Decoder α} (h : c.Agrees t)
    (hquiet : x.id.quiet = true) (hask : t.ask x = (.ok payload, t'))
    (hconclude : (Operation.ask command decoder).conclude c payload = (.ok a, after)) :
    after.Agrees t' := by
  rw [Operation.eq_of_conclude_ask hconclude]
  exact h.of_same (Token.stored_of_ask_quiet hquiet hask) rfl rfl

/-- A command was done, and the host has learned what it leaves stored. -/
theorem of_command {x : Command} {payload : Payload} {after : Client} {s : Store}
    (hask : t.ask x = (.ok payload, t')) (hstore : t'.store = s) (hknown : after.known.TrueOf s)
    (hsafe : after.safeEnabled = (x.norm.turn t.switches).safeEnabled) : after.Agrees t' := by
  refine ⟨?_, ?_⟩
  · rw [hstore]
    exact hknown
  · rw [Token.safeEnabled_of_ask_ok hask]
    exact hsafe

/-- The config register was learned, and nothing stored has changed. -/
theorem of_status {payload : Payload} {after : Client} {d : DeviceStatus} (h : c.Agrees t)
    (hask : t.ask .getStatus = (.ok payload, t'))
    (hconclude : Operation.getStatus.conclude c payload = (.ok d, after)) : after.Agrees t' := by
  rw [Operation.of_conclude_getStatus hask hconclude]
  exact of_command hask (Token.stored_of_ask_quiet rfl hask).1 h.known.withConfig h.safeEnabled

/-- **A call of one command keeps host and token agreed.** -/
theorem of_single (h : c.Agrees t) (hcut : t.store.Cut) (hcap : c.capabilities = t.capabilities)
    (hsingle : call.single = true) (hdone : call.perform Token.line c t = (.ok v, c', t')) :
    c'.Agrees t' := by
  obtain ⟨x, payload, after, hx, hask, hconclude, rfl⟩ := Call.of_single_done hsingle hdone
  have hstore := Call.store_of_command? hx hask
  suffices hafter : after.Agrees t' from ⟨hafter.known, hafter.safeEnabled⟩
  cases call with
  | writeHotp index data counter temp => cases hsingle
  | writeTotp index data period temp => cases hsingle
  | writeSafe index name login password => cases hsingle
  -- the register and the other parts of a status
  | getStatus =>
    cases hx
    obtain ⟨d, hconclude, -⟩ := Operation.of_conclude_map hconclude
    exact h.of_status hask hconclude
  | serialNumber =>
    cases hx
    obtain ⟨text, hconclude, -⟩ := Operation.of_conclude_map hconclude
    obtain ⟨d, hconclude, -⟩ := Operation.of_conclude_map hconclude
    exact h.of_status hask hconclude
  | majorVersion =>
    cases hx
    obtain ⟨number, hconclude, -⟩ := Operation.of_conclude_map hconclude
    obtain ⟨d, hconclude, -⟩ := Operation.of_conclude_map hconclude
    exact h.of_status hask hconclude
  | minorVersion =>
    cases hx
    obtain ⟨number, hconclude, -⟩ := Operation.of_conclude_map hconclude
    obtain ⟨d, hconclude, -⟩ := Operation.of_conclude_map hconclude
    exact h.of_status hask hconclude
  | readConfig =>
    cases hx
    obtain ⟨config, hconclude, -⟩ := Operation.of_conclude_map hconclude
    obtain ⟨d, hconclude, -⟩ := Operation.of_conclude_map hconclude
    exact h.of_status hask hconclude
  | writeConfig config temp =>
    cases hx
    cases hconclude
    exact of_command hask hstore (h.known.configured config) h.safeEnabled
  -- both sides open or close the Password Safe, and two of them forget
  | enableSafe pin =>
    cases hx
    cases hconclude
    exact of_command hask hstore h.known rfl
  | lockDevice =>
    cases hx
    cases hconclude
    exact of_command hask hstore h.known rfl
  | factoryReset pin =>
    cases hx
    cases hconclude
    exact of_command hask hstore (.empty _) rfl
  | newAesKey pin =>
    cases hx
    cases hconclude
    refine of_command hask hstore ?_ rfl
    show c.known.withoutSafe.TrueOf (if _ then t.store else t.store.clearSafe)
    split
    · exact h.known.withoutSafe t.store.safe
    · exact h.known.withoutSafe _
  -- code slots
  | hotpCode index temp =>
    obtain ⟨number, hnumber, rfl⟩ := Option.map_eq_some_iff.mp hx
    obtain ⟨text, hconclude, -⟩ := Operation.of_conclude_map hconclude
    rw [Operation.of_conclude_hotpCode hconclude]
    have hused := t.store.used_of_hotp (CodeKind.ofSlotNumber?_of_slotNumber? hnumber)
    exact of_command hask (hstore.trans hused) h.known.used h.safeEnabled
  | totpCode index challenge lastTime lastInterval temp =>
    obtain ⟨number, hnumber, rfl⟩ := Option.map_eq_some_iff.mp hx
    obtain ⟨text, hconclude, -⟩ := Operation.of_conclude_map hconclude
    rw [Operation.eq_of_conclude_totpCode hconclude]
    have hused := t.store.used_of_totp (CodeKind.ofSlotNumber?_of_slotNumber? hnumber)
    exact of_command hask (hstore.trans hused) h.known h.safeEnabled
  | readSlot kind index =>
    obtain ⟨number, hnumber, rfl⟩ := Option.map_eq_some_iff.mp hx
    obtain ⟨d, hconclude, -⟩ := Operation.of_conclude_map hconclude
    obtain ⟨slot, hslot, rfl⟩ := Operation.of_conclude_readSlot hcap hnumber hask hconclude
    -- what was read has its texts cut, as it had them on the token
    refine of_command hask hstore (h.known.withSlot hslot ?_) h.safeEnabled
    rw [hcut kind index slot hslot, hcut kind index slot hslot]
  | slotName kind index =>
    obtain ⟨number, hnumber, rfl⟩ := Option.map_eq_some_iff.mp hx
    obtain ⟨text, hconclude, -⟩ := Operation.of_conclude_map hconclude
    exact h.of_ask rfl hask hconclude
  | eraseSlot kind index temp =>
    obtain ⟨number, hnumber, rfl⟩ := Option.map_eq_some_iff.mp hx
    cases hconclude
    have herased := t.store.erased_of_number (CodeKind.ofSlotNumber?_of_slotNumber? hnumber)
    exact of_command hask (hstore.trans herased) h.known.erased h.safeEnabled
  -- the Password Safe
  | safeStatus =>
    cases hx
    obtain ⟨status, hconclude, -⟩ := Operation.of_conclude_map hconclude
    rw [Operation.of_conclude_safeStatus hask hconclude]
    exact of_command hask hstore h.known.withSafe h.safeEnabled
  | eraseSafe index =>
    cases hx
    cases hconclude
    exact of_command hask hstore (h.known.putSafe none) h.safeEnabled
  | safeName index =>
    cases hx
    obtain ⟨text, hconclude, -⟩ := Operation.of_conclude_map hconclude
    exact h.of_ask rfl hask hconclude
  | safeLogin index =>
    cases hx
    obtain ⟨text, hconclude, -⟩ := Operation.of_conclude_map hconclude
    exact h.of_ask rfl hask hconclude
  | safePassword index =>
    cases hx
    obtain ⟨text, hconclude, -⟩ := Operation.of_conclude_map hconclude
    exact h.of_ask rfl hask hconclude
  -- attempts that are left, and the AES key
  | adminRetryCount =>
    cases hx
    obtain ⟨number, hconclude, -⟩ := Operation.of_conclude_map hconclude
    exact h.of_ask rfl hask hconclude
  | userRetryCount =>
    cases hx
    obtain ⟨number, hconclude, -⟩ := Operation.of_conclude_map hconclude
    exact h.of_ask rfl hask hconclude
  | aesSupported pin =>
    cases hx
    obtain ⟨flag, hconclude, -⟩ := Operation.of_conclude_map hconclude
    obtain ⟨number, hconclude, -⟩ := Operation.of_conclude_map hconclude
    exact h.of_ask rfl hask hconclude
  -- nothing is read and nothing learned
  | _ =>
    cases hx
    cases hconclude
    exact h.of_same (Token.stored_of_ask_quiet rfl hask) rfl rfl

/-- **Every call that is done keeps host and token agreed.** -/
theorem of_done (h : c.Agrees t) (hcut : t.store.Cut) (hcap : c.capabilities = t.capabilities)
    (hdone : call.perform Token.line c t = (.ok v, c', t')) : c'.Agrees t' := by
  by_cases hsingle : call.single = true
  · exact h.of_single hcut hcap hsingle hdone
  · rcases Call.writes_of_not_single hsingle with ⟨kind, index, data, moving, hwrite⟩ |
      ⟨index, name, login, password, rfl⟩
    · obtain ⟨slot, hholds, rfl, rfl⟩ := Call.of_write_done hwrite hcap hdone
      exact ⟨h.known.written hholds.details, h.safeEnabled⟩
    · rcases Call.of_writeSafe hdone with ⟨why, hfailed, -⟩ | ⟨contents, -, -, rfl, rfl⟩
      · cases hfailed
      · exact ⟨h.known.putSafe (some _), h.safeEnabled⟩

end Client.Agrees

/-- **No call lets a text that is not cut into a code slot.** -/
theorem Call.cut_of_done {call : Call} {c c' : Client} {t t' : Token} {v : Value}
    (hcut : t.store.Cut) (hcap : c.capabilities = t.capabilities)
    (hdone : call.perform Token.line c t = (.ok v, c', t')) : t'.store.Cut := by
  by_cases hsingle : call.single = true
  · obtain ⟨x, payload, after, hx, hask, -⟩ := of_single_done hsingle hdone
    rw [store_of_command? hx hask]
    exact hcut.storeAfter _ _
  · rcases writes_of_not_single hsingle with ⟨kind, index, data, moving, hwrite⟩ |
      ⟨index, name, login, password, rfl⟩
    · obtain ⟨slot, hholds, rfl, -⟩ := of_write_done hwrite hcap hdone
      refine hcut.set fun slot' hslot' => ?_
      cases hslot'
      rw [hholds.details]
      exact SlotDetails.cut_cut ⟨data.name, data.flags, data.tokenId, moving⟩
    · rcases of_writeSafe hdone with ⟨why, hfailed, -⟩ | ⟨contents, -, -, rfl, -⟩
      · cases hfailed
      · exact hcut

/-! ## §5. Every run. -/

namespace World

/-- Host and token agree, and the texts in code slots are cut. -/
structure Agreed (w : World) : Prop where
  agrees : w.client.Agrees w.token
  cut : w.token.store.Cut

/-- **Every event preserves the agreement.** -/
theorem Agreed.step {config : TokenConfig} {w : World} (h : w.Agreed) (hfits : w.Fits config)
    (event : Event) : (w.step event).Agreed := by
  cases event with
  | unplug => exact ⟨⟨h.agrees.known, h.agrees.safeEnabled⟩, h.cut⟩
  | plugIn => exact ⟨⟨h.agrees.known, h.agrees.safeEnabled⟩, h.cut⟩
  | call call =>
    rcases w.step_call call with ⟨why, client, token, hperform, hstep⟩ |
      ⟨v, client, token, hperform, hstep⟩
    · -- a call that fails changes neither side
      rw [hstep]
      have hsame := Call.stored_of_error hperform
      obtain ⟨hknown, hsafe⟩ := Call.view_of_error hperform
      refine ⟨h.agrees.of_same hsame hknown hsafe, ?_⟩
      show token.store.Cut
      rw [hsame.1]
      exact h.cut
    · rw [hstep]
      exact ⟨h.agrees.of_done h.cut hfits.capabilities hperform,
        Call.cut_of_done h.cut hfits.capabilities hperform⟩

/-- A host that connects to a fresh token knows its register, and that is
true. -/
theorem connect_agreed (config : TokenConfig) (verifyCrc : Bool) :
    ∃ start, connect config verifyCrc = .ok start ∧ start.Fits config ∧ start.Agreed := by
  unfold connect Client.connect Client.perform
  rw [Client.attempt_getStatus rfl]
  exact ⟨_, rfl, ⟨rfl, rfl⟩, ⟨(Knowledge.TrueOf.empty _).withConfig, rfl⟩, Store.Cut.empty⟩

end World

/-- **The view of the host is true of the token, over every run.**  Whatever
the factory settings of a token, a host that is not told what it is capable of
connects to it; and whatever calls it makes then, in whatever order, done or
failing, the token unplugged and put back in between,

* a code slot that the host knows is programmed, with the details that the
  host knows, its name and token id up to their first NUL;
* the programmed Password Safe slots that the host knows are those of the
  token;
* the config register that the host knows is that of the token;
* the host takes the Password Safe to be enabled exactly if it is. -/
theorem host_view_over_runs (config : TokenConfig) (verifyCrc : Bool) :
    ∃ start, World.connect config verifyCrc = .ok start
      ∧ ∀ events : List Event,
          let now := start.run events
          (∀ kind index d, now.client.known.codes.at? kind index = some d →
              ∃ slot, now.token.store.codes.at? kind index = some slot
                ∧ slot.details = { d with
                    name := Utf8.untilNul d.name
                    tokenId := Utf8.untilNul d.tokenId })
          ∧ (∀ s, now.client.known.safe = some s → s = now.token.store.safeStatus)
          ∧ (∀ c, now.client.known.config = some c → c = now.token.store.config)
          ∧ now.client.safeEnabled = now.token.safeEnabled := by
  obtain ⟨start, hconnect, hfits, hagreed⟩ := World.connect_agreed config verifyCrc
  refine ⟨start, hconnect, ?_⟩
  intro events now
  obtain ⟨-, hnow⟩ := World.fits_induction hfits hagreed
    (fun _ event hfits h => World.Agreed.step h hfits event) events
  obtain ⟨hknown, hsafe⟩ := hnow.agrees
  exact ⟨hknown.codes, hknown.safe, hknown.config, hsafe⟩

-- The host knows the name as it was given, and both counters have moved on.
set_option maxRecDepth 20000 in
example :
    ((World.connect .factory true).toOption.map fun start =>
      let temp : Secret := .ofText "temp"
      let data : SlotData := ⟨"mail\x00old", "3132333435363738393031323334353637383930", {}, ""⟩
      let now := start.run
        [.call (.firstAuthenticate (.ofText "12345678") temp), .call (.writeHotp 0 data 41 temp),
          .call (.hotpCode 0 ⟨[]⟩)]
      ((now.client.known.codes.at? .hotp 0).map fun d => (d.name, d.counter),
        (now.token.store.codes.at? .hotp 0).map fun slot =>
          (slot.details.name, slot.details.counter)))
      = some (some ("mail\x00old", 42), some ("mail", 42)) := by decide +kernel

end OtpToken
