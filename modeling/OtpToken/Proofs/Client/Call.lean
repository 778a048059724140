/-
  OtpToken.Proofs.Client.Call
  ───────────────────────────
  **WHAT EACH CALL ASKS.**

  Seven calls are about what codes are made of: the two writes, the two code
  reads, erasing a slot, setting the clock, and a factory reset.  All other
  calls ask only commands that spare code slots and the clock.  `Call.Asks`
  says what each of the seven asks, and `Call.asks` that it is so.

  On the way back no call changes what the host takes the token to be capable
  of (`Call.keeps`), and all calls but one can read any payload
  (`Call.reads_any`): only a counter in ASCII digits may be no counter.
-/
import OtpToken.Proofs.Client.Operation

namespace OtpToken

/-! ## §1. What operations ask. -/

/-- The calls that leave code slots and the clock alone. -/
def Call.spares : Call → Bool
  | writeHotp .. | writeTotp .. | hotpCode .. | totpCode .. | eraseSlot .. | setTime ..
  | factoryReset .. => false
  | _ => true

/-- The commands that write a slot. -/
def Operation.AsksWrite (c : Client) (kind : CodeKind) (index : UInt8) (data : SlotData)
    (counter : UInt64) (temp : Secret) (cs : List Command) (last : Command) : Prop :=
  ∃ number secret, kind.slotNumber? index = some number
    ∧ Secret.ofHex data.secret c.capabilities.secretLength = .ok secret
    ∧ cs = stagingCommands temp data.name secret
    ∧ last = .writeToSlot temp number counter data.flags data.tokenId

/-- The commands of a call. -/
def Call.Asks (c : Client) : Call → List Command → Command → Prop
  | setTime reset time, cs, last => cs = [] ∧ last = .setTime reset time
  | factoryReset pin, cs, last => cs = [] ∧ last = .factoryReset pin
  | eraseSlot kind index temp, cs, last =>
      cs = [] ∧ ∃ number, kind.slotNumber? index = some number ∧ last = .eraseSlot number temp
  | hotpCode index temp, cs, last =>
      cs = [] ∧ ∃ number, CodeKind.hotp.slotNumber? index = some number
        ∧ last = .getCode number 0 0 0 temp
  | totpCode index challenge lastTime lastInterval temp, cs, last =>
      cs = [] ∧ ∃ number, CodeKind.totp.slotNumber? index = some number
        ∧ last = .getCode number challenge lastTime lastInterval temp
  | writeHotp index data counter temp, cs, last =>
      Operation.AsksWrite c .hotp index data counter temp cs last
  | writeTotp index data period temp, cs, last =>
      Operation.AsksWrite c .totp index data period.toUInt64 temp cs last
  | _, cs, last => ∀ x ∈ last :: cs, x.id.spares = true

namespace Operation

variable {α : Type} {c : Client}

/-- An operation of one command asks that command. -/
theorem asks_single {command : Client → Except Error Command}
    {conclude : Client → Payload → Except DecodeError α × Client}
    {Q : List Command → Command → Prop} (h : ∀ last, command c = .ok last → Q [] last) :
    (single command conclude).Asks c Q := by
  intro script hprepare
  obtain ⟨last, hlast, hprepare⟩ := exists_of_bind_ok hprepare
  obtain ⟨q, hq, hprepare⟩ := exists_of_bind_ok hprepare
  cases hprepare
  exact ⟨[], last, ⟨rfl, hq⟩, h last hlast⟩

/-- One command that spares code slots and the clock. -/
theorem asks_of_spares {command : Client → Except Error Command}
    {conclude : Client → Payload → Except DecodeError α × Client}
    (h : ∀ last, command c = .ok last → last.id.spares = true) :
    (single command conclude).Asks c fun cs last => ∀ x ∈ last :: cs, x.id.spares = true := by
  refine asks_single fun last hlast x hx => ?_
  cases List.mem_singleton.mp hx
  exact h last hlast

/-- One command about a slot that spares code slots and the clock. -/
theorem asks_slot_of_spares {slot : Client → Except Error UInt8} {command : UInt8 → Command}
    {conclude : Client → Payload → Except DecodeError α × Client}
    (h : ∀ number, (command number).id.spares = true) :
    (single (fun c => do return command (← slot c)) conclude).Asks c fun cs last =>
      ∀ x ∈ last :: cs, x.id.spares = true := by
  refine asks_of_spares fun last hlast => ?_
  obtain ⟨number, -, hlast⟩ := exists_of_bind_ok hlast
  cases hlast
  exact h number

theorem slotNumber?_of_codeSlot {kind : CodeKind} {index number : UInt8}
    (h : codeSlot kind index = .ok number) : kind.slotNumber? index = some number := by
  have hn : kind.slotNumber index = .ok number := of_mapError_ok h
  unfold CodeKind.slotNumber at hn
  cases hslot : kind.slotNumber? index with
  | none =>
    rw [hslot] at hn
    cases hn
  | some number' =>
    rw [hslot] at hn
    cases hn
    rfl

/-- One command about a code slot. -/
theorem asks_codeSlot {kind : CodeKind} {index : UInt8} {command : UInt8 → Command}
    {conclude : Client → Payload → Except DecodeError α × Client} :
    (single (fun _ => do return command (← codeSlot kind index)) conclude).Asks c
      fun cs last => cs = [] ∧ ∃ number, kind.slotNumber? index = some number
        ∧ last = command number := by
  refine asks_single fun last hlast => ?_
  obtain ⟨number, hnumber, hlast⟩ := exists_of_bind_ok hlast
  cases hlast
  exact ⟨rfl, number, slotNumber?_of_codeSlot hnumber, rfl⟩

theorem asks_writeSlot {kind : CodeKind} {index : UInt8} {data : SlotData} {counter : UInt64}
    {temp : Secret} :
    (writeSlot kind index data counter temp).Asks c
      (AsksWrite c kind index data counter temp) := by
  intro script hprepare
  obtain ⟨number, hnumber, hprepare⟩ := exists_of_bind_ok hprepare
  obtain ⟨-, -, hprepare⟩ := exists_of_bind_ok hprepare
  obtain ⟨-, -, hprepare⟩ := exists_of_bind_ok hprepare
  obtain ⟨secret, hsecret, hprepare⟩ := exists_of_bind_ok hprepare
  obtain ⟨opening, hopening, hprepare⟩ := exists_of_bind_ok hprepare
  obtain ⟨final, hfinal, hprepare⟩ := exists_of_bind_ok hprepare
  cases hprepare
  refine ⟨_, _, ⟨hopening, hfinal⟩, number, secret, slotNumber?_of_codeSlot hnumber, ?_, rfl, rfl⟩
  exact of_mapError_ok hsecret

/-- A Password Safe slot has its index as its number, and it exists. -/
theorem of_safeSlot {index number : UInt8} (h : safeSlot index c = .ok number) :
    number = index ∧ SlotFamily.safe.holds index = true := by
  unfold safeSlot at h
  split at h
  · have hn : safeSlotNumber index = .ok number := of_mapError_ok h
    unfold safeSlotNumber at hn
    split at hn
    · next hholds =>
      cases hn
      exact ⟨rfl, hholds⟩
    · cases hn
  · cases h

theorem asks_writeSafe {index : UInt8} {name login password : String} :
    (writeSafe index name login password).Asks c fun cs last =>
      cs = [.setSafePrimary index name (.ofText password)] ∧ last = .setSafeLogin index login := by
  intro script hprepare
  obtain ⟨slot, hslot, hprepare⟩ := exists_of_bind_ok hprepare
  obtain ⟨primary, hprimary, hprepare⟩ := exists_of_bind_ok hprepare
  obtain ⟨final, hfinal, hprepare⟩ := exists_of_bind_ok hprepare
  cases hprepare
  obtain ⟨rfl, -⟩ := of_safeSlot hslot
  refine ⟨_, _, ⟨?_, hfinal⟩, rfl, rfl⟩
  rw [List.mapM_cons, hprimary]
  rfl

/-- The pieces of a slot: its name as a text, and bytes of its secret. -/
theorem of_mem_stagingCommands {temp secret : Secret} {name : String} {x : Command}
    (h : x ∈ stagingCommands temp name secret) :
    x = .sendOtpData temp .name 0 (.ofText name)
      ∨ ∃ chunk data, x = .sendOtpData temp .secret chunk data := by
  unfold stagingCommands at h
  rw [List.mem_cons, List.mem_map] at h
  rcases h with hname | ⟨piece, -, hpiece⟩
  · exact .inl hname
  · exact .inr ⟨piece.1, ⟨piece.2⟩, hpiece.symm⟩

/-- They spare code slots and the clock. -/
theorem spares_of_mem_stagingCommands {temp secret : Secret} {name : String} {x : Command}
    (h : x ∈ stagingCommands temp name secret) : x.id.spares = true := by
  rcases of_mem_stagingCommands h with rfl | ⟨chunk, data, rfl⟩
  · rfl
  · rfl

end Operation

/-! ## §2. What calls ask. -/

namespace Call

open Operation

/-- **Every call asks what `Call.Asks` says.** -/
theorem asks (call : Call) (c : Client) : call.operation.Asks c (call.Asks c) := by
  cases call with
  -- the seven
  | setTime reset time =>
    exact asks_single fun last hlast => by
      cases hlast
      exact ⟨rfl, rfl⟩
  | factoryReset pin =>
    exact asks_single fun last hlast => by
      cases hlast
      exact ⟨rfl, rfl⟩
  | eraseSlot kind index temp => exact asks_codeSlot
  | hotpCode index temp => exact asks_codeSlot
  | totpCode index challenge lastTime lastInterval temp => exact asks_codeSlot
  | writeHotp index data counter temp => exact asks_writeSlot
  | writeTotp index data period temp => exact asks_writeSlot
  -- two commands, or one that is not always there
  | writeSafe index name login password =>
    intro script hprepare
    obtain ⟨cs, last, hscript, rfl, rfl⟩ := asks_writeSafe script hprepare
    refine ⟨_, _, hscript, ?_⟩
    show ∀ x ∈ [_, _], _
    simp [Command.id, CommandId.spares]
  | safeStatus =>
    refine asks_of_spares fun last hlast => ?_
    by_cases hsafe : c.safeEnabled = true
    · rw [if_pos hsafe] at hlast
      cases hlast
      rfl
    · rw [if_neg hsafe] at hlast
      cases hlast
  | readSlot kind index => exact asks_slot_of_spares fun _ => rfl
  | slotName kind index => exact asks_slot_of_spares fun _ => rfl
  | safeName index => exact asks_slot_of_spares fun _ => rfl
  | safeLogin index => exact asks_slot_of_spares fun _ => rfl
  | safePassword index => exact asks_slot_of_spares fun _ => rfl
  | eraseSafe index => exact asks_slot_of_spares fun _ => rfl
  -- one command that is always there
  | _ =>
    refine asks_of_spares fun last hlast => ?_
    cases hlast
    rfl

/-- What a call opens with spares code slots and the clock. -/
theorem Asks.opening {call : Call} {c : Client} {cs : List Command} {last : Command}
    (h : call.Asks c cs last) : ∀ x ∈ cs, x.id.spares = true := by
  have hwrite : ∀ {kind index data counter temp},
      AsksWrite c kind index data counter temp cs last → ∀ x ∈ cs, x.id.spares = true := by
    rintro kind index data counter temp ⟨number, secret, -, -, rfl, -⟩ x hx
    exact spares_of_mem_stagingCommands hx
  have hnone : cs = [] → ∀ x ∈ cs, x.id.spares = true := by
    rintro rfl x hx
    cases hx
  cases call with
  | writeHotp index data counter temp => exact hwrite h
  | writeTotp index data period temp => exact hwrite h
  | setTime reset time => exact hnone h.1
  | factoryReset pin => exact hnone h.1
  | eraseSlot kind index temp => exact hnone h.1
  | hotpCode index temp => exact hnone h.1
  | totpCode index challenge lastTime lastInterval temp => exact hnone h.1
  | _ => exact fun x hx => h x (List.mem_cons_of_mem last hx)

/-- And so does the last command of all calls but the seven. -/
theorem Asks.last {call : Call} {c : Client} {cs : List Command} {last : Command}
    (h : call.Asks c cs last) (hspares : call.spares = true) : last.id.spares = true := by
  cases call with
  | writeHotp index data counter temp => cases hspares
  | writeTotp index data period temp => cases hspares
  | setTime reset time => cases hspares
  | factoryReset pin => cases hspares
  | eraseSlot kind index temp => cases hspares
  | hotpCode index temp => cases hspares
  | totpCode index challenge lastTime lastInterval temp => cases hspares
  | _ => exact h last List.mem_cons_self

end Call

/-! ## §3. What a host keeps. -/

namespace Operation

variable {α β : Type}

/-- What the host takes the token to be capable of does not change. -/
def Keeps (op : Operation α) : Prop :=
  ∀ c payload a after, op.conclude c payload = (.ok a, after) →
    after.capabilities = c.capabilities

/-- Behind another value there is one of the operation itself. -/
theorem of_conclude_map {op : Operation α} {f : α → β} {c after : Client} {payload : Payload}
    {b : β} (h : (op.map f).conclude c payload = (.ok b, after)) :
    ∃ a, op.conclude c payload = (.ok a, after) ∧ b = f a := by
  unfold Operation.map at h
  dsimp only at h
  obtain ⟨hresult, rfl⟩ := Prod.mk.inj h
  cases hr : (op.conclude c payload).1 with
  | error e =>
    rw [hr] at hresult
    cases hresult
  | ok a =>
    rw [hr] at hresult
    exact ⟨a, Prod.ext hr rfl, (Except.ok.inj hresult).symm⟩

theorem Keeps.map {op : Operation α} (h : op.Keeps) (f : α → β) : (op.map f).Keeps := by
  intro c payload b after hconclude
  obtain ⟨a, hconclude, -⟩ := of_conclude_map hconclude
  exact h c payload a after hconclude

theorem conclude_map {op : Operation α} {c after : Client} {payload : Payload} {a : α} (f : α → β)
    (h : op.conclude c payload = (.ok a, after)) :
    (op.map f).conclude c payload = (.ok (f a), after) := by
  unfold Operation.map
  simp only [h]
  rfl

/-- An answer that can be read gives what the host makes of it. -/
theorem conclude_consult {command : Client → Except Error Command} {decoder : Client → Decoder β}
    {learn : Client → β → α × Client} {c : Client} {payload : Payload} {b : β}
    (h : (decoder c).decode payload.bytes = .ok b) :
    (consult command decoder learn).conclude c payload = (.ok (learn c b).1, (learn c b).2) := by
  unfold consult single
  simp only [h]

theorem conclude_ask {command : Client → Except Error Command} {decoder : Decoder α} {c : Client}
    {payload : Payload} {a : α} (h : decoder.decode payload.bytes = .ok a) :
    (ask command decoder).conclude c payload = (.ok a, c) :=
  conclude_consult h

/-- Behind a value there is an answer that was read. -/
theorem of_conclude_consult {command : Client → Except Error Command}
    {decoder : Client → Decoder β} {learn : Client → β → α × Client} {c after : Client}
    {payload : Payload} {a : α}
    (h : (consult command decoder learn).conclude c payload = (.ok a, after)) :
    ∃ b, (decoder c).decode payload.bytes = .ok b ∧ learn c b = (a, after) := by
  unfold consult single at h
  dsimp only at h
  cases hr : (decoder c).decode payload.bytes with
  | error e =>
    rw [hr] at h
    cases h
  | ok b =>
    rw [hr] at h
    obtain ⟨ha, hafter⟩ := Prod.mk.inj h
    exact ⟨b, rfl, Prod.ext (Except.ok.inj ha) hafter⟩

/-- A value that is read, and a host that learns something from it. -/
theorem keeps_consult {command : Client → Except Error Command} {decoder : Client → Decoder β}
    {learn : Client → β → α × Client}
    (h : ∀ c b, (learn c b).2.capabilities = c.capabilities) :
    (consult command decoder learn).Keeps := by
  intro c payload a after hconclude
  obtain ⟨b, -, hlearn⟩ := of_conclude_consult hconclude
  rw [← h c b, hlearn]

theorem keeps_ask (command : Client → Except Error Command) (decoder : Decoder α) :
    (ask command decoder).Keeps :=
  keeps_consult fun _ _ => rfl

theorem keeps_getStatus : getStatus.Keeps := keeps_consult fun _ _ => rfl

theorem keeps_code {kind : CodeKind} {index lastInterval : UInt8} {challenge lastTime : UInt64}
    {temp : Secret} : (code kind index challenge lastTime lastInterval temp).Keeps := by
  refine keeps_consult fun c r => ?_
  cases kind with
  | hotp => rfl
  | totp => rfl

end Operation

namespace Call

open Operation

/-- **No call changes what the host takes the token to be capable of.** -/
theorem keeps (call : Call) : call.operation.Keeps := by
  cases call with
  -- calls with an answer that is read
  | getStatus => exact keeps_getStatus.map _
  | serialNumber => exact (keeps_getStatus.map _).map _
  | majorVersion => exact (keeps_getStatus.map _).map _
  | minorVersion => exact (keeps_getStatus.map _).map _
  | readConfig => exact (keeps_getStatus.map _).map _
  | adminRetryCount => exact (keeps_ask _ _).map _
  | userRetryCount => exact (keeps_ask _ _).map _
  | aesSupported pin => exact ((keeps_ask _ _).map _).map _
  | slotName kind index => exact (keeps_ask _ _).map _
  | safeName index => exact (keeps_ask _ _).map _
  | safeLogin index => exact (keeps_ask _ _).map _
  | safePassword index => exact (keeps_ask _ _).map _
  | hotpCode index temp => exact keeps_code.map _
  | totpCode index challenge lastTime lastInterval temp => exact keeps_code.map _
  | readSlot kind index => exact Keeps.map (keeps_consult fun _ _ => rfl) _
  | safeStatus => exact Keeps.map (keeps_consult fun _ _ => rfl) _
  -- calls without one
  | _ =>
    intro c payload a after hconclude
    cases hconclude
    rfl

end Call

/-! ## §4. What is answered can be read. -/

namespace Operation

variable {α β : Type}

/-- Any payload can be read, whatever is in it. -/
def ReadsAny (op : Operation α) : Prop :=
  ∀ c payload, ∃ a after, op.conclude c payload = (.ok a, after)

theorem ReadsAny.map {op : Operation α} (h : op.ReadsAny) (f : α → β) : (op.map f).ReadsAny := by
  intro c payload
  obtain ⟨a, after, hr⟩ := h c payload
  exact ⟨f a, after, conclude_map f hr⟩

/-- A decoder that is content with any bytes, and no more of them than a payload
has. -/
theorem readsAny_consult {decoder : Decoder β} {n : Nat} (hdecoder : decoder.Total n)
    (hn : n ≤ 53) (command : Client → Except Error Command) (learn : Client → β → α × Client) :
    (consult command (fun _ => decoder) learn).ReadsAny := by
  intro c payload
  have hlength : n ≤ payload.bytes.length := by
    rw [payload.length_bytes]
    exact hn
  obtain ⟨b, hb⟩ := hdecoder.decode hlength
  exact ⟨_, _, conclude_consult hb⟩

theorem readsAny_ask {decoder : Decoder α} {n : Nat} (hdecoder : decoder.Total n) (hn : n ≤ 53)
    (command : Client → Except Error Command) : (ask command decoder).ReadsAny :=
  readsAny_consult hdecoder hn command _

open Decoder

theorem readsAny_getStatus : getStatus.ReadsAny := by
  have hdecoder : StatusRecord.decoder.Total (1 + (1 + (4 + (5 + (2 + 0))))) := by
    refine byte_total.bind fun _ => byte_total.bind fun _ => (block_total 4).bind fun _ => ?_
    exact (block_total 5).bind fun _ => (block_total 2).bind fun _ => .pure _
  exact readsAny_consult hdecoder (by decide) _ _

theorem readsAny_code {kind : CodeKind} {index lastInterval : UInt8} {challenge lastTime : UInt64}
    {temp : Secret} : (code kind index challenge lastTime lastInterval temp).ReadsAny := by
  have hdecoder : CodeRecord.decoder.Total (4 + (1 + 0)) :=
    word32_total.bind fun _ => byte_total.bind fun _ => .pure _
  exact readsAny_consult hdecoder (by decide) _ _

theorem readsAny_safeStatus : safeStatus.ReadsAny := by
  have hdecoder : SafeStatus.decoder.Total (16 + 0) :=
    (block_total safeCapacity).bind fun _ => .pure _
  exact readsAny_consult hdecoder (by decide) _ _

end Operation

open Operation in
/-- **All calls but one read any payload.** -/
theorem Call.reads_any {call : Call} (h : ¬ ∃ kind index, call = .readSlot kind index) :
    call.operation.ReadsAny := by
  cases call with
  | readSlot kind index => exact absurd ⟨kind, index, rfl⟩ h
  | getStatus => exact readsAny_getStatus.map _
  | serialNumber => exact (readsAny_getStatus.map _).map _
  | majorVersion => exact (readsAny_getStatus.map _).map _
  | minorVersion => exact (readsAny_getStatus.map _).map _
  | readConfig => exact (readsAny_getStatus.map _).map _
  | adminRetryCount => exact (readsAny_ask Decoder.byte_total (by decide) _).map _
  | userRetryCount => exact (readsAny_ask Decoder.byte_total (by decide) _).map _
  | aesSupported pin => exact ((readsAny_ask Decoder.byte_total (by decide) _).map _).map _
  | slotName kind index => exact (readsAny_ask (Decoder.text_total _) (by decide) _).map _
  | safeName index => exact (readsAny_ask (Decoder.text_total _) (by decide) _).map _
  | safeLogin index => exact (readsAny_ask (Decoder.text_total _) (by decide) _).map _
  | safePassword index => exact (readsAny_ask (Decoder.text_total _) (by decide) _).map _
  | hotpCode index temp => exact readsAny_code.map _
  | totpCode index challenge lastTime lastInterval temp => exact readsAny_code.map _
  | safeStatus => exact readsAny_safeStatus.map _
  -- calls without an answer
  | _ => exact fun c payload => ⟨_, _, rfl⟩

/-- Only the details of a slot can be unreadable. -/
theorem Call.eq_readSlot_of_unread {call : Call} {c after : Client} {payload : Payload}
    {e : DecodeError} (h : call.operation.conclude c payload = (.error e, after)) :
    ∃ kind index, call = .readSlot kind index := by
  refine Classical.byContradiction fun hother => ?_
  obtain ⟨v, after', hread⟩ := reads_any hother c payload
  cases h.symm.trans hread

end OtpToken
