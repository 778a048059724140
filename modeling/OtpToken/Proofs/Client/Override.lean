/-
  OtpToken.Proofs.Client.Override
  ───────────────────────────────
  **A HOST THAT TAKES ITS TOKEN FOR ANOTHER.**

  The options of a host can say what the token is capable of, and then the host
  does not go by the firmware.  The token does, whatever the host believes.
  Between the two of them a write of a code slot has a counter in eight bytes and
  a secret in pieces, and neither says how it is meant:

      counter   the token reads the field in its own way
      secret    the token keeps as many bytes as it has room for

  `Call.write_under_override` says which slot comes of it.  The host is told that
  the write is done in all cases but those that the token cannot read.
-/
import OtpToken.Proofs.Client.Single

namespace OtpToken

/-! ## §1. Room for a secret. -/

namespace Bytes

/-- **A secret is kept whole exactly if there is room for it.** -/
theorem padTo_take_eq_iff {width : Nat} {bs : Bytes} :
    padTo width (bs.take width) = padTo width bs ↔ bs.length ≤ width := by
  constructor
  · intro h
    have hlen : (bs.take width).length ≤ width := List.length_take_le _ _
    have hlengths := congrArg List.length h
    rw [length_padTo hlen] at hlengths
    rw [hlengths]
    unfold padTo
    rw [List.length_append]
    exact Nat.le_add_right _ _
  · intro h
    rw [List.take_of_length_le h]

end Bytes

theorem Capabilities.secretLength_pos (c : Capabilities) : 0 < c.secretLength := by
  unfold secretLength
  split <;> decide

namespace Operation

/-- Two pieces or less are all that a host ever sends of a secret. -/
theorem length_le_of_pieces {bytes : Bytes} {capacity limit : Capabilities}
    (hlen : bytes.length ≤ limit.secretLength)
    (h : ∀ i < pieceCount bytes, chunkWidth * i < capacity.secretLength) :
    bytes.length ≤ capacity.secretLength ∨ bytes.length ≤ chunkWidth := by
  by_cases hone : bytes.length ≤ chunkWidth
  · exact .inr hone
  · -- there is a second piece, so there is room for more than one
    have htwo : 1 < pieceCount bytes := by
      unfold pieceCount chunkWidth
      unfold chunkWidth at hone
      omega
    have hroom : chunkWidth * 1 < capacity.secretLength := h 1 htwo
    refine .inl (Nat.le_trans hlen ?_)
    unfold Capabilities.secretLength at hroom ⊢
    by_cases hwide : capacity.wideSecret = true
    · rw [if_pos hwide]
      split <;> decide
    · rw [if_neg hwide] at hroom
      exact absurd hroom (by decide)

end Operation

/-! ## §2. What comes of a write. -/

namespace Call

variable {call : Call} {kind : CodeKind} {index : UInt8} {data : SlotData} {moving : UInt64}

/-- **What a write with a secret leaves in its slot, whatever the host takes the
token to be capable of.**  If it fails every slot is as it was.  If it is done

* the slot has the texts up to their first NUL, the flags, the number `read` that
  the token reads in the counter field, and as much of the secret as the token has
  room for, filled up with zeros; every other slot is as it was;
* `read` is the number that was given exactly if host and token write counters in
  the same way, or if it is zero and the host writes binary; it is no period of
  zero;
* the secret is whole exactly if there is room for it; without room for it, it has
  no more than one piece, for the token refuses a second one;
* every code that is read next, by any host, is the code of the bytes that were
  kept, at `read` or for the period `read`. -/
theorem write_under_override (c : Client) (t : Token)
    (hwrite : call.write? kind index = some (data, moving)) (htext : data.secret ≠ "") :
    let host := c.capabilities.encoding
    let capacity := t.capabilities.secretLength
    let r := call.perform Token.line c t
    (∀ why, r.1 = .error why → r.2.2.store = t.store)
      ∧ ∀ v, r.1 = .ok v → ∃ secret read slot,
          Hex.decode (Utf8.encode data.secret) = .ok secret
          ∧ host.carry? t.encoding moving = some read
          ∧ r.2.2.store.codes.get? kind index = some (some slot)
          ∧ (∀ kind' index', (kind' = kind → index' ≠ index) →
              r.2.2.store.codes.get? kind' index' = t.store.codes.get? kind' index')
          ∧ slot.details
            = ⟨Utf8.untilNul data.name, data.flags, Utf8.untilNul data.tokenId, read⟩
          ∧ slot.secret.bytes = Bytes.padTo capacity (secret.take capacity)
          ∧ (read = moving ↔ host = t.encoding ∨ host = .binary ∧ moving = 0)
          ∧ ¬ (kind = .totp ∧ read = 0)
          ∧ (slot.secret.bytes = Bytes.padTo capacity secret ↔ secret.length ≤ capacity)
          ∧ (secret.length ≤ capacity ∨ secret.length ≤ chunkWidth)
          ∧ (kind = .hotp → ∀ client temp v client' t',
              (hotpCode index temp).perform Token.line client r.2.2 = (.ok v, client', t') →
                ∃ code, counterCode (secret.take capacity) read data.flags.digits = .ok code
                  ∧ v = .text code)
          ∧ (kind = .totp → ∀ client challenge lastTime lastInterval temp v client' t',
              (totpCode index challenge lastTime lastInterval temp).perform Token.line client r.2.2
                  = (.ok v, client', t') →
                ∃ code, timeCode (secret.take capacity) t.clock data.flags.digits read.toUInt32
                    = .ok code
                  ∧ v = .text code) := by
  intro host capacity r
  have hr : call.perform Token.line c t = (r.1, r.2.1, r.2.2) := rfl
  rcases write_ends hwrite hr with
    ⟨why, hwhy, hsame⟩ | ⟨read, slot, hdone, ⟨given, hgiven⟩, hroom, hcarry, hperiod, hholds, htakes,
      ht', -⟩
  · refine ⟨fun _ _ => hsame.1, fun v hv => ?_⟩
    cases hwhy.symm.trans hv
  · refine ⟨fun why hwhy => ?_, fun v hv => ?_⟩
    · cases hdone.symm.trans hwhy
    · obtain ⟨hhex, hlimit⟩ := Secret.of_ofHex hgiven
      obtain ⟨secret, hdecode, hne, hstarts, hsecret⟩ := htakes.typed htext
      cases hhex.symm.trans hdecode
      have hslot : r.2.2.store.codes.get? kind index = some (some slot) := by
        rw [ht']
        exact CodeTable.get?_set_self hholds
      have hclock : r.2.2.clock = t.clock := by
        rw [ht']
      have hkept : (given.bytes.take capacity).length ≤ capacity := List.length_take_le _ _
      have hkept_ne : given.bytes.take capacity ≠ [] := by
        have hpos : 0 < capacity := t.capabilities.secretLength_pos
        rw [← List.length_pos_iff, List.length_take]
        have := List.length_pos_iff.mpr hne
        omega
      have hwidth : capacity ≤ Hmac.blockLength := t.capabilities.secretLength_le
      refine ⟨given.bytes, read, slot, hhex, hcarry, hslot, ?_, htakes.details, hsecret, ?_, hperiod,
        ?_, Operation.length_le_of_pieces hlimit hstarts, ?_, ?_⟩
      · intro kind' index' hother
        rw [ht']
        exact CodeTable.get?_set_of_ne hother
      · rw [← CounterEncoding.carry?_eq_iff hroom, hcarry, Option.some.injEq]
      · rw [hsecret]
        exact Bytes.padTo_take_eq_iff
      · -- the next code of an HOTP slot
        rintro rfl client temp w client' t' hcode
        obtain ⟨-, slot', code, hslot', -, hcounter, rfl, -⟩ := of_hotpCode hcode
        cases hslot.symm.trans hslot'
        rw [hsecret, counterCode_padTo hwidth hkept hkept_ne, htakes.details] at hcounter
        exact ⟨code, hcounter, rfl⟩
      · -- a code of a TOTP slot
        rintro rfl client challenge lastTime lastInterval temp w client' t' hcode
        obtain ⟨-, slot', code, hslot', htime, rfl⟩ := of_totpCode hcode
        cases hslot.symm.trans hslot'
        rw [hsecret, timeCode_padTo hwidth hkept hkept_ne, htakes.details, hclock] at htime
        exact ⟨code, htime, rfl⟩

end Call

/-- A token with old firmware, which writes counters as digits and has room for
twenty bytes of a secret.  Its admin is logged in. -/
def Token.old : Token :=
  let fresh := Token.fresh { TokenConfig.factory with firmware := ⟨0, 6⟩ }
  { fresh with session := (fresh.session.login .admin (Utf8.encode "12345678") (.ofText "temp")).2 }

/-- A host that takes it for a new one. -/
def Client.misled : Client := { Client.fresh ⟨true, some .full⟩ with capabilities := .full }

/-- A write of a secret of 21 bytes at the counter whose bytes are the digits of
fifteen. -/
def Call.misleading : Call :=
  .writeHotp 0 ⟨"a", "000102030405060708090A0B0C0D0E0F1011121314", {}, ""⟩ 13617 (.ofText "temp")

set_option maxRecDepth 20000 in
/-- It is done, at fifteen and with a secret of twenty bytes. -/
theorem Call.write_under_override_misled :
    Call.misleading.write? .hotp 0
        = some (⟨"a", "000102030405060708090A0B0C0D0E0F1011121314", {}, ""⟩, 13617)
      ∧ ∃ (secret : Bytes) (slot : CodeSlot),
          (Call.misleading.perform Token.line .misled .old).2.2.store.codes.get? .hotp 0
            = some (some slot)
          ∧ secret.length = 21 ∧ slot.details.counter = 15
          ∧ slot.secret.bytes = Bytes.padTo 20 (secret.take 20) := by
  have hwrite : Call.misleading.write? .hotp 0
      = some (⟨"a", "000102030405060708090A0B0C0D0E0F1011121314", {}, ""⟩, 13617) := rfl
  have hdone : (Call.misleading.perform Token.line .misled .old).1.toOption = some .nothing := by
    decide +kernel
  have hread : CounterEncoding.carry? .binary .ascii 13617 = some 15 := by decide +kernel
  have hlength : (Hex.decode (Utf8.encode "000102030405060708090A0B0C0D0E0F1011121314")).toOption.map
      List.length = some 21 := by decide +kernel
  refine ⟨hwrite, ?_⟩
  have h := (write_under_override .misled .old hwrite (by decide)).2
  cases hr : (Call.misleading.perform Token.line .misled .old).1 with
  | error why =>
    rw [hr] at hdone
    cases hdone
  | ok v =>
    obtain ⟨secret, read, slot, hhex, hcarry, hslot, -, hdetails, hsecret, -⟩ := h v hr
    cases hread.symm.trans hcarry
    rw [hhex] at hlength
    have hcounter : slot.details.counter = 15 := congrArg SlotDetails.counter hdetails
    exact ⟨secret, slot, hslot, Option.some.inj hlength, hcounter, hsecret⟩

set_option maxRecDepth 20000 in
/-- **It is not true that a write that is done has written the counter that was
given.**  A host that takes a new token for an old one writes five as a digit, and
the token reads 53. -/
theorem Call.not_write_under_override_exact :
    ¬ ∀ (config : TokenConfig) (options : Options) (client : Client) (token : Token)
        (events : List Event) (index : UInt8) (data : SlotData) (counter : UInt64) (temp : Secret),
        Client.connect Token.line options (.fresh config) = (.ok client, token) →
      let w := (World.mk client token []).run events
      let r := (Call.writeHotp index data counter temp).perform Token.line w.client w.token
      data.secret ≠ "" → r.1 = .ok .nothing →
        ∃ slot, r.2.2.store.codes.at? .hotp index = some slot ∧ slot.details.counter = counter := by
  intro h
  let options : Options := ⟨true, some ⟨false, true⟩⟩
  let temp : Secret := .ofText "temp"
  let login : Event := .call (.firstAuthenticate (.ofText "12345678") temp)
  let data : SlotData := ⟨"a", "3132333435363738393031323334353637383930", {}, ""⟩
  let write : Call := .writeHotp 0 data 5 temp
  have hrun : ∃ client ∈ (Client.connect Token.line options (.fresh .factory)).1.toOption,
      let token := (Client.connect Token.line options (.fresh .factory)).2
      let w := (World.mk client token []).run [login]
      let r := write.perform Token.line w.client w.token
      r.1.toOption = some .nothing
        ∧ (r.2.2.store.codes.at? .hotp 0).map (fun slot => slot.details.counter) = some 53 := by
    decide +kernel
  obtain ⟨client, hclient, hdone, hcounter⟩ := hrun
  cases hconnect : Client.connect Token.line options (.fresh .factory) with
  | mk result token =>
    rw [hconnect] at hclient hdone hcounter
    cases result with
    | error why => cases hclient
    | ok client' =>
      cases hclient
      have hsecret : data.secret ≠ "" := by decide
      obtain ⟨slot, hslot, hgiven⟩ :=
        h _ _ client token [login] 0 data 5 temp hconnect hsecret (ok_of_toOption hdone)
      rw [hslot] at hcounter
      have h53 : slot.details.counter = 53 := Option.some.inj hcounter
      exact absurd (hgiven.symm.trans h53) (by decide)

end OtpToken
