/-
  OtpToken.Proofs.Client.Slots
  ────────────────────────────
  **WHAT CALLS DO TO CODE SLOTS AND THE CLOCK.**

  A call that fails leaves code slots and the clock of the token as they were
  (`same_of_error`), and so does every call but the seven, however it ends
  (`same_of_spares`).

  A write that is done has changed one slot (`Token.of_write`): the secret that
  was typed went out in pieces, and what the slot keeps of it is the whole
  secret, filled up with zeros.  A token with less room than the host believes
  keeps what it has room for (`Token.takes_of_write`).
-/
import OtpToken.Proofs.Client.Call
import OtpToken.Proofs.Code
import OtpToken.Proofs.Token.Staging

namespace OtpToken

/-! ## §1. The pieces of a slot. -/

namespace Token

variable {t t₁ : Token} {temp secret : Secret} {name : String} {c : Command} {cs : List Command}

theorem ask_of_taken_cons (h : t.taken? (c :: cs) = some t₁) :
    ∃ told t', t.ask c = (.ok told, t') ∧ t'.taken? cs = some t₁ := by
  unfold taken? at h
  cases hask : t.ask c with
  | mk answer t' =>
    rw [hask] at h
    cases answer with
    | error why => cases h
    | ok told => exact ⟨told, t', rfl, h⟩

/-- The command for a piece of a secret. -/
def askPiece (temp : Secret) (secret : Bytes) (k : Nat) : Command :=
  .sendOtpData temp .secret (Operation.piece secret k).1 ⟨(Operation.piece secret k).2⟩

/-- The token with a name staged and the first `k` pieces of a secret. -/
def withPieces (t : Token) (name : String) (bytes : Bytes) (k : Nat) : Token :=
  { t with staged :=
      .afterPieces name t.capabilities.secretLength (bytes.take t.capabilities.secretLength) k }

/-- **The pieces of a secret from the `k`-th on**, taken by a token that has
the pieces before it.  There was room for every one of them to start. -/
theorem taken_pieces {bytes : Bytes} {k n : Nat} (hlen : bytes.length ≤ Hmac.blockLength)
    (hn : k + n ≤ Operation.pieceCount bytes)
    (h : (t.withPieces name bytes k).taken? ((List.range' k n).map (askPiece temp bytes))
      = some t₁) :
    (∀ i, k ≤ i → i < k + n → chunkWidth * i < t.capabilities.secretLength)
      ∧ t₁ = t.withPieces name bytes (k + n) := by
  induction n generalizing k with
  | zero =>
    cases h
    exact ⟨fun i hle hlt => absurd hlt (Nat.not_lt_of_le hle), rfl⟩
  | succ n ih =>
    rw [List.range'_succ, List.map_cons] at h
    obtain ⟨told, t', hask, hrest⟩ := ask_of_taken_cons h
    -- the token took piece `k`, so it has one piece more
    obtain ⟨staged, hchunk, rfl⟩ := (effect_of_ask_ok hask).of_sendSecret_ok
    have hk : k < Operation.pieceCount bytes := by omega
    by_cases hroom : chunkWidth * k < t.capabilities.secretLength
    · cases hchunk.symm.trans (Staged.withChunk_afterPieces hlen hk hroom)
      have hcount : k + (n + 1) = k + 1 + n := by omega
      rw [hcount]
      obtain ⟨hstarts, ht₁⟩ := ih (by omega) hrest
      refine ⟨fun i hle hlt => ?_, ht₁⟩
      rcases Nat.eq_or_lt_of_le hle with rfl | hlt'
      · exact hroom
      · exact hstarts i hlt' hlt
    · cases hchunk.symm.trans (Staged.withChunk_of_no_room _ hlen hk hroom _)

/-- **A token that took the name and all pieces of a secret has staged the
name and the secret as far as there is room**, filled up with zeros; nothing
else has changed, and what was staged before is gone. -/
theorem eq_of_taken_staging (hlen : secret.bytes.length ≤ Hmac.blockLength)
    (h : t.taken? (Operation.stagingCommands temp name secret) = some t₁) :
    (∀ i < Operation.pieceCount secret.bytes, chunkWidth * i < t.capabilities.secretLength)
      ∧ t₁ = { t with staged := ⟨some (Utf8.untilNul name),
          if secret.bytes = [] then none
            else some (Bytes.padTo t.capabilities.secretLength
              (secret.bytes.take t.capabilities.secretLength))⟩ } := by
  unfold Operation.stagingCommands at h
  obtain ⟨told, t', hask, hrest⟩ := ask_of_taken_cons h
  obtain rfl := (effect_of_ask_ok hask).of_sendName_ok
  rw [Operation.pieces_eq, List.map_map] at hrest
  have hname : Utf8.decodeLossy (Secret.ofText name).untilNul.bytes = Utf8.untilNul name :=
    Utf8.decodeLossy_untilNul name
  rw [hname] at hrest
  obtain ⟨hstarts, hall⟩ :=
    taken_pieces (t := t) (k := 0) hlen (Nat.le_of_eq (Nat.zero_add _)) hrest
  rw [Nat.zero_add] at hall
  unfold withPieces at hall
  rw [Staged.afterPieces_count] at hall
  rw [hall]
  exact ⟨fun i hi => hstarts i (Nat.zero_le i) (by rw [Nat.zero_add]; exact hi), rfl⟩

end Token

/-! ## §2. Calls that change nothing. -/

namespace Operation

variable {c : Client} {payload : Payload}

/-- The host reads a code as the token made it. -/
theorem conclude_code {r : CodeRecord} (h : r.encode = .ok payload) (kind : CodeKind)
    (index : UInt8) (challenge lastTime : UInt64) (lastInterval : UInt8) (temp : Secret) :
    (code kind index challenge lastTime lastInterval temp).conclude c payload
      = (.ok (formatCode r.code r.flags.digits), match kind with
          | .hotp => { c with known := c.known.withHotpUse index }
          | .totp => c) :=
  conclude_consult (CodeRecord.decode_encode h)

end Operation

namespace Call

variable {call : Call} {c c' : Client} {t t' : Token} {cs : List Command} {last : Command}
  {payload : Payload} {v : Value} {why : Error}

/-- A call ends in one of the ways in which an operation can end. -/
theorem performed {result : Except Error Value} (hcap : c.capabilities = t.capabilities)
    (h : call.perform Token.line c t = (result, c', t')) :
    c.Performed t call.operation (call.Asks c) (result, c', t') := by
  have hperformed := Client.performed call.tidy (call.asks c) (congrArg Capabilities.encoding hcap)
  rw [← h]
  exact hperformed

/-- **A call that fails leaves code slots and the clock alone.** -/
theorem same_of_error (hcap : c.capabilities = t.capabilities)
    (h : call.perform Token.line c t = (.error why, c', t')) : t.SameCodes t' := by
  cases performed hcap h with
  | unsent => exact .refl t
  | failed hasks hall => exact Token.same_of_askAll_error hasks.opening hall
  | unread hasks hall hconclude =>
    -- only a call that changes nothing can fail on what it was answered
    obtain ⟨t₁, hsame, -, heffect⟩ := Token.effect_of_askAll_ok hasks.opening hall
    obtain ⟨kind, index, rfl⟩ := eq_readSlot_of_unread hconclude
    refine hsame.trans (heffect.same_of_spares ?_)
    rw [Command.id_norm]
    exact hasks.last rfl

/-- What a call did when it is done. -/
theorem of_done (hcap : c.capabilities = t.capabilities)
    (h : call.perform Token.line c t = (.ok v, c', t')) :
    ∃ cs last payload after, call.Asks c cs last ∧ t.askAll last cs = (.ok payload, t')
      ∧ call.operation.conclude c payload = (.ok v, after) := by
  cases performed hcap h with
  | done hasks hall hconclude => exact ⟨_, _, _, _, hasks, hall, hconclude⟩

/-- **All calls but the seven leave code slots and the clock alone.** -/
theorem same_of_spares (hcap : c.capabilities = t.capabilities) (hspares : call.spares = true)
    (h : call.perform Token.line c t = (.ok v, c', t')) : t.SameCodes t' := by
  obtain ⟨cs, last, payload, after, hasks, hall, -⟩ := of_done hcap h
  obtain ⟨t₁, hsame, -, heffect⟩ := Token.effect_of_askAll_ok hasks.opening hall
  refine hsame.trans (heffect.same_of_spares ?_)
  rw [Command.id_norm]
  exact hasks.last hspares

/-- No call changes the settings of the token, or what the host takes them to
be. -/
theorem settings_of_perform {result : Except Error Value} (hcap : c.capabilities = t.capabilities)
    (h : call.perform Token.line c t = (result, c', t')) :
    t'.config = t.config ∧ c'.capabilities = c.capabilities := by
  cases performed hcap h with
  | unsent => exact ⟨rfl, rfl⟩
  | failed hasks hall => exact ⟨Token.config_of_askAll hall, rfl⟩
  | unread hasks hall hconclude => exact ⟨Token.config_of_askAll hall, rfl⟩
  | done hasks hall hconclude =>
    have hkeeps := call.keeps _ _ _ _ hconclude
    exact ⟨Token.config_of_askAll hall, hkeeps⟩

end Call

/-! ## §3. A write when it is done. -/

/-- A slot holds what was written to it: texts up to their first zero byte,
flags and moving number as they are, and the secret that was typed, filled up
with zeros.  If none was typed it is the one that the slot had. -/
structure CodeSlot.Holds (slot : CodeSlot) (data : SlotData) (moving : UInt64) (capacity : Nat)
    (previous : Option CodeSlot) : Prop where
  details : slot.details = ⟨Utf8.untilNul data.name, data.flags, Utf8.untilNul data.tokenId, moving⟩
  kept : data.secret = "" → previous.map CodeSlot.secret = some slot.secret
  typed : data.secret ≠ "" → ∃ bytes, Hex.decode (Utf8.encode data.secret) = .ok bytes
    ∧ bytes ≠ [] ∧ bytes.length ≤ capacity ∧ slot.secret.bytes = Bytes.padTo capacity bytes

/-- The same for a token with another capacity than the host believes: of the
secret that was typed it has as many bytes as there is room for. -/
structure CodeSlot.Takes (slot : CodeSlot) (data : SlotData) (moving : UInt64) (capacity : Nat)
    (previous : Option CodeSlot) : Prop where
  details : slot.details = ⟨Utf8.untilNul data.name, data.flags, Utf8.untilNul data.tokenId, moving⟩
  kept : data.secret = "" → previous.map CodeSlot.secret = some slot.secret
  typed : data.secret ≠ "" → ∃ bytes, Hex.decode (Utf8.encode data.secret) = .ok bytes
    ∧ bytes ≠ [] ∧ (∀ i < Operation.pieceCount bytes, chunkWidth * i < capacity)
    ∧ slot.secret.bytes = Bytes.padTo capacity (bytes.take capacity)

/-- If there was room it is the whole secret. -/
theorem CodeSlot.Takes.holds {slot : CodeSlot} {data : SlotData} {moving : UInt64} {capacity : Nat}
    {previous : Option CodeSlot} {secret : Secret} (h : slot.Takes data moving capacity previous)
    (hsecret : Secret.ofHex data.secret capacity = .ok secret) :
    slot.Holds data moving capacity previous := by
  obtain ⟨hdecode, hlen⟩ := Secret.of_ofHex hsecret
  refine ⟨h.details, h.kept, fun htext => ?_⟩
  obtain ⟨bytes, hbytes, hne, -, hslot⟩ := h.typed htext
  cases hdecode.symm.trans hbytes
  rw [List.take_of_length_le hlen] at hslot
  exact ⟨secret.bytes, hbytes, hne, hlen, hslot⟩

section Write

variable {c : Client} {t t₁ t' : Token} {kind : CodeKind} {index : UInt8} {data : SlotData}
  {moving : UInt64} {temp : Secret} {cs : List Command} {last : Command} {payload : Payload}

/-- **A write that is done leaves in its slot what the caller gave, as far as there
is room for it**, and changes nothing else. -/
theorem Token.takes_of_write (hasks : Operation.AsksWrite c kind index data moving temp cs last)
    (htaken : t.taken? cs = some t₁) (hask : t₁.ask last = (.ok payload, t')) :
    (SlotFamily.code kind).holds index = true
      ∧ ∃ slot, slot.Takes data moving t.capabilities.secretLength (t.store.codes.at? kind index)
        ∧ ¬ (kind = .totp ∧ moving = 0)
        ∧ t' = { t with
            staged := .empty
            store := { t.store with codes := t.store.codes.set kind index (some slot) } } := by
  obtain ⟨number, secret, hnumber, hsecret, rfl, rfl⟩ := hasks
  obtain ⟨hdecode, hlen⟩ := Secret.of_ofHex hsecret
  -- the write finds the secret staged, or none
  obtain ⟨hstarts, rfl⟩ := Token.eq_of_taken_staging
    (Nat.le_trans hlen (Capabilities.secretLength_le _)) htaken
  obtain ⟨kind', index', name, previous, kept, hnumber', hname, hprevious, hkept, ht'⟩ :=
    (Token.effect_of_ask_ok hask).of_writeToSlot_ok
  have hperiod := (Token.effect_of_ask_ok hask).period_of_writeToSlot_ok
    (CodeKind.ofSlotNumber?_of_slotNumber? hnumber)
  cases (CodeKind.ofSlotNumber?_of_slotNumber? hnumber).symm.trans hnumber'
  cases hname
  have hat : t.store.codes.at? kind index = previous := congrArg Option.join hprevious
  have hholds : (SlotFamily.code kind).holds index = true := by
    rw [← CodeTable.isSome_get?_iff (t := t.store.codes)]
    exact Option.isSome_of_eq_some hprevious
  refine ⟨hholds, _, ⟨rfl, ?_, ?_⟩, hperiod, ht'⟩
  · intro htext
    -- nothing was typed, so the slot gives the secret
    rw [htext] at hdecode
    have hempty : secret.bytes = [] := (Except.ok.inj hdecode).symm
    rw [if_pos hempty] at hkept
    rw [hat]
    exact hkept
  · intro htext
    have hne : secret.bytes ≠ [] := Hex.ne_nil_of_decode hdecode (Utf8.encode_ne_nil htext)
    rw [if_neg hne] at hkept
    cases hkept
    exact ⟨secret.bytes, hdecode, hne, hstarts, rfl⟩

/-- **A write that is done leaves in its slot what the caller gave**, and
changes nothing else. -/
theorem Token.of_write (hcap : c.capabilities = t.capabilities)
    (hasks : Operation.AsksWrite c kind index data moving temp cs last)
    (htaken : t.taken? cs = some t₁) (hask : t₁.ask last = (.ok payload, t')) :
    (SlotFamily.code kind).holds index = true
      ∧ ∃ slot, slot.Holds data moving t.capabilities.secretLength (t.store.codes.at? kind index)
        ∧ t' = { t with
            staged := .empty
            store := { t.store with codes := t.store.codes.set kind index (some slot) } } := by
  obtain ⟨hholds, slot, htakes, -, ht'⟩ := Token.takes_of_write hasks htaken hask
  obtain ⟨-, secret, -, hsecret, -, -⟩ := hasks
  rw [hcap] at hsecret
  exact ⟨hholds, slot, htakes.holds hsecret, ht'⟩

end Write

end OtpToken
