/-
  OtpToken.Proofs.Token.Sound
  ───────────────────────────
  **WHAT IS TRUE OF A TOKEN WHATEVER IT WAS SENT.**

      attempts          at most three for each role
      stored secrets    exactly as long as the firmware says
      staged secrets    the same
      HOTP counters     at most what the firmware can write
      TOTP periods      at least one
      slot names        not empty
      Password Safe     enabled only with a valid AES key

  `slot_execute` says where the contents of a code slot come from: they were
  there, a code moved the counter on, or they were written.  A buffer for a
  secret is made with its full length and a piece never changes the length
  (`length_of_withChunk`), so chunks may come in any order and any number.
-/
import OtpToken.Proofs.Token.Counter

namespace OtpToken

/-! ## §1. Staged secrets. -/

namespace Staged

theorem length_overlay {buffer : Bytes} {offset : Nat} (h : offset ≤ buffer.length)
    (bytes : Bytes) : (overlay buffer offset bytes).length = buffer.length := by
  unfold overlay
  simp only [List.length_append, List.length_take, List.length_drop]
  omega

/-- The buffer that a piece is laid over has the full length. -/
theorem length_buffer {s : Staged} {capacity : Nat}
    (h : ∀ secret, s.secret = some secret → secret.length = capacity) :
    (s.secret.getD (List.replicate capacity 0)).length = capacity := by
  cases hstaged : s.secret with
  | none => exact List.length_replicate
  | some secret => exact h secret hstaged

/-- **A piece that is taken leaves a buffer of the full length**, whichever
piece it is. -/
theorem length_of_withChunk {s s' : Staged} {capacity : Nat} {chunk : UInt8} {data secret : Bytes}
    (hs : ∀ secret, s.secret = some secret → secret.length = capacity)
    (h : s.withChunk capacity chunk data = (.ok (), s')) (hsecret : s'.secret = some secret) :
    secret.length = capacity := by
  have hbuffer := length_buffer hs
  unfold withChunk at h
  dsimp only at h
  split at h
  · cases h
  · next hroom =>
    cases h
    cases hsecret
    have hoffset : chunk.toNat * chunkWidth
        ≤ (s.secret.getD (List.replicate capacity 0)).length := by
      rw [hbuffer]
      exact Nat.le_of_not_le hroom
    rw [length_overlay hoffset, hbuffer]

end Staged

/-! ## §2. Where the contents of a slot come from. -/

/-- A slot without a name is not written. -/
theorem Store.name_of_writeCode {s s' : Store} {kind : CodeKind} {index : UInt8} {w : CodeWrite}
    (h : s.writeCode kind index w = (.ok (), s')) : w.details.name ≠ "" := by
  intro hname
  unfold writeCode at h
  rw [hname] at h
  cases h

namespace Token

variable {t t' : Token} {payload : Payload}

theorem name_of_write {temp : Secret} {number : UInt8} {counter : UInt64} {flags : SlotFlags}
    {tokenId name : String}
    (h : t.execute (.writeToSlot temp number counter flags tokenId) = (.ok payload, t'))
    (hname : t.staged.name = some name) : name ≠ "" := by
  have h : t.writeStaged number counter flags tokenId = (.ok payload, t') := of_withTemp_ok h
  unfold writeStaged at h
  obtain ⟨kind, index, -, h⟩ := of_withSlot_ok h
  rw [hname] at h
  obtain ⟨s, hs, -⟩ := of_commit_ok h
  exact Store.name_of_writeCode hs

/-- **What a command makes of a code slot that is programmed afterwards.** -/
inductive SlotStep (t : Token) (c : Command) (kind : CodeKind) (index : UInt8) :
    CodeSlot → Prop
  | kept {slot : CodeSlot} (hslot : t.store.codes.at? kind index = some slot) :
      SlotStep t c kind index slot
  | counted {slot : CodeSlot} (hkind : kind = .hotp)
      (hslot : t.store.codes.at? kind index = some slot)
      (hroom : slot.details.counter < t.encoding.maximum) :
      SlotStep t c kind index slot.counted
  /-- The secret is what is staged, or what was in the slot. -/
  | written {temp secret : Secret} {number : UInt8} {counter : UInt64} {flags : SlotFlags}
      {tokenId name : String} (hc : c = .writeToSlot temp number counter flags tokenId)
      (hnumber : CodeKind.ofSlotNumber? number = some (kind, index))
      (hname : t.staged.name = some name) (hfilled : name ≠ "")
      (hperiod : kind = .totp → counter ≠ 0)
      (hsecret : t.staged.secret = some secret.bytes
        ∨ ∃ previous, t.store.codes.at? kind index = some previous
            ∧ secret = previous.secret) :
      SlotStep t c kind index ⟨⟨name, flags, tokenId, counter⟩, secret⟩

/-- A secret that is written was staged or was there. -/
theorem secret_of_write {staged : Option Bytes} {previous : Option CodeSlot} {secret : Secret}
    (h : (staged.map Secret.mk <|> previous.map CodeSlot.secret) = some secret) :
    staged = some secret.bytes ∨ ∃ slot, previous = some slot ∧ secret = slot.secret := by
  cases staged with
  | some bytes =>
    cases h
    exact .inl rfl
  | none =>
    cases previous with
    | none => cases h
    | some slot =>
      cases h
      exact .inr ⟨slot, rfl, rfl⟩

variable {c : Command} {kind : CodeKind} {index : UInt8} {slot : CodeSlot}

theorem slot_execute (h : (t.execute c).2.store.codes.at? kind index = some slot) :
    t.SlotStep c kind index slot := by
  have heffect := effect_execute t c
  have hfilled : ∀ temp number counter flags tokenId name payload t',
      c = .writeToSlot temp number counter flags tokenId → t.execute c = (.ok payload, t') →
      t.staged.name = some name → name ≠ "" := by
    rintro temp number counter flags tokenId name payload t' rfl hdone hname
    exact name_of_write hdone hname
  generalize t.execute c = r at h heffect hfilled
  cases heffect with
  | @written temp secret number place family counter flags tokenId name previous hpass hnumber
      hname hperiod hprevious hsecret =>
    rcases CodeTable.of_at?_set h with ⟨rfl, rfl, hslot⟩ | ⟨-, hslot⟩
    · cases hslot
      refine .written rfl hnumber hname (hfilled _ _ _ _ _ _ _ _ rfl rfl hname)
        (fun hkind hzero => hperiod ⟨hkind, hzero⟩) ?_
      rcases secret_of_write hsecret with hstaged | ⟨slot, rfl, heq⟩
      · exact .inl hstaged
      · exact .inr ⟨slot, congrArg Option.join hprevious, heq⟩
    · exact .kept hslot
  | erased _ _ =>
    rcases CodeTable.of_at?_set h with ⟨-, -, hslot⟩ | ⟨-, hslot⟩
    · cases hslot
    · exact .kept hslot
  | counted _ _ hslot hmax _ _ =>
    rcases CodeTable.of_at?_set h with ⟨rfl, rfl, hnext⟩ | ⟨-, hkept⟩
    · cases hnext
      exact .counted rfl (congrArg Option.join hslot) hmax
    · exact .kept hkept
  | reset _ => cases CodeTable.at?_empty.symm.trans h
  | keyRenewed _ =>
    -- clearing the Password Safe keeps the code slots
    have hcodes : ((ite _ _ _ : Store).codes.at? kind index) = some slot := h
    refine .kept ?_
    split at hcodes
    · exact hcodes
    · exact hcodes
  | _ => exact .kept h

end Token

/-! ## §3. The invariant. -/

/-- A period that fits 32 bits and is not zero is not zero in 32 bits. -/
theorem toUInt32_ne_zero {period : UInt64} (hpositive : 1 ≤ period)
    (hsmall : period.toNat < UInt32.size) : period.toUInt32 ≠ 0 := by
  intro h
  have hzero : period.toNat % 4294967296 = 0 := congrArg UInt32.toNat h
  have hlow : 1 ≤ period.toNat := UInt64.le_iff_toNat_le.mp hpositive
  have hhigh : period.toNat < 4294967296 := hsmall
  omega

/-- A stored code slot as it always is. -/
structure CodeSlot.Sound (capabilities : Capabilities) (kind : CodeKind) (slot : CodeSlot) :
    Prop where
  secret : slot.secret.length = capabilities.secretLength
  counter : kind = .hotp → slot.details.counter ≤ capabilities.encoding.maximum
  period : kind = .totp → 1 ≤ slot.details.counter
  name : slot.details.name ≠ ""

namespace Token

/-- **A token as it always is.** -/
structure Sound (t : Token) : Prop where
  attempts : ∀ role, t.session.retryCount role ≤ maxRetries
  slots : ∀ kind index slot, t.store.codes.at? kind index = some slot →
    slot.Sound t.capabilities kind
  staged : ∀ secret, t.staged.secret = some secret →
    secret.length = t.capabilities.secretLength
  key : t.safeEnabled = true → t.keyValid = true

/-- The number of attempts carries its bound with it. -/
theorem attempts_le (s : Session) (role : Role) : s.retryCount role ≤ maxRetries := by
  cases role with
  | unauthenticated => exact Nat.zero_le _
  | user => exact s.user.retries.remaining_le
  | admin => exact s.admin.retries.remaining_le

theorem sound_fresh (config : TokenConfig) : (fresh config).Sound where
  attempts := attempts_le _
  slots _ _ _ h := by cases CodeTable.at?_empty.symm.trans h
  staged _ h := by cases h
  key h := by cases h

variable {t : Token} {c : Command} {r : Answer × Token}

/-- A command leaves staged secrets of the full length. -/
theorem Effect.staged_length (h : t.Effect c r)
    (hstaged : ∀ secret, t.staged.secret = some secret →
      secret.length = t.capabilities.secretLength) :
    ∀ secret, r.2.staged.secret = some secret → secret.length = t.capabilities.secretLength := by
  intro secret hsecret
  cases h with
  | @staged _ _ kind _ _ _ hnext =>
    cases kind with
    | name =>
      rw [show (_ : Staged) = _ from hnext] at hsecret
      cases hsecret
    | secret => exact Staged.length_of_withChunk hstaged hnext hsecret
  | unwritten _ _ => cases hsecret
  | written _ _ _ _ _ _ => cases hsecret
  | reset _ => cases hsecret
  | _ => exact hstaged secret hsecret

/-- The Password Safe is not enabled without a valid key. -/
theorem Effect.key_valid (h : t.Effect c r) (hkey : t.safeEnabled = true → t.keyValid = true) :
    r.2.safeEnabled = true → r.2.keyValid = true := by
  cases h with
  | locked => exact nofun
  | reset _ => exact nofun
  | safeOpened _ hvalid => exact fun _ => hvalid
  | keyRenewed _ => exact fun _ => rfl
  | _ => exact hkey

/-- **A command whose counter is at most the maximum keeps a token sound**,
however it ends. -/
theorem Sound.execute (h : t.Sound)
    (hcounter : ∀ counter ∈ c.counter?, counter ≤ t.encoding.maximum) :
    (t.execute c).2.Sound := by
  have heffect := effect_execute t c
  have hcapabilities : (t.execute c).2.capabilities = t.capabilities :=
    capabilities_eq heffect.config_eq
  refine ⟨attempts_le _, fun kind index slot hslot => ?_, ?_, heffect.key_valid h.key⟩
  · rw [hcapabilities]
    cases slot_execute hslot with
    | kept hkept => exact h.slots kind index slot hkept
    | counted hkind hprevious hroom =>
      obtain ⟨hsecret, -, -, hname⟩ := h.slots kind index _ hprevious
      refine ⟨hsecret, fun _ => ?_, fun htotp => ?_, hname⟩
      · rw [UInt64.le_iff_toNat_le, CodeSlot.toNat_counted hroom]
        exact UInt64.lt_iff_toNat_lt.mp hroom
      · cases hkind.symm.trans htotp
    | written hc _ _ hfilled hperiod hsecret =>
      refine ⟨?_, fun _ => hcounter _ ?_, fun htotp => ?_, hfilled⟩
      · rcases hsecret with hstaged | ⟨previous, hprevious, rfl⟩
        · exact h.staged _ hstaged
        · exact (h.slots kind index previous hprevious).secret
      · rw [hc]
        rfl
      · exact UInt64.le_iff_toNat_le.mpr (Nat.pos_of_ne_zero fun e =>
          hperiod htotp (UInt64.toNat_inj.mp e))
  · rw [hcapabilities]
    exact heffect.staged_length h.staged

end Token

/-! ## §4. Dialogues. -/

/-- **Every token is sound, whatever reports it was sent.** -/
theorem Dialogue.sound_run (config : TokenConfig) (reports : List Report) :
    ((start config).run reports).token.Sound := by
  refine start_induction (I := fun d => d.token.Sound) (Token.sound_fresh config) ?_ reports
  intro reports report hsound
  obtain ⟨-, hplug⟩ := fixed_run config reports
  rw [token_hear]
  rcases Token.send_state hplug report with hsame | ⟨c, hc, hstep⟩
  · rw [hsame]
    exact hsound
  · obtain ⟨q, -, hparse⟩ := Command.of_ofReport? hc
    rw [hstep]
    exact hsound.execute (Command.counter_le_of_parse hparse)

end OtpToken
