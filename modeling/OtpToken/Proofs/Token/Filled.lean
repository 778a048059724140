/-
  OtpToken.Proofs.Token.Filled
  ────────────────────────────
  **ZEROS BEHIND A SECRET ARE NOT TO BE SEEN.**

  `Secret.filled` fills a secret up to the block of the hash, which changes none of its
  codes (`codeValue_filled`).  `Token.filled` does it to every code slot.  A command
  answers the same with the zeros and without them, and two tokens that were the same once
  their secrets are filled up are so afterwards (`fills_execute`).  The one place where
  they part is a write: the secret that was staged is kept as it came.

  So two such tokens reply the same to every run of reports (`replies_of_filled`).
-/
import OtpToken.Proofs.Code
import OtpToken.Proofs.Token.Rekeyed

namespace OtpToken

/-! ## §1. Secrets. -/

/-- The secret filled up to a block.  No secret is not one of zeros. -/
def Secret.filled (s : Secret) : Secret :=
  if s.bytes = [] then s else ⟨Bytes.padTo Hmac.blockLength s.bytes⟩

theorem Secret.filled_of_ne_nil {s : Secret} (h : s.bytes ≠ []) :
    s.filled = ⟨Bytes.padTo Hmac.blockLength s.bytes⟩ := if_neg h

/-- **Within a block, zeros that are there already do not matter.** -/
theorem Secret.filled_padTo {width : Nat} {s : Secret} (hwidth : width ≤ Hmac.blockLength)
    (h : s.bytes ≠ []) : Secret.filled ⟨Bytes.padTo width s.bytes⟩ = s.filled := by
  have hpad : (Secret.mk (Bytes.padTo width s.bytes)).bytes ≠ [] := Bytes.padTo_ne_nil h
  rw [filled_of_ne_nil h, filled_of_ne_nil hpad, Bytes.padTo_padTo hwidth]

theorem Secret.filled_filled (s : Secret) : s.filled.filled = s.filled := by
  by_cases h : s.bytes = []
  · have hsame : s.filled = s := if_pos h
    rw [hsame, hsame]
  · have hblock := filled_padTo (Nat.le_refl Hmac.blockLength) h
    rwa [← filled_of_ne_nil h] at hblock

/-- **A secret that is filled up has the codes of the secret.** -/
theorem codeValue_filled (s : Secret) (counter : UInt64) (digits : Digits) :
    codeValue s.filled.bytes counter digits = codeValue s.bytes counter digits := by
  by_cases hempty : s.bytes = []
  · have hsame : s.filled = s := if_pos hempty
    rw [hsame]
  · rw [Secret.filled_of_ne_nil hempty]
    by_cases hlong : Hmac.blockLength ≤ s.bytes.length
    · rw [Bytes.padTo_of_le hlong]
    · exact codeValue_padTo (Nat.le_refl _) (Nat.le_of_not_le hlong) hempty counter digits

/-! ## §2. Slots. -/

namespace Store

/-- The store with its code secrets filled up. -/
def filled (s : Store) : Store := s.rekeyed Secret.filled

variable (s : Store) (index : UInt8)

theorem filled_filled : s.filled.filled = s.filled := s.rekeyed_of_idem Secret.filled_filled

/-- What is written is kept as it came, with zeros or without. -/
theorem writeCode_filled (kind : CodeKind) (write : CodeWrite) :
    (s.filled.writeCode kind index write).1 = (s.writeCode kind index write).1
      ∧ (s.filled.writeCode kind index write).2.filled
          = (s.writeCode kind index write).2.filled := by
  have hwrite := s.writeCode_rekeyed Secret.filled kind index write.details write.secret
  have hwrite' :=
    s.filled.writeCode_rekeyed Secret.filled kind index write.details write.secret
  rw [show s.filled.rekeyed Secret.filled = s.filled from s.filled_filled] at hwrite'
  exact Prod.mk.inj (hwrite'.symm.trans hwrite)

/-- **The next code of a slot does not show the zeros.** -/
theorem nextHotp_filled (maximum : UInt64) :
    s.filled.nextHotp index maximum
      = ((s.nextHotp index maximum).1, (s.nextHotp index maximum).2.filled) := by
  have hcode : s.filled.code .hotp index
      = (s.code .hotp index).map (CodeSlot.rekeyed Secret.filled) :=
    s.code_rekeyed Secret.filled .hotp index
  unfold nextHotp
  rw [hcode]
  cases s.code .hotp index with
  | error status => rfl
  | ok slot =>
    have hvalue := codeValue_filled slot.secret slot.details.counter slot.details.flags.digits
    show (if maximum ≤ slot.details.counter then _ else _) = _
    dsimp only [CodeSlot.rekeyed]
    rw [hvalue]
    split
    · rfl
    · cases codeValue slot.secret.bytes slot.details.counter slot.details.flags.digits with
      | error why => rfl
      | ok code =>
        exact congrArg (Prod.mk _)
          (s.rekeyed_set Secret.filled .hotp index (some { slot with details := _ })).symm

/-- **Nor does the code of a slot at a time.** -/
theorem totp_filled (time : UInt64) : s.filled.totp index time = s.totp index time := by
  have hcode : s.filled.code .totp index
      = (s.code .totp index).map (CodeSlot.rekeyed Secret.filled) :=
    s.code_rekeyed Secret.filled .totp index
  unfold totp
  rw [hcode]
  cases s.code .totp index with
  | error status => rfl
  | ok slot =>
    have hvalue := fun step => codeValue_filled slot.secret step slot.details.flags.digits
    show (if UInt32.size ≤ slot.details.counter.toNat then _ else _) = _
    dsimp only [CodeSlot.rekeyed]
    simp only [hvalue]

end Store

/-! ## §3. One command. -/

namespace Token

/-- The token with the secrets of its code slots filled up. -/
def filled (t : Token) : Token := t.rekeyed Secret.filled id

/-- Two commands were answered alike, and once the secrets are filled up the tokens after
them are the same. -/
def Fills (r r' : Answer × Token) : Prop := r'.1 = r.1 ∧ r'.2.filled = r.2.filled

variable (t : Token)

theorem filled_filled : t.filled.filled = t.filled :=
  congrArg (fun store => { t with store }) t.store.filled_filled

theorem fills_of_eq {r r' : Answer × Token} (h : r' = (r.1, r.2.filled)) : Fills r r' := by
  rw [h]
  exact ⟨rfl, r.2.filled_filled⟩

theorem stage_filled (kind : DataKind) (chunk : UInt8) (data : Bytes) :
    Fills (t.stage kind chunk data) (t.filled.stage kind chunk data) := by
  have hchunk : t.filled.staged.withChunk t.filled.capabilities.secretLength chunk data
      = t.staged.withChunk t.capabilities.secretLength chunk data := rfl
  unfold stage
  rw [hchunk]
  cases kind with
  | name =>
    dsimp only
    split
    · exact fills_of_eq rfl
    · exact fills_of_eq rfl
  | secret => exact fills_of_eq rfl

/-- Stores that are the same once they are filled up are committed alike. -/
theorem fills_commit {step step' : Except Status Unit × Store} (hresult : step'.1 = step.1)
    (hstore : step'.2.filled = step.2.filled) :
    Fills (t.commit step) (t.filled.commit step') :=
  ⟨congrArg (Except.map fun _ => Payload.empty) hresult,
    congrArg (fun store => { t with store }) hstore⟩

theorem writeStaged_filled (number : UInt8) (counter : UInt64) (flags : SlotFlags)
    (tokenId : String) :
    Fills (t.writeStaged number counter flags tokenId)
      (t.filled.writeStaged number counter flags tokenId) := by
  refine withSlot_both (fills_of_eq rfl) fun kind index => ?_
  have hstaged : t.filled.staged = t.staged := rfl
  rw [hstaged]
  cases t.staged.name with
  | none => exact fills_of_eq rfl
  | some name =>
    obtain ⟨hresult, hstore⟩ := t.store.writeCode_filled index kind
      ⟨⟨name, flags, tokenId, counter⟩, t.staged.secret.map Secret.mk⟩
    exact fills_commit { t with staged := .empty } hresult hstore

theorem giveCode_filled (number : UInt8) :
    Fills (t.giveCode number) (t.filled.giveCode number) := by
  refine withSlot_both (fills_of_eq rfl) fun kind index => ?_
  cases kind with
  | hotp =>
    have hnext : t.filled.store.nextHotp index t.filled.encoding.maximum
        = ((t.store.nextHotp index t.encoding.maximum).1,
            (t.store.nextHotp index t.encoding.maximum).2.filled) :=
      t.store.nextHotp_filled index t.encoding.maximum
    dsimp only
    rw [hnext]
    obtain ⟨status | record, store⟩ := t.store.nextHotp index t.encoding.maximum
    · exact fills_of_eq rfl
    · exact fills_of_eq rfl
  | totp =>
    have htotp : t.filled.store.totp index t.filled.clock = t.store.totp index t.clock :=
      t.store.totp_filled index t.clock
    dsimp only
    rw [htotp]
    cases t.store.totp index t.clock with
    | error status => exact fills_of_eq rfl
    | ok record => exact fills_of_eq rfl

/-- **A command answers the same with the zeros and without them**, and does the same. -/
theorem fills_execute (c : Command) : Fills (t.execute c) (t.filled.execute c) := by
  cases c with
  | sendOtpData temp kind chunk data =>
    exact withTemp_both rfl (fills_of_eq rfl) (t.stage_filled kind chunk data.bytes)
  | writeToSlot temp number counter flags tokenId =>
    exact withTemp_both rfl (fills_of_eq rfl) (t.writeStaged_filled number counter flags tokenId)
  | getCode number challenge lastTime lastInterval temp =>
    have hgive := t.giveCode_filled number
    show Fills _ (if t.store.config.protectsCodes then _ else _)
    unfold execute
    dsimp only
    split
    · exact withTemp_both rfl (fills_of_eq rfl) hgive
    · exact hgive
  | factoryReset pin =>
    show Fills (t.withPin .admin pin fun t => done t.factoryReset)
      (t.filled.withPin .admin pin fun t => done t.factoryReset)
    exact withPin_both rfl (fun _ _ => fills_of_eq rfl) fun _ => ⟨rfl, rfl⟩
  | _ => exact fills_of_eq (t.execute_rekeyed Secret.filled id rfl)

/-- The token with a code slot programmed. -/
def program (t : Token) (kind : CodeKind) (index : UInt8) (slot : CodeSlot) : Token :=
  { t with store := { t.store with codes := t.store.codes.set kind index (some slot) } }

/-- A slot that is programmed with zeros behind its secret is the same once it is filled
up. -/
theorem filled_program {secret secret' : Secret} (h : secret'.filled = secret.filled)
    (kind : CodeKind) (index : UInt8) (details : SlotDetails) :
    (t.program kind index ⟨details, secret'⟩).filled
      = (t.program kind index ⟨details, secret⟩).filled := by
  have hslots (secret : Secret) : (t.program kind index ⟨details, secret⟩).store.filled
      = { t.store.filled with
          codes := t.store.filled.codes.set kind index (some ⟨details, secret.filled⟩) } :=
    t.store.rekeyed_set Secret.filled kind index (some ⟨details, secret⟩)
  have hstore : (t.program kind index ⟨details, secret'⟩).store.filled
      = (t.program kind index ⟨details, secret⟩).store.filled := by
    rw [hslots, hslots, h]
  exact congrArg (fun store => { t with store }) hstore

/-! ## §4. Every run. -/

variable {t} {t' : Token}

theorem fills_both (h : t'.filled = t.filled) (c : Command) :
    Fills (t.execute c) (t'.execute c) := by
  obtain ⟨hanswer, htoken⟩ := t.fills_execute c
  obtain ⟨hanswer', htoken'⟩ := t'.fills_execute c
  rw [h] at hanswer' htoken'
  exact ⟨hanswer'.symm.trans hanswer, htoken'.symm.trans htoken⟩

/-- One report keeps two tokens the same but for zeros, and is replied to alike. -/
theorem send_of_filled (h : t'.filled = t.filled) (report : Report) :
    (t'.send report).1 = (t.send report).1
      ∧ (t'.send report).2.filled = (t.send report).2.filled := by
  have hconfig : t'.config = t.config := by
    show t'.filled.config = t.filled.config
    rw [h]
  have hplug : t'.pluggedIn = t.pluggedIn := by
    show t'.filled.pluggedIn = t.filled.pluggedIn
    rw [h]
  rcases send_alike hconfig hplug report with
    ⟨reply, hsend, hsend', -⟩ | ⟨q, c, -, hsend, hsend'⟩
  · rw [hsend, hsend']
    exact ⟨rfl, h⟩
  · obtain ⟨hanswer, htoken⟩ := fills_both h c
    rw [hsend, hsend', hanswer]
    exact ⟨rfl, htoken⟩

/-- **Tokens that differ only in zeros behind their secrets reply the same**, to every run
of reports. -/
theorem replies_of_filled (h : t'.filled = t.filled) (reports : List Report) :
    t'.replies reports = t.replies reports := by
  induction reports generalizing t t' with
  | nil => rfl
  | cons report reports ih =>
    obtain ⟨hreply, htoken⟩ := send_of_filled h report
    show (t'.send report).1 :: _ = (t.send report).1 :: _
    rw [hreply, ih htoken]

end Token

end OtpToken
