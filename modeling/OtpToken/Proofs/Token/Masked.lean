/-
  OtpToken.Proofs.Token.Masked
  ────────────────────────────
  **SECRETS OF CODE SLOTS SHOW ONLY IN CODES.**

  `Token.masked` puts zeros in the place of every secret of a code slot and of
  the secret that is staged; names, counters, flags and lengths stay.  A command
  makes of the masked token what it makes of the token, up to another mask, and
  answers the same (`masks_execute`), apart from the four bytes of a code.  So
  two tokens with one masked token between them reply the same, run after run
  (`secrets_masked`).

  A new piece of a secret is the one place where the mask has to be put on
  again: the piece is taken in as it came.
-/
import OtpToken.Proofs.Token.Rekeyed

namespace OtpToken

/-! ## §1. Masks. -/

/-- As many zeros. -/
def Bytes.masked (bs : Bytes) : Bytes := List.replicate bs.length 0

theorem Bytes.length_masked (bs : Bytes) : bs.masked.length = bs.length := List.length_replicate

theorem Bytes.masked_congr {bs bs' : Bytes} (h : bs'.length = bs.length) :
    bs'.masked = bs.masked := congrArg (List.replicate · 0) h

/-- The secret with its length only. -/
def Secret.masked (s : Secret) : Secret := ⟨s.bytes.masked⟩

/-- The slot with the length of its secret only. -/
def CodeSlot.masked (slot : CodeSlot) : CodeSlot := { slot with secret := slot.secret.masked }

/-- The staged data with the length of its secret only. -/
def Staged.masked (g : Staged) : Staged := { g with secret := g.secret.map Bytes.masked }

/-- The store with the lengths of the code secrets only. -/
def Store.masked (s : Store) : Store := { s with codes := s.codes.map CodeSlot.masked }

/-- The token with the lengths of the code secrets only. -/
def Token.masked (t : Token) : Token := t.mapStored Store.masked Staged.masked

theorem Bytes.masked_masked (bs : Bytes) : bs.masked.masked = bs.masked :=
  masked_congr bs.length_masked

theorem Staged.masked_masked (g : Staged) : g.masked.masked = g.masked := by
  obtain ⟨name, secret⟩ := g
  cases secret with
  | none => rfl
  | some bs => exact congrArg (fun bs => Staged.mk name (some bs)) bs.masked_masked

theorem Store.masked_masked (s : Store) : s.masked.masked = s.masked :=
  s.rekeyed_of_idem fun secret => congrArg Secret.mk secret.bytes.masked_masked

theorem Token.masked_masked (t : Token) : t.masked.masked = t.masked := by
  show { t with store := t.store.masked.masked, staged := t.staged.masked.masked } = _
  rw [Store.masked_masked, Staged.masked_masked]
  rfl

/-! ## §2. Code slots behind a mask. -/

/-- A code can be made of every secret that is not empty. -/
theorem CodeSlot.codeValue_masked (slot : CodeSlot) (counter : UInt64) (digits : Digits) :
    (∃ why, codeValue slot.secret.bytes counter digits = .error why
        ∧ codeValue slot.masked.secret.bytes counter digits = .error why)
      ∨ ∃ code code', codeValue slot.secret.bytes counter digits = .ok code
        ∧ codeValue slot.masked.secret.bytes counter digits = .ok code' := by
  obtain ⟨details, ⟨bytes⟩⟩ := slot
  cases bytes with
  | nil => exact .inl ⟨_, rfl, rfl⟩
  | cons b bs => exact .inr ⟨_, _, rfl, rfl⟩

namespace Store

variable (s : Store) (kind : CodeKind) (index : UInt8)

/-- One slot is changed behind the mask as it is in front of it. -/
theorem masked_set (contents : Option CodeSlot) :
    { s with codes := s.codes.set kind index contents }.masked
      = { s.masked with
          codes := s.masked.codes.set kind index (contents.map CodeSlot.masked) } :=
  s.rekeyed_set Secret.masked kind index contents

theorem code_masked :
    s.masked.code kind index = (s.code kind index).map CodeSlot.masked :=
  s.code_rekeyed Secret.masked kind index

theorem writeCode_masked (details : SlotDetails) (secret : Option Secret) :
    s.masked.writeCode kind index ⟨details, secret.map Secret.masked⟩
      = ((s.writeCode kind index ⟨details, secret⟩).1,
          (s.writeCode kind index ⟨details, secret⟩).2.masked) :=
  s.writeCode_rekeyed Secret.masked kind index details secret

/-- The next code of a slot behind the mask: refused alike, or another code with
the same flags, and the counter has moved on alike. -/
theorem nextHotp_masked (maximum : UInt64) :
    (∃ status after, s.nextHotp index maximum = (.error status, after)
        ∧ s.masked.nextHotp index maximum = (.error status, after.masked))
      ∨ ∃ code code' flags after, s.nextHotp index maximum = (.ok ⟨code, flags⟩, after)
        ∧ s.masked.nextHotp index maximum = (.ok ⟨code', flags⟩, after.masked) := by
  unfold nextHotp
  rw [code_masked]
  cases s.code .hotp index with
  | error status => exact .inl ⟨status, s, rfl, rfl⟩
  | ok slot =>
    have hslot : Except.map CodeSlot.masked (.ok slot) = (.ok slot.masked : Except Status _) := rfl
    have hdetails : slot.masked.details = slot.details := rfl
    rw [hslot]
    dsimp only
    rw [hdetails]
    by_cases hmax : maximum ≤ slot.details.counter
    · rw [if_pos hmax, if_pos hmax]
      exact .inl ⟨_, s, rfl, rfl⟩
    · rw [if_neg hmax, if_neg hmax]
      rcases slot.codeValue_masked slot.details.counter slot.details.flags.digits with
        ⟨why, hcode, hcode'⟩ | ⟨code, code', hcode, hcode'⟩
      · rw [hcode, hcode']
        exact .inl ⟨_, s, rfl, rfl⟩
      · rw [hcode, hcode']
        exact .inr ⟨code, code', _, _, rfl, congrArg (Prod.mk _)
          (s.masked_set .hotp index (some { slot with details := _ })).symm⟩

/-- The code of a slot at a time, behind the mask. -/
theorem totp_masked (time : UInt64) :
    (∃ status, s.totp index time = .error status ∧ s.masked.totp index time = .error status)
      ∨ ∃ code code' flags, s.totp index time = .ok ⟨code, flags⟩
        ∧ s.masked.totp index time = .ok ⟨code', flags⟩ := by
  unfold totp
  rw [code_masked]
  cases s.code .totp index with
  | error status => exact .inl ⟨status, rfl, rfl⟩
  | ok slot =>
    have hslot : Except.map CodeSlot.masked (.ok slot) = (.ok slot.masked : Except Status _) := rfl
    have hdetails : slot.masked.details = slot.details := rfl
    rw [hslot]
    dsimp only
    rw [hdetails]
    by_cases hperiod : UInt32.size ≤ slot.details.counter.toNat
    · rw [if_pos hperiod, if_pos hperiod]
      exact .inl ⟨_, rfl, rfl⟩
    · rw [if_neg hperiod, if_neg hperiod]
      cases timeStep time slot.details.counter.toUInt32 with
      | error why => exact .inl ⟨_, rfl, rfl⟩
      | ok step =>
        dsimp only [Except.bind]
        rcases slot.codeValue_masked step slot.details.flags.digits with
          ⟨why, hcode, hcode'⟩ | ⟨code, code', hcode, hcode'⟩
        · rw [hcode, hcode']
          exact .inl ⟨_, rfl, rfl⟩
        · rw [hcode, hcode']
          exact .inr ⟨code, code', _, rfl, rfl⟩

end Store

/-! ## §3. One command behind the mask. -/

/-- An answer without the four bytes that a code would have in it. -/
def Answer.butCode (a : Answer) : Except Status Bytes := a.map fun payload => payload.bytes.drop 4

/-- Behind the four bytes of a code are its flags, and nothing else. -/
theorem CodeRecord.drop_encode {r : CodeRecord} {payload : Payload} (h : r.encode = .ok payload) :
    payload.bytes.drop 4 = r.flags.toByte :: List.replicate 48 0 := by
  cases h
  rfl

/-- A piece of a secret is taken in whatever is in the buffer. -/
theorem Staged.withChunk_masked (g : Staged) (capacity : Nat) (chunk : UInt8) (data : Bytes) :
    ∃ result next next', g.withChunk capacity chunk data = (result, next)
        ∧ g.masked.withChunk capacity chunk data = (result, next')
        ∧ next'.masked = next.masked := by
  have hoverlay : ∀ (buffer buffer' : Bytes), buffer'.length = buffer.length → ∀ offset bytes,
      (overlay buffer' offset bytes).length = (overlay buffer offset bytes).length := by
    intro buffer buffer' h offset bytes
    unfold overlay
    simp only [List.length_append, List.length_take, List.length_drop, h]
  have hbuffer : (g.masked.secret.getD (List.replicate capacity 0)).length
      = (g.secret.getD (List.replicate capacity 0)).length := by
    unfold masked
    cases g.secret with
    | none => rfl
    | some bs => exact bs.length_masked
  unfold withChunk
  dsimp only
  split
  · exact ⟨_, _, _, rfl, rfl, g.masked_masked⟩
  · refine ⟨_, _, _, rfl, rfl, congrArg (fun bs => Staged.mk g.name (some bs)) ?_⟩
    exact Bytes.masked_congr (hoverlay _ _ hbuffer _ _)

namespace Token

/-- Two commands were answered alike, and behind the mask the tokens after them
are the same. -/
def Masks (r r' : Answer × Token) : Prop := r'.1 = r.1 ∧ r'.2.masked = r.2.masked

theorem masks_of_eq {r r' : Answer × Token} (h : r' = (r.1, r.2.masked)) : Masks r r' := by
  rw [h]
  exact ⟨rfl, r.2.masked_masked⟩

/-- The answers may differ in the four bytes of a code besides. -/
def MasksCode (r r' : Answer × Token) : Prop :=
  r'.1.butCode = r.1.butCode ∧ r'.2.masked = r.2.masked

theorem Masks.code {r r' : Answer × Token} (h : Masks r r') : MasksCode r r' :=
  ⟨congrArg Answer.butCode h.1, h.2⟩

variable (t : Token)

theorem stage_masked (kind : DataKind) (chunk : UInt8) (data : Bytes) :
    Masks (t.stage kind chunk data) (t.masked.stage kind chunk data) := by
  unfold stage
  cases kind with
  | name =>
    dsimp only
    split
    · exact masks_of_eq rfl
    · exact masks_of_eq rfl
  | secret =>
    have hstaged : t.masked.staged = t.staged.masked := rfl
    have hcapabilities : t.masked.capabilities = t.capabilities := rfl
    rw [hstaged, hcapabilities]
    obtain ⟨result, next, next', hchunk, hchunk', hnext⟩ :=
      t.staged.withChunk_masked t.capabilities.secretLength chunk data
    rw [hchunk, hchunk']
    refine ⟨rfl, ?_⟩
    show { t with store := t.store.masked.masked, staged := next'.masked } = _
    rw [Store.masked_masked, hnext]
    rfl

theorem writeStaged_masked (number : UInt8) (counter : UInt64) (flags : SlotFlags)
    (tokenId : String) :
    Masks (t.writeStaged number counter flags tokenId)
      (t.masked.writeStaged number counter flags tokenId) := by
  refine withSlot_both (masks_of_eq rfl) fun kind index => ?_
  have hname : t.masked.staged.name = t.staged.name := rfl
  have hsecret : t.masked.staged.secret.map Secret.mk
      = (t.staged.secret.map Secret.mk).map Secret.masked := by
    show (t.staged.secret.map Bytes.masked).map Secret.mk = _
    cases t.staged.secret with
    | none => rfl
    | some bs => rfl
  rw [hname, hsecret]
  cases t.staged.name with
  | none => exact masks_of_eq rfl
  | some name =>
    have hwrite := t.store.writeCode_masked kind index ⟨name, flags, tokenId, counter⟩
      (t.staged.secret.map Secret.mk)
    have hstore : t.masked.store = t.store.masked := rfl
    dsimp only
    rw [hstore, hwrite]
    exact masks_of_eq (commit_mapStored (f := Store.masked) (g := Staged.masked)
      { t with staged := .empty } _)

/-- Every code can be told. -/
theorem masksCode_tell (code code' : UInt32) (flags : SlotFlags) (t : Token) :
    MasksCode (t.tell (CodeRecord.encode ⟨code, flags⟩))
      (t.masked.tell (CodeRecord.encode ⟨code', flags⟩)) := by
  obtain ⟨payload, hpayload⟩ := CodeRecord.encode_code ⟨code, flags⟩
  obtain ⟨payload', hpayload'⟩ := CodeRecord.encode_code ⟨code', flags⟩
  rw [tell_ok hpayload, tell_ok hpayload']
  refine ⟨congrArg Except.ok ?_, t.masked_masked⟩
  exact (CodeRecord.drop_encode hpayload').trans (CodeRecord.drop_encode hpayload).symm

theorem giveCode_masked (number : UInt8) :
    MasksCode (t.giveCode number) (t.masked.giveCode number) := by
  refine withSlot_both (masks_of_eq rfl).code fun kind index => ?_
  have hstore : t.masked.store = t.store.masked := rfl
  have hencoding : t.masked.encoding = t.encoding := rfl
  have hclock : t.masked.clock = t.clock := rfl
  rw [hstore, hencoding, hclock]
  cases kind with
  | hotp =>
    dsimp only
    rcases t.store.nextHotp_masked index t.encoding.maximum with
      ⟨status, after, hnext, hnext'⟩ | ⟨code, code', flags, after, hnext, hnext'⟩
    · rw [hnext, hnext']
      exact (masks_of_eq rfl).code
    · rw [hnext, hnext']
      exact masksCode_tell code code' flags { t with store := after }
  | totp =>
    dsimp only
    rcases t.store.totp_masked index t.clock with
      ⟨status, htotp, htotp'⟩ | ⟨code, code', flags, htotp, htotp'⟩
    · rw [htotp, htotp']
      exact (masks_of_eq rfl).code
    · rw [htotp, htotp']
      exact masksCode_tell code code' flags t

/-- **A command answers the same behind the mask, unless it gives a code**, and
does the same. -/
theorem masks_execute (c : Command) (hc : c.id ≠ .getCode) :
    Masks (t.execute c) (t.masked.execute c) := by
  cases c with
  | getCode number challenge lastTime lastInterval temp => exact absurd rfl hc
  | sendOtpData temp kind chunk data =>
    exact withTemp_both rfl (masks_of_eq rfl) (t.stage_masked kind chunk data.bytes)
  | writeToSlot temp number counter flags tokenId =>
    exact withTemp_both rfl (masks_of_eq rfl) (t.writeStaged_masked number counter flags tokenId)
  | factoryReset pin =>
    show Masks (t.withPin .admin pin fun t => done t.factoryReset)
      (t.masked.withPin .admin pin fun t => done t.factoryReset)
    exact withPin_both rfl (fun _ _ => masks_of_eq rfl) fun _ => ⟨rfl, rfl⟩
  | _ => exact masks_of_eq (t.execute_rekeyed Secret.masked Staged.masked rfl)

/-- **A command that gives a code answers the same but for the number**, and does
the same. -/
theorem masksCode_execute (number lastInterval : UInt8) (challenge lastTime : UInt64)
    (temp : Secret) : MasksCode (t.execute (.getCode number challenge lastTime lastInterval temp))
      (t.masked.execute (.getCode number challenge lastTime lastInterval temp)) := by
  have hgive := t.giveCode_masked number
  show MasksCode _ (if t.store.config.protectsCodes then _ else _)
  unfold execute
  dsimp only
  split
  · exact withTemp_both rfl (masks_of_eq rfl).code hgive
  · exact hgive

/-! ## §4. Two tokens behind one mask. -/

variable {t t' : Token}

/-- What the mask leaves is the same at both. -/
theorem eq_of_masked (h : t'.masked = t.masked) :
    t'.config = t.config ∧ t'.pluggedIn = t.pluggedIn ∧ t'.session = t.session
      ∧ t'.store.config = t.store.config := by
  show t'.masked.config = t.masked.config ∧ t'.masked.pluggedIn = t.masked.pluggedIn
    ∧ t'.masked.session = t.masked.session ∧ t'.masked.store.config = t.masked.store.config
  rw [h]
  exact ⟨rfl, rfl, rfl, rfl⟩

theorem masks_both (h : t'.masked = t.masked) {c : Command} (hc : c.id ≠ .getCode) :
    Masks (t.execute c) (t'.execute c) := by
  obtain ⟨hanswer, htoken⟩ := t.masks_execute c hc
  obtain ⟨hanswer', htoken'⟩ := t'.masks_execute c hc
  rw [h] at hanswer' htoken'
  exact ⟨hanswer'.symm.trans hanswer, htoken'.symm.trans htoken⟩

theorem masksCode_both (h : t'.masked = t.masked) (c : Command) :
    MasksCode (t.execute c) (t'.execute c) := by
  by_cases hc : c.id = .getCode
  · cases c with
    | getCode number challenge lastTime lastInterval temp =>
      obtain ⟨hanswer, htoken⟩ := t.masksCode_execute number lastInterval challenge lastTime temp
      obtain ⟨hanswer', htoken'⟩ := t'.masksCode_execute number lastInterval challenge lastTime temp
      rw [h] at hanswer' htoken'
      exact ⟨hanswer'.symm.trans hanswer, htoken'.symm.trans htoken⟩
    | _ => cases hc
  · exact (masks_both h hc).code

/-- **Reports keep two tokens behind one mask.** -/
theorem masked_after (h : t'.masked = t.masked) (reports : List Report) :
    (t'.after reports).masked = (t.after reports).masked := by
  induction reports generalizing t t' with
  | nil => exact h
  | cons report reports ih =>
    obtain ⟨hconfig, hplug, -⟩ := eq_of_masked h
    refine ih ?_
    show (t'.send report).2.masked = (t.send report).2.masked
    rcases send_alike hconfig hplug report with
      ⟨reply, hsend, hsend', -⟩ | ⟨q, c, -, hsend, hsend'⟩
    · rw [hsend, hsend']
      exact h
    · rw [hsend, hsend']
      exact (masksCode_both h c).2

end Token

/-- Two replies differ at most in the four bytes of a code and in the checksum:
state, command, checksum of the request, status, flags and the rest of the
payload are the same. -/
def Report.SameButCode (r r' : Report) : Prop := ∀ i < 61, i < 8 ∨ 12 ≤ i → r'.byte i = r.byte i

/-- Two lists that differ in a window and at their ends are the same elsewhere. -/
theorem getD_of_window {α : Type} {a b x x' y y' : List α} {default : α} {i : Nat}
    (hx : x'.length = x.length) (hi : i < a.length ∨ a.length + x.length ≤ i)
    (hb : i < a.length + x.length + b.length) :
    (a ++ (x' ++ (b ++ y'))).getD i default = (a ++ (x ++ (b ++ y))).getD i default := by
  simp only [List.getD_eq_getElem?_getD]
  congr 1
  rcases hi with hi | hi
  · rw [List.getElem?_append_left hi, List.getElem?_append_left hi]
  · have ha : a.length ≤ i := by omega
    have hwindow : x.length ≤ i - a.length := by omega
    have hrest : i - a.length - x.length < b.length := by omega
    rw [List.getElem?_append_right ha, List.getElem?_append_right ha,
      List.getElem?_append_right (hx ▸ hwindow), List.getElem?_append_right hwindow, hx,
      List.getElem?_append_left hrest, List.getElem?_append_left hrest]

/-- **Answers that differ at most in a code make replies that differ at most in a
code.** -/
theorem Token.respond_sameButCode (q : Request) {answer answer' : Answer}
    (h : answer'.butCode = answer.butCode) :
    (respond q answer).toReport.SameButCode (respond q answer').toReport := by
  cases answer with
  | error status =>
    cases answer' with
    | error status' =>
      cases h
      exact fun _ _ _ => rfl
    | ok payload' => cases h
  | ok payload =>
    cases answer' with
    | error status' => cases h
    | ok payload' =>
      have hdrop : payload'.bytes.drop 4 = payload.bytes.drop 4 := Except.ok.inj h
      -- in front of the code: report id, state, command, checksum of the request, status
      have hbytes : ∀ p : Payload, (respond q (.ok p)).toReport.bytes
          = ([0, DeviceState.ok.toByte, q.command] ++ LittleEndian.encode 4 q.crc.toNat
              ++ [Status.toByte .ok])
            ++ (p.bytes.take 4 ++ (p.bytes.drop 4 ++ LittleEndian.encode 4
              (checksum (respond q (.ok p)).body.bytes).toNat)) := by
        intro p
        rw [← List.append_assoc (p.bytes.take 4), List.take_append_drop]
        rfl
      have htake : ∀ p : Payload, (p.bytes.take 4).length = 4 := by
        intro p
        rw [List.length_take, p.length_bytes]
        rfl
      intro i hi hcode
      show (Token.respond q (.ok payload')).toReport.bytes.getD i 0
        = (Token.respond q (.ok payload)).toReport.bytes.getD i 0
      rw [hbytes, hbytes, hdrop]
      refine getD_of_window ((htake payload').trans (htake payload).symm) ?_ ?_
      · rw [htake]
        exact hcode
      · rw [htake, List.length_drop, payload.length_bytes]
        exact hi

/-! ## §5. Every run. -/

/-- The token with other code slots. -/
def Token.swapCodes (t : Token) (codes : CodeTable CodeSlot) : Token :=
  { t with store := { t.store with codes } }

/-- **Secrets of code slots show only in codes.**  Give two tokens that differ in
nothing but the bytes of their code secrets the same reports.  Then they still
differ in nothing else, and to the next report they reply

* the same, if it does not ask for a code;
* the same but for the four bytes of the code, and the checksum over them, if it
  does;
* the same, whatever slots are programmed, if the config register demands the
  user's temporary password and another one is presented. -/
theorem secrets_masked (t t' : Token) (h : t'.masked = t.masked) (reports : List Report) :
    let s := t.after reports
    let s' := t'.after reports
    s'.masked = s.masked ∧ ∀ report,
      ((∀ c, Command.ofReport? s.encoding report = some c → c.id ≠ .getCode) →
          (s'.send report).1 = (s.send report).1)
      ∧ ((s'.send report).1 = (s.send report).1
          ∨ ∃ told told', (s.send report).1 = .ok told ∧ (s'.send report).1 = .ok told'
            ∧ told.SameButCode told')
      ∧ ∀ number challenge lastTime lastInterval temp,
          Command.ofReport? s.encoding report
              = some (.getCode number challenge lastTime lastInterval temp) →
          s.store.config.protectsCodes = true → s.session.admits .user temp.bytes = false →
          (s'.send report).1 = (s.send report).1
            ∧ ∀ codes, ((s.swapCodes codes).send report).1 = (s.send report).1 := by
  intro s s'
  have hmasked : s'.masked = s.masked := Token.masked_after h reports
  obtain ⟨hconfig, hplug, hsession, hregister⟩ := Token.eq_of_masked hmasked
  refine ⟨hmasked, fun report => ⟨fun hother => ?_, ?_, ?_⟩⟩
  · exact Token.reply_alike hconfig hplug fun c hc => (Token.masks_both hmasked (hother c hc)).1
  · rcases Token.send_alike hconfig hplug report with
      ⟨reply, hsend, hsend', -⟩ | ⟨q, c, -, hsend, hsend'⟩
    · rw [hsend, hsend']
      exact .inl rfl
    · rw [hsend, hsend']
      exact .inr ⟨_, _, rfl, rfl, Token.respond_sameButCode q (Token.masksCode_both hmasked c).1⟩
  · intro number challenge lastTime lastInterval temp hread hprotects hadmits
    have hbarred : ∀ t : Token, t.store.config.protectsCodes = true →
        t.session.admits .user temp.bytes = false →
        (t.execute (.getCode number challenge lastTime lastInterval temp)).1
          = .error .notAuthorized := by
      intro t hprotects hadmits
      have hbar : t.allows (.getCode number challenge lastTime lastInterval temp) = false := by
        show (!t.store.config.protectsCodes || t.session.admits .user temp.bytes) = false
        rw [hprotects, hadmits]
        rfl
      rw [(Token.effect_execute t _).eq_of_barred hbar]
    constructor
    · refine Token.reply_alike hconfig hplug fun c hc => ?_
      cases hread.symm.trans hc
      rw [hbarred s hprotects hadmits, hbarred s' (hregister ▸ hprotects) (hsession ▸ hadmits)]
    · intro codes
      have hconfig : (s.swapCodes codes).config = s.config := rfl
      have hplug : (s.swapCodes codes).pluggedIn = s.pluggedIn := rfl
      refine Token.reply_alike hconfig hplug fun c hc => ?_
      cases hread.symm.trans hc
      rw [hbarred s hprotects hadmits, hbarred (s.swapCodes codes) hprotects hadmits]

/-- A token with twenty equal bytes for a secret in its first HOTP slot. -/
def keyedToken (b : UInt8) : Token :=
  (Token.fresh .factory).swapCodes (CodeTable.empty.set .hotp 0
    (some ⟨⟨"mail", default, "", 0⟩, ⟨List.replicate 20 b⟩⟩))

theorem masked_keyedToken (b : UInt8) : (keyedToken b).masked
    = (Token.fresh .factory).masked.swapCodes ((CodeTable.empty.map CodeSlot.masked).set .hotp 0
      (some ⟨⟨"mail", default, "", 0⟩, ⟨List.replicate 20 0⟩⟩)) :=
  congrArg (Token.swapCodes (Token.fresh .factory).masked) (CodeTable.map_set .hotp 0 (some _))

set_option maxRecDepth 20000 in
/-- Two secrets give different codes, and are not to be told apart by anything
else. -/
theorem secrets_masked_hotp :
    let reports := Command.reports .binary [.getCode 0x10 0 0 0 ⟨[]⟩]
    (keyedToken 2).masked = (keyedToken 1).masked
      ∧ ((keyedToken 2).replies reports).map Except.toOption
          ≠ ((keyedToken 1).replies reports).map Except.toOption
      ∧ ∀ report, (∀ c, Command.ofReport? .binary report = some c → c.id ≠ .getCode) →
          (((keyedToken 2).after reports).send report).1
            = (((keyedToken 1).after reports).send report).1 := by
  intro reports
  have hmasked := (masked_keyedToken 2).trans (masked_keyedToken 1).symm
  obtain ⟨-, hreplies⟩ := secrets_masked (keyedToken 1) (keyedToken 2) hmasked reports
  refine ⟨hmasked, by decide +kernel, fun report hother => (hreplies report).1 ?_⟩
  have hencoding : ((keyedToken 1).after reports).encoding = .binary := by decide +kernel
  rw [hencoding]
  exact hother

end OtpToken
