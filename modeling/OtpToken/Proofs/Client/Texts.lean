/-
  OtpToken.Proofs.Client.Texts
  ────────────────────────────
  **TEXTS COME BACK UP TO THEIR FIRST NUL.**

  A text goes out in a field that is filled up with zeros, and whoever reads it
  stops at the first.  The token does so before it stores a text, the host once
  more when the text comes back, and a text that is cut is not cut again.

      code slots       name and token id, in two commands (`Call.of_readSlot`,
                       `Call.of_slotName`)
      Password Safe    name, login and password, in three

  `Token.KeepsTexts` ties the code slots to what was written to them last;
  erasing a slot and writing it again keep it, and so does every other call
  (`World.texts_run`).  After a write that was done all texts can be read
  (`Call.read_after_write`, `Call.read_after_writeSafe`): what fits on the way in
  fits on the way out.

  The counter may be misread, by a host that takes its token for another one.
  The texts are not.
-/
import OtpToken.Proofs.Client.Asked
import OtpToken.Proofs.Client.SafeContents
import OtpToken.Proofs.Client.Transact
import OtpToken.Proofs.Token.ReadBack

namespace OtpToken

/-! ## §1. What is read of a slot. -/

namespace SlotDetails

variable {d d' : SlotDetails} {host token : CounterEncoding} {payload : Payload} {n : UInt64}

/-- **Details are read with their texts cut, and with the counter that the host
makes of its eight bytes.** -/
theorem decode_encode_as (h : d.encode token = .ok payload)
    (hread : token.carry? host d.counter = some n) :
    (decoder host).decode payload.bytes = .ok { d.cut with counter := n } := by
  obtain ⟨hfits, zeros, hbytes⟩ := fits_of_layOut h
  simp only [List.forall_mem_cons] at hfits
  obtain ⟨hname, -, hid, hcounter, -⟩ := hfits
  have hlen := Field.length_padded_counter ((Field.fits_counter_iff token d.counter).mp hcounter)
  rw [hbytes]
  refine Decoder.Reads.decode ?_ zeros
  refine Decoder.Reads.bind (Decoder.text_reads hname) ?_
  refine Decoder.Reads.bind (Decoder.byte_reads _ _) ?_
  refine Decoder.Reads.bind (Decoder.text_reads hid) ?_
  refine Decoder.Reads.bind (Decoder.counter_reads_value hlen hread) ?_
  rw [SlotFlags.ofByte_toByte]
  exact Decoder.Reads.pure _

/-- If the counter is none that the host can read, nothing is read. -/
theorem decode_encode_fails (h : d.encode token = .ok payload)
    (hread : token.carry? host d.counter = none) :
    ∃ e, (decoder host).decode payload.bytes = .error e := by
  obtain ⟨hfits, zeros, hbytes⟩ := fits_of_layOut h
  simp only [List.forall_mem_cons] at hfits
  obtain ⟨hname, -, hid, hcounter, -⟩ := hfits
  have hlen := Field.length_padded_counter ((Field.fits_counter_iff token d.counter).mp hcounter)
  have hfails : (decoder host).Fails ([Field.text "slot name" nameWidth d.name,
      .byte "slot config" d.flags.toByte, .text "token id" tokenIdWidth d.tokenId,
      .counter token d.counter].flatMap Field.padded) := by
    refine Decoder.Reads.bind_fails (Decoder.text_reads hname) ?_
    refine Decoder.Reads.bind_fails (Decoder.byte_reads _ _) ?_
    refine Decoder.Reads.bind_fails (Decoder.text_reads hid) ?_
    exact Decoder.Fails.bind (Decoder.counter_fails hlen hread) _ _
  rw [hbytes]
  exact hfails.decode zeros

/-- So what is read differs from the details in the counter at most. -/
theorem of_decode_encode (h : d.encode token = .ok payload)
    (hd : (decoder host).decode payload.bytes = .ok d') : ∃ n, d' = { d.cut with counter := n } := by
  cases hread : token.carry? host d.counter with
  | some n =>
    cases (decode_encode_as h hread).symm.trans hd
    exact ⟨n, rfl⟩
  | none =>
    obtain ⟨e, he⟩ := decode_encode_fails h hread
    cases he.symm.trans hd

end SlotDetails

namespace Call

variable {c c' : Client} {t t' : Token} {kind : CodeKind} {index : UInt8} {v : Value}

/-- **The details of a slot**, as any host reads them. -/
theorem of_readSlot (h : (readSlot kind index).perform Token.line c t = (.ok v, c', t')) :
    ∃ slot n, t.store.codes.at? kind index = some slot
      ∧ v = .details { slot.details.cut with counter := n } := by
  obtain ⟨x, payload, after, hx, hask, hconclude, -⟩ := of_single_done rfl h
  obtain ⟨number, hnumber, rfl⟩ := Option.map_eq_some_iff.mp hx
  obtain ⟨-, kind', index', slot, hnumber', hslot, htold⟩ :=
    Token.of_tellSlot_ok (Token.execute_of_ask_ok hask)
  cases (CodeKind.ofSlotNumber?_of_slotNumber? hnumber).symm.trans hnumber'
  obtain ⟨d, hread, rfl⟩ := Operation.of_conclude_map hconclude
  obtain ⟨d', hd, hlearn⟩ := Operation.of_conclude_consult hread
  obtain rfl : d' = d := congrArg Prod.fst hlearn
  obtain ⟨n, rfl⟩ := SlotDetails.of_decode_encode htold hd
  exact ⟨slot, n, congrArg Option.join hslot, rfl⟩

/-- **The name of a slot.** -/
theorem of_slotName (h : (slotName kind index).perform Token.line c t = (.ok v, c', t')) :
    ∃ slot, t.store.codes.at? kind index = some slot
      ∧ v = .text (Utf8.untilNul slot.details.name) := by
  obtain ⟨x, payload, after, hx, hask, hconclude, -⟩ := of_single_done rfl h
  obtain ⟨number, hnumber, rfl⟩ := Option.map_eq_some_iff.mp hx
  obtain ⟨-, kind', index', slot, hnumber', hslot, htold⟩ :=
    Token.of_tellSlot_ok (Token.execute_of_ask_ok hask)
  cases (CodeKind.ofSlotNumber?_of_slotNumber? hnumber).symm.trans hnumber'
  cases (conclude_text htold).symm.trans hconclude
  rw [Utf8.decodeLossy_untilNul]
  exact ⟨slot, congrArg Option.join hslot, rfl⟩

end Call

/-! ## §2. Code slots and the past. -/

/-- The slot has the texts and the flags that were given, each text cut. -/
structure CodeSlot.Bears (slot : CodeSlot) (data : SlotData) : Prop where
  name : slot.details.name = Utf8.untilNul data.name
  flags : slot.details.flags = data.flags
  tokenId : slot.details.tokenId = Utf8.untilNul data.tokenId

/-- Only the counter can be another one. -/
theorem CodeSlot.Bears.cut_eq {slot : CodeSlot} {data : SlotData} (h : slot.Bears data) (n : UInt64) :
    { slot.details.cut with counter := n }
      = (⟨Utf8.untilNul data.name, data.flags, Utf8.untilNul data.tokenId, n⟩ : SlotDetails) := by
  unfold SlotDetails.cut
  rw [h.name, h.flags, h.tokenId, Utf8.untilNul_untilNul, Utf8.untilNul_untilNul]

/-- Every code slot has the texts that were written to it last. -/
def Token.KeepsTexts (t : Token) (past : List Call) : Prop :=
  ∀ kind index slot, t.store.codes.at? kind index = some slot →
    ∀ data moving, lastWrite? kind index past = some (data, moving) → slot.Bears data

namespace Call

variable {call : Call} {c c' : Client} {t t' : Token} {kind kind' : CodeKind}
  {index index' : UInt8} {v : Value}

/-- **A call that does not write a slot leaves texts and flags of it as they
were**, if the slot is still programmed. -/
theorem texts_of_done {slot : CodeSlot} (hwrite : call.write? kind index = none)
    (h : call.perform Token.line c t = (.ok v, c', t'))
    (hslot : t'.store.codes.at? kind index = some slot) :
    ∃ before n, t.store.codes.at? kind index = some before
      ∧ slot.details = { before.details with counter := n } := by
  by_cases hsingle : call.single = true
  · obtain ⟨x, payload, after, hx, hask, -⟩ := of_single_done hsingle h
    have hexecute := Token.execute_of_ask_ok hask
    have hafter : (t.execute x.norm).2.store.codes.at? kind index = some slot := by
      rw [hexecute]
      exact hslot
    cases Token.slot_execute hafter with
    | kept hbefore => exact ⟨slot, _, hbefore, rfl⟩
    | counted _ hbefore _ => exact ⟨_, _, hbefore, rfl⟩
    | written hc =>
      refine absurd ?_ (ne_write_of_command? hx)
      rw [← x.id_norm, hc]
      rfl
  · rcases writes_of_not_single hsingle with ⟨kind', index', data, moving, hother⟩ |
      ⟨number, name, login, password, rfl⟩
    · rcases write_ends hother h with ⟨why, hfailed, -⟩ | ⟨read, new, -, -, -, -, -, -, -, rfl, -⟩
      · cases hfailed
      · rcases CodeTable.of_at?_set hslot with ⟨rfl, rfl, -⟩ | ⟨-, hbefore⟩
        · cases hwrite.symm.trans hother
        · exact ⟨slot, _, hbefore, rfl⟩
    · rcases of_writeSafe h with ⟨why, hfailed, -⟩ | ⟨contents, -, -, rfl, -⟩
      · cases hfailed
      · exact ⟨slot, _, hslot, rfl⟩

end Call

namespace Token.KeepsTexts

variable {t t' : Token} {past : List Call}

theorem of_same (h : t.KeepsTexts past) (hstore : t'.store = t.store) : t'.KeepsTexts past := by
  intro kind index slot hslot
  rw [hstore] at hslot
  exact h kind index slot hslot

/-- **A call that was done leaves every slot with the texts of its last write.** -/
theorem cons_of_done {call : Call} {c c' : Client} {v : Value} (h : t.KeepsTexts past)
    (hdone : call.perform Token.line c t = (.ok v, c', t')) : t'.KeepsTexts (call :: past) := by
  intro kind index slot hslot data moving hlast
  rw [lastWrite?_cons] at hlast
  cases hwrite : call.write? kind index with
  | none =>
    rw [hwrite] at hlast
    obtain ⟨before, n, hbefore, hdetails⟩ := Call.texts_of_done hwrite hdone hslot
    obtain ⟨hname, hflags, hid⟩ := h kind index before hbefore data moving hlast
    refine ⟨?_, ?_, ?_⟩
    · rw [hdetails]
      exact hname
    · rw [hdetails]
      exact hflags
    · rw [hdetails]
      exact hid
  | some written =>
    -- the slot was written by this call
    rw [hwrite] at hlast
    cases hlast
    rcases Call.write_ends hwrite hdone with
      ⟨why, hfailed, -⟩ | ⟨read, new, -, -, -, -, -, hholds, htakes, rfl, -⟩
    · cases hfailed
    · cases (CodeTable.at?_set_self hholds).symm.trans hslot
      refine ⟨?_, ?_, ?_⟩
      · rw [htakes.details]
      · rw [htakes.details]
      · rw [htakes.details]

end Token.KeepsTexts

/-- Every event keeps the slots tied to the past. -/
theorem World.keepsTexts_step {w : World} (h : w.token.KeepsTexts w.past) (event : Event) :
    (w.step event).token.KeepsTexts (w.step event).past := by
  cases event with
  | unplug => exact h
  | plugIn => exact h
  | call call =>
    rcases w.step_call call with ⟨why, client, token, hperform, hstep⟩ |
      ⟨v, client, token, hperform, hstep⟩
    · rw [hstep]
      exact h.of_same (Call.stored_of_error hperform).1
    · rw [hstep]
      exact h.cons_of_done hperform

/-- **Every code slot has the texts that were written to it last**, whatever
happens. -/
theorem World.texts_run {w : World} (h : w.past = []) (events : List Event) :
    (w.run events).token.KeepsTexts (w.run events).past := by
  refine run_induction (I := fun w => w.token.KeepsTexts w.past) ?_
    (fun w event h => keepsTexts_step h event) events
  intro kind index slot hslot data moving hlast
  rw [h] at hlast
  cases hlast

/-! ## §3. Password Safe slots and the past. -/

/-- A slot that was written and not emptied since holds what was written to it
last. -/
def World.KeepsSafe (w : World) : Prop :=
  ∀ index d, lastSafe? w.token.config.newKeyKeepsSafe index w.past = some d →
    w.token.store.safe? index = some d.entry

theorem World.KeepsSafe.step {w : World} (h : w.KeepsSafe) (event : Event) :
    (w.step event).KeepsSafe := by
  cases event with
  | unplug => exact h
  | plugIn => exact h
  | call call =>
    rcases w.step_call call with ⟨why, client, token, hperform, hstep⟩ |
      ⟨v, client, token, hperform, hstep⟩
    · rw [hstep]
      intro index d hlast
      have hsafe : token.store.safe? index = w.token.store.safe? index := by
        rw [(Call.stored_of_error hperform).1]
      rw [show (World.mk client token w.past).token.config = w.token.config from
        Call.config_of_perform hperform] at hlast
      exact hsafe.trans (h index d hlast)
    · rw [hstep]
      intro index d hlast
      have hlast : lastSafe? token.config.newKeyKeepsSafe index (call :: w.past) = some d := hlast
      rw [Call.config_of_perform hperform] at hlast
      rcases Call.safe_of_done hperform index w.past with
        ⟨-, hnone⟩ | ⟨given, hslot, hgiven⟩ | ⟨hslot, hsame⟩
      · cases hnone.symm.trans hlast
      · cases hgiven.symm.trans hlast
        exact hslot
      · exact hslot.trans (h index d (hsame.symm.trans hlast))

/-- **The Password Safe holds what was written to it last**, whatever happens. -/
theorem World.safe_run {w : World} (h : w.past = []) (events : List Event) :
    (w.run events).KeepsSafe := by
  refine run_induction (I := World.KeepsSafe) ?_ (fun w event h => h.step event) events
  intro index d hlast
  rw [h] at hlast
  cases hlast

/-! ## §4. Reading right after a write. -/

/-- What is cut is no longer than it was. -/
theorem Utf8.length_untilNul_le (s : String) :
    (encode (untilNul s)).length ≤ (encode s).length := by
  rw [← untilNul_encode]
  exact Bytes.length_untilNul_le _

namespace Operation

theorem length_of_checkText {label text : String} {maximum : Nat}
    (h : checkText label maximum text = .ok ()) : (Utf8.encode text).length ≤ maximum := by
  unfold checkText at h
  dsimp only at h
  split at h
  · cases h
  · next hshort => exact Nat.le_of_not_lt hshort

/-- A write that is sent has a name and a token id that fit. -/
theorem lengths_of_writeSlot {kind : CodeKind} {index : UInt8} {data : SlotData} {moving : UInt64}
    {temp : Secret} {c : Client} {script : Script}
    (h : ((writeSlot kind index data moving temp).prepare c).1 = .ok script) :
    (Utf8.encode data.name).length ≤ nameWidth
      ∧ (Utf8.encode data.tokenId).length ≤ tokenIdMaximum := by
  obtain ⟨number, -, h⟩ := exists_of_bind_ok h
  obtain ⟨_, hname, h⟩ := exists_of_bind_ok h
  obtain ⟨_, hid, -⟩ := exists_of_bind_ok h
  exact ⟨length_of_checkText hname, length_of_checkText hid⟩

end Operation

namespace Call

variable {call : Call} {c c' : Client} {t t' : Token} {kind : CodeKind} {index number : UInt8}
  {data : SlotData} {moving : UInt64} {slot : CodeSlot} {payload : Payload} {n : UInt64} {v : Value}

theorem lengths_of_write (hwrite : call.write? kind index = some (data, moving))
    (h : call.perform Token.line c t = (.ok v, c', t')) :
    (Utf8.encode data.name).length ≤ nameWidth
      ∧ (Utf8.encode data.tokenId).length ≤ tokenIdMaximum := by
  obtain ⟨script, payload, after, hprepare, -⟩ := Client.of_perform_ok call.tidy h
  obtain ⟨temp, hop⟩ := operation_of_write? hwrite
  rw [hop] at hprepare
  exact Operation.lengths_of_writeSlot hprepare

/-- A programmed slot has a number. -/
theorem codeSlot_of_at? (hslot : t.store.codes.at? kind index = some slot) :
    ∃ number, Operation.codeSlot kind index = .ok number
      ∧ CodeKind.ofSlotNumber? number = some (kind, index) := by
  have hholds := CodeTable.holds_of_at? hslot
  have hnumber : kind.slotNumber? index = some (kind.base + index) := if_pos hholds
  refine ⟨kind.base + index, ?_, CodeKind.ofSlotNumber?_of_slotNumber? hnumber⟩
  unfold Operation.codeSlot CodeKind.slotNumber
  rw [hnumber]
  rfl

/-- The details of a slot are read if the token can tell them and the host can read
the counter. -/
theorem readSlot_done (hplug : t.pluggedIn = true)
    (hslot : t.store.codes.at? kind index = some slot)
    (htold : slot.details.encode t.encoding = .ok payload)
    (hread : t.encoding.carry? c.capabilities.encoding slot.details.counter = some n) :
    ∃ after, (readSlot kind index).perform Token.line c t
      = (.ok (.details { slot.details.cut with counter := n }), after, t) := by
  obtain ⟨number, hcode, hnumber⟩ := codeSlot_of_at? (t := t) hslot
  have hprepare : ((readSlot kind index).operation.prepare c).1
      = (c.request (.readSlot number)).bind fun q => .ok ⟨[], q⟩ := by
    show ((Operation.codeSlot kind index).bind _ >>= _) = _
    rw [hcode]
    rfl
  have hanswer : t.execute (Command.norm (.readSlot number)) = (.ok payload, t) := by
    show t.tellSlot number _ = _
    rw [Token.tellSlot_of_at? hnumber hslot]
    exact Token.tell_ok htold
  have hconclude : (readSlot kind index).operation.conclude c payload
      = (.ok (.details { slot.details.cut with counter := n }), { c with
        known := c.known.withSlot kind index { slot.details.cut with counter := n } }) := by
    refine Operation.conclude_map Value.details ?_
    exact Operation.conclude_consult (SlotDetails.decode_encode_as htold hread)
  exact ⟨_, Client.perform_of_answered (tidy _) hprepare ⟨nofun, fun _ => nofun⟩
    (Command.writtenAlike_of_ne CommandId.noConfusion c t) hplug hanswer hconclude⟩

/-- The name of a slot is read if the token can tell it. -/
theorem slotName_done (hplug : t.pluggedIn = true)
    (hslot : t.store.codes.at? kind index = some slot)
    (hname : (Utf8.encode slot.details.name).length ≤ nameWidth) (c : Client) :
    ∃ after, (slotName kind index).perform Token.line c t
      = (.ok (.text (Utf8.untilNul slot.details.name)), after, t) := by
  obtain ⟨number, hcode, hnumber⟩ := codeSlot_of_at? (t := t) hslot
  obtain ⟨payload, htold⟩ : ∃ payload, Payload.ofBytes "slot name" nameWidth
      (Utf8.encode slot.details.name) = .ok payload := Payload.exists_ofBytes hname (by decide)
  have hprepare : ((slotName kind index).operation.prepare c).1
      = (c.request (.readSlotName number)).bind fun q => .ok ⟨[], q⟩ := by
    show ((Operation.codeSlot kind index).bind _ >>= _) = _
    rw [hcode]
    rfl
  have hanswer : t.execute (Command.norm (.readSlotName number)) = (.ok payload, t) := by
    show t.tellSlot number _ = _
    rw [Token.tellSlot_of_at? hnumber hslot]
    exact Token.tell_ok htold
  have hconclude : (slotName kind index).operation.conclude c payload
      = (.ok (.text (Utf8.untilNul slot.details.name)), c) := by
    rw [← Utf8.decodeLossy_untilNul]
    exact conclude_text htold
  exact ⟨_, Client.perform_of_answered (tidy _) hprepare ⟨nofun, fun _ => nofun⟩
    (Command.writtenAlike_of_ne CommandId.noConfusion c t) hplug hanswer hconclude⟩

/-- **After a write of a code slot that was done its details and its name can be
read**, also by a host that is wrong about the token. -/
theorem read_after_write (hwrite : call.write? kind index = some (data, moving))
    (h : call.perform Token.line c t = (.ok v, c', t')) :
    (∃ n after, (readSlot kind index).perform Token.line c' t'
        = (.ok (.details ⟨Utf8.untilNul data.name, data.flags, Utf8.untilNul data.tokenId, n⟩),
            after, t'))
      ∧ ∃ after, (slotName kind index).perform Token.line c' t'
        = (.ok (.text (Utf8.untilNul data.name)), after, t') := by
  obtain ⟨hname, hid⟩ := lengths_of_write hwrite h
  rcases write_ends hwrite h with
    ⟨why, hfailed, -⟩ | ⟨read, slot, -, -, hroom, hcarry, -, hholds, htakes, ht', hc'⟩
  · cases hfailed
  have hplugged := plugged_of_done h
  have hplug : t'.pluggedIn = true := by
    rw [ht']
    exact hplugged
  have hslot : t'.store.codes.at? kind index = some slot := by
    rw [ht']
    exact CodeTable.at?_set_self hholds
  have hencoding : t'.encoding = t.encoding := by rw [ht']; rfl
  have hhost : c'.capabilities.encoding = c.capabilities.encoding := by rw [hc']
  -- what is stored is already cut, and it fits
  have hbears : slot.Bears data := ⟨by rw [htakes.details], by rw [htakes.details],
    by rw [htakes.details]⟩
  have hcounter : slot.details.counter = read := by rw [htakes.details]
  have hname' : (Utf8.encode slot.details.name).length ≤ nameWidth := by
    rw [hbears.name]
    exact Nat.le_trans (Utf8.length_untilNul_le _) hname
  have hid' : (Utf8.encode slot.details.tokenId).length ≤ tokenIdWidth := by
    rw [hbears.tokenId]
    exact Nat.le_trans (Utf8.length_untilNul_le _) (Nat.le_trans hid (by decide))
  have hmaximum : slot.details.counter ≤ t'.encoding.maximum := by
    rw [hcounter, hencoding]
    exact CounterEncoding.carry?_le hroom hcarry
  obtain ⟨payload, htold⟩ := SlotDetails.exists_encode_iff.mpr ⟨hname', hid', hmaximum⟩
  obtain ⟨n, hback⟩ := CounterEncoding.exists_carry?_back hroom hcarry
  rw [← hcounter, ← hencoding, ← hhost] at hback
  constructor
  · have hread := readSlot_done hplug hslot htold hback
    rw [hbears.cut_eq] at hread
    exact ⟨n, hread⟩
  · have hread := slotName_done hplug hslot hname' c'
    rw [hbears.name, Utf8.untilNul_untilNul] at hread
    exact hread

end Call

/-- What is in a Password Safe slot is told as it is. -/
theorem Token.tellSafe_of_safe? {t : Token} {index : UInt8} {entry : SafeEntry} {label : String}
    {width : Nat} {field : SafeEntry → Bytes} (hopen : t.safeEnabled = true)
    (hentry : t.store.safe? index = some entry) :
    t.tellSafe index label width field = t.tell (Payload.ofBytes label width (field entry)) := by
  have hget : t.store.safe[index.toNat]? = some (some entry) := Option.join_eq_some_iff.mp hentry
  unfold tellSafe withSafe Store.safeEntry
  rw [if_pos hopen, hget]
  rfl

namespace Call

variable {c c' : Client} {t t' : Token} {index : UInt8} {name login password label : String}
  {entry : SafeEntry} {width : Nat} {v : Value}

/-- A write of a Password Safe slot that is done has found the Password Safe open
on both sides, and has sent texts that fit. -/
theorem sent_of_writeSafe
    (h : (writeSafe index name login password).perform Token.line c t = (.ok v, c', t')) :
    c.safeEnabled = true ∧ t.safeEnabled = true
      ∧ (Utf8.encode name).length ≤ safeNameWidth ∧ (Utf8.encode login).length ≤ safeLoginWidth
      ∧ (Utf8.encode password).length ≤ safePasswordWidth := by
  have hplug := plugged_of_done h
  obtain ⟨script, payload, after, hprepare, hrun, -⟩ := Client.of_perform_ok (tidy _) h
  obtain ⟨slot, hslot, -⟩ := exists_of_bind_ok hprepare
  have hhost : c.safeEnabled = true := by
    unfold Operation.safeSlot at hslot
    split at hslot
    · next hopen => exact hopen
    · cases hslot
  obtain ⟨cs, last, hscript, rfl, rfl⟩ := Operation.asks_writeSafe script hprepare
  obtain ⟨hlogin, hprimary⟩ := List.forall_mem_cons.mp hscript.fits
  obtain ⟨hname, hpassword⟩ :=
    List.forall_mem_cons.mp (List.forall_mem_singleton.mp hprimary).1
  have halike : ∀ x ∈ [.setSafeLogin index login, .setSafePrimary index name (.ofText password)],
      Command.WrittenAlike x c t := by
    intro x hx
    rcases List.mem_cons.mp hx with rfl | hx
    · rfl
    · cases List.mem_singleton.mp hx
      rfl
  rw [script.run_alike hplug hscript halike] at hrun
  unfold Token.askAll at hrun
  rcases t.ask_setSafePrimary index name (.ofText password) with ⟨why, hask⟩ | ⟨hopen, -⟩
  · rw [hask] at hrun
    cases hrun
  · exact ⟨hhost, hopen, hname, hlogin.1 _ List.mem_cons_self, hpassword _ List.mem_cons_self⟩

/-- A field of a Password Safe slot is read while the Password Safe is open on both
sides. -/
theorem safeField_done (call : Call) (command : UInt8 → Command) (field : SafeEntry → Bytes)
    (hop : call.operation = (Operation.safeField index command width).map .text)
    (hcommand : t.execute (command index).norm = t.tellSafe index label width field)
    (hfits : (command index).Fits c.capabilities.encoding) (hid : (command index).id ≠ .writeToSlot)
    (hroom : width ≤ 53) (hplug : t.pluggedIn = true) (hhost : c.safeEnabled = true)
    (hopen : t.safeEnabled = true) (hentry : t.store.safe? index = some entry)
    (hlength : (field entry).length ≤ width) :
    ∃ after, call.perform Token.line c t
      = (.ok (.text (Utf8.decodeLossy (Bytes.untilNul (field entry)))), after, t) := by
  have hget : t.store.safe[index.toNat]? = some (some entry) := Option.join_eq_some_iff.mp hentry
  have hholds : SlotFamily.safe.holds index = true :=
    decide_eq_true (Vector.getElem?_eq_some_iff.mp hget).1
  have hslot : Operation.safeSlot index c = .ok index := by
    unfold Operation.safeSlot safeSlotNumber
    rw [if_pos hhost, if_pos hholds]
    rfl
  obtain ⟨payload, htold⟩ : ∃ payload, Payload.ofBytes label width (field entry) = .ok payload :=
    Payload.exists_ofBytes hlength hroom
  have hprepare : (call.operation.prepare c).1
      = (c.request (command index)).bind fun q => .ok ⟨[], q⟩ := by
    rw [hop]
    show ((Operation.safeSlot index c).bind _ >>= _) = _
    rw [hslot]
    rfl
  have hanswer : t.execute (command index).norm = (.ok payload, t) := by
    rw [hcommand, Token.tellSafe_of_safe? hopen hentry]
    exact Token.tell_ok htold
  have hconclude : call.operation.conclude c payload
      = (.ok (.text (Utf8.decodeLossy (Bytes.untilNul (field entry)))), c) := by
    rw [hop]
    exact conclude_text htold
  exact ⟨_, Client.perform_of_answered (tidy _) hprepare hfits
    (Command.writtenAlike_of_ne hid c t) hplug hanswer hconclude⟩

/-- **After a write of a Password Safe slot that was done its name, login and
password can be read.** -/
theorem read_after_writeSafe
    (h : (writeSafe index name login password).perform Token.line c t = (.ok v, c', t')) :
    (∃ after, (safeName index).perform Token.line c' t'
        = (.ok (.text (Utf8.untilNul name)), after, t'))
      ∧ (∃ after, (safeLogin index).perform Token.line c' t'
        = (.ok (.text (Utf8.untilNul login)), after, t'))
      ∧ ∃ after, (safePassword index).perform Token.line c' t'
        = (.ok (.text (Utf8.untilNul password)), after, t') := by
  have hplugged := plugged_of_done h
  obtain ⟨hhost, hopen, hname, hlogin, hpassword⟩ := sent_of_writeSafe h
  let d : SafeData := ⟨name, login, password⟩
  rcases of_writeSafe h with ⟨why, hfailed, -⟩ | ⟨contents, -, hslot, ht', hc'⟩
  · cases hfailed
  have hplug' : t'.pluggedIn = true := by
    rw [ht']
    exact hplugged
  have hopen' : t'.safeEnabled = true := by
    rw [ht']
    exact hopen
  have hhost' : c'.safeEnabled = true := by
    rw [hc']
    exact hhost
  have hentry : t'.store.safe? index = some d.entry := by
    rw [ht']
    exact congrArg Option.join (Token.getElem?_putSafe hslot)
  refine ⟨?_, ?_, ?_⟩
  · obtain ⟨after, hread⟩ := safeField_done (.safeName index) .safeName
      (fun e => Utf8.encode e.name) rfl rfl ⟨nofun, fun _ => nofun⟩ CommandId.noConfusion
      (by decide) hplug' hhost' hopen' hentry (Nat.le_trans (Utf8.length_untilNul_le name) hname)
    rw [show d.entry.name = Utf8.untilNul name from rfl, Utf8.decodeLossy_untilNul,
      Utf8.untilNul_untilNul] at hread
    exact ⟨after, hread⟩
  · obtain ⟨after, hread⟩ := safeField_done (.safeLogin index) .safeLogin
      (fun e => Utf8.encode e.login) rfl rfl ⟨nofun, fun _ => nofun⟩ CommandId.noConfusion
      (by decide) hplug' hhost' hopen' hentry (Nat.le_trans (Utf8.length_untilNul_le login) hlogin)
    rw [show d.entry.login = Utf8.untilNul login from rfl, Utf8.decodeLossy_untilNul,
      Utf8.untilNul_untilNul] at hread
    exact ⟨after, hread⟩
  · obtain ⟨after, hread⟩ := safeField_done (.safePassword index) .safePassword
      (fun e => e.password.bytes) rfl rfl ⟨nofun, fun _ => nofun⟩ CommandId.noConfusion
      (by decide) hplug' hhost' hopen' hentry
      (Nat.le_trans (Bytes.length_untilNul_le _) hpassword)
    rw [SafeData.password_entry] at hread
    exact ⟨after, hread⟩

end Call

end OtpToken
