/-
  OtpToken.Proofs.Record
  ──────────────────────
  **WHAT RESPONSES CARRY IS READ BACK.**

  A record is laid out field by field and read field by field.  Numbers and
  flags come back as they were, texts up to their first NUL.

  `Payload.Carries` says of a writer and a reader what can be written at all and
  what is read of it.  On the other side, a payload may come from anywhere: what
  is read of it is decided by its first bytes (`Decoder.DecidedBy`), and if there
  are too few of them, nothing is.

      status of the token    13 bytes, always fits
      code                   5 bytes, always fits
      status of the safe     16 bytes, always fits
      details of a slot      37 bytes, if the texts and the counter fit
-/
import OtpToken.Proofs.Field
import OtpToken.Record

namespace OtpToken

/-! ## §1. Codes and the status of the token. -/

theorem CodeRecord.encode_code (r : CodeRecord) : ∃ payload, r.encode = .ok payload := by
  have hfits : ∀ f ∈ [Field.word32 "code" r.code, Field.byte "slot config" r.flags.toByte],
      f.Fits := by
    simp only [List.forall_mem_cons]
    exact ⟨Field.fits_word32 _ _, Field.fits_byte _ _, by simp⟩
  exact layOut_of_fits 53 _ hfits (Nat.le_of_ble_eq_true rfl)

/-- A code record is read back as it was written. -/
theorem CodeRecord.decode_encode {r : CodeRecord} {payload : Payload}
    (h : r.encode = .ok payload) : decoder.decode payload.bytes = .ok r := by
  have hlayout : layOut 53 [Field.word32 "code" r.code, Field.byte "slot config" r.flags.toByte]
      = .ok payload := h
  obtain ⟨-, zeros, hbytes⟩ := fits_of_layOut hlayout
  have hreads : decoder.Reads ([Field.word32 "code" r.code,
      Field.byte "slot config" r.flags.toByte].flatMap Field.padded) r := by
    refine Decoder.Reads.bind (Decoder.word32_reads _ _) ?_
    refine Decoder.Reads.bind (Decoder.byte_reads _ _) ?_
    rw [SlotFlags.ofByte_toByte]
    exact Decoder.Reads.pure _
  rw [hbytes]
  exact hreads.decode zeros

/-- Every status record fits, and is read back as it was written. -/
theorem StatusRecord.exists_encode (r : StatusRecord) :
    ∃ payload, r.encode = .ok payload ∧ decoder.decode payload.bytes = .ok r := by
  have hfits : ∀ f ∈ [Field.byte "firmware minor" r.firmware.minor,
      Field.byte "firmware major" r.firmware.major, ⟨"serial", 4, r.serial.bytes⟩,
      ⟨"config", 5, r.config.block.bytes⟩, ⟨"OTP password config", 2, r.passwordConfig.bytes⟩],
      f.Fits := by
    simp only [List.forall_mem_cons]
    refine ⟨Field.fits_byte _ _, Field.fits_byte _ _, ?_, ?_, ?_, by simp⟩
    · exact Nat.le_of_eq r.serial.length_bytes
    · exact Nat.le_of_eq r.config.block.length_bytes
    · exact Nat.le_of_eq r.passwordConfig.length_bytes
  obtain ⟨payload, hlayout⟩ := layOut_of_fits 53 _ hfits (Nat.le_of_ble_eq_true rfl)
  obtain ⟨-, zeros, hbytes⟩ := fits_of_layOut hlayout
  refine ⟨payload, hlayout, ?_⟩
  rw [hbytes]
  refine Decoder.Reads.decode ?_ zeros
  -- minor version, major version, serial, config register, password config
  refine Decoder.Reads.bind (Decoder.byte_reads _ _) ?_
  refine Decoder.Reads.bind (Decoder.byte_reads _ _) ?_
  refine Decoder.Reads.bind (Decoder.block_reads _ _) ?_
  refine Decoder.Reads.bind (Decoder.block_reads _ _) ?_
  exact Decoder.Reads.bind (Decoder.block_reads _ _) (Decoder.Reads.pure _)

/-! ## §2. Code slots. -/

namespace SlotDetails

/-- The details with each text up to its first NUL. -/
def cut (d : SlotDetails) : SlotDetails :=
  { d with name := Utf8.untilNul d.name, tokenId := Utf8.untilNul d.tokenId }

/-- What is cut is not cut again. -/
theorem cut_cut (d : SlotDetails) : d.cut.cut = d.cut := by
  unfold cut
  rw [Utf8.untilNul_untilNul, Utf8.untilNul_untilNul]

/-- What was told of a slot is read with its texts cut. -/
theorem decode_encode {d : SlotDetails} {encoding : CounterEncoding} {payload : Payload}
    (h : d.encode encoding = .ok payload) :
    (decoder encoding).decode payload.bytes = .ok d.cut := by
  obtain ⟨hfits, zeros, hbytes⟩ := fits_of_layOut h
  simp only [List.forall_mem_cons] at hfits
  obtain ⟨hname, -, hid, hcounter, -⟩ := hfits
  rw [hbytes]
  refine Decoder.Reads.decode ?_ zeros
  refine Decoder.Reads.bind (Decoder.text_reads hname) ?_
  refine Decoder.Reads.bind (Decoder.byte_reads _ _) ?_
  refine Decoder.Reads.bind (Decoder.text_reads hid) ?_
  refine Decoder.Reads.bind (Decoder.counter_reads hcounter) ?_
  rw [SlotFlags.ofByte_toByte]
  exact Decoder.Reads.pure _

/-- Details have a record if the texts and the counter fit. -/
theorem exists_encode_iff {d : SlotDetails} {encoding : CounterEncoding} :
    (∃ payload, d.encode encoding = .ok payload) ↔ (Utf8.encode d.name).length ≤ nameWidth
      ∧ (Utf8.encode d.tokenId).length ≤ tokenIdWidth ∧ d.counter ≤ encoding.maximum := by
  have hroom : Field.totalWidth [.text "slot name" nameWidth d.name,
      .byte "slot config" d.flags.toByte, .text "token id" tokenIdWidth d.tokenId,
      .counter encoding d.counter] ≤ 53 := by
    cases encoding <;> exact Nat.le_of_ble_eq_true rfl
  refine (exists_layOut_iff hroom).trans ?_
  simp only [List.forall_mem_cons, Field.fits_counter_iff]
  constructor
  · rintro ⟨hname, -, hid, hcounter, -⟩
    exact ⟨hname, hid, hcounter⟩
  · rintro ⟨hname, hid, hcounter⟩
    exact ⟨hname, Field.fits_byte _ _, hid, hcounter, by simp⟩

end SlotDetails

/-! ## §3. Single values. -/

theorem Payload.exists_ofBytes {label : String} {width : Nat} {bs : Bytes}
    (hfits : bs.length ≤ width) (hroom : width ≤ 53) :
    ∃ payload, ofBytes label width bs = .ok payload := by
  refine layOut_of_fits 53 [⟨label, width, bs⟩] (fun f hf => ?_) hroom
  cases List.mem_singleton.mp hf
  exact hfits

/-- A text field is read back up to its first zero byte. -/
theorem Payload.decode_ofBytes {label : String} {width : Nat} {bs : Bytes} {payload : Payload}
    (h : Payload.ofBytes label width bs = .ok payload) :
    (Decoder.text width).decode payload.bytes = .ok (Utf8.decodeLossy (Bytes.untilNul bs)) := by
  obtain ⟨hfits, zeros, hbytes⟩ := fits_of_layOut h
  have hreads := Decoder.field_reads (hfits _ List.mem_cons_self) rfl
    fun field => Utf8.decodeLossy (Bytes.untilNul field)
  have hvalue : Bytes.untilNul (Field.padded ⟨label, width, bs⟩) = Bytes.untilNul bs :=
    Bytes.untilNul_padTo width bs
  rw [hvalue] at hreads
  have hone : [(⟨label, width, bs⟩ : Field)].flatMap Field.padded
      = Field.padded ⟨label, width, bs⟩ := List.append_nil _
  rw [hbytes, hone]
  exact hreads.decode zeros

/-- One byte a slot, and every flag is read back. -/
theorem SafeStatus.decode_ofSafeStatus (s : SafeStatus) :
    decoder.decode (Payload.ofSafeStatus s).bytes = .ok s := by
  have hreads : decoder.Reads s.toBytes (ofBlock ⟨s.toBytes, s.length_toBytes⟩) := by
    have hblock := Decoder.block_reads "" (⟨s.toBytes, s.length_toBytes⟩ : Block safeCapacity)
    rw [Decoder.padded_of_length_eq s.length_toBytes] at hblock
    have hwhole : decoder.Reads (s.toBytes ++ []) (ofBlock ⟨s.toBytes, s.length_toBytes⟩) :=
      hblock.bind (.pure _)
    rwa [List.append_nil] at hwhole
  have hvalue : ofBlock ⟨s.toBytes, s.length_toBytes⟩ = s := by
    refine congrArg SafeStatus.mk (Vector.ext fun i hi => ?_)
    have hbyte : s.toBytes.getD i 0 = s.flags[i].toUInt8 := by simp [toBytes, hi]
    rw [Vector.getElem_ofFn]
    show (s.toBytes.getD i 0 != 0) = s.flags[i]
    rw [hbyte]
    cases s.flags[i] with
    | false => rfl
    | true => rfl
  rw [hvalue] at hreads
  exact hreads.decode _

/-- One byte is read back. -/
theorem Payload.decode_ofByte (value : UInt8) :
    Decoder.byte.decode (ofByte value).bytes = .ok value :=
  (Decoder.byte_reads "" value).decode (List.replicate 52 0)

/-! ## §4. What is written and what is looked at. -/

/-- A value is written exactly if it fits, and what was written is read as `back`. -/
structure Payload.Carries {α : Type} (written : Except LibraryError Payload) (m : Decoder α)
    (fits : Prop) (back : α) : Prop where
  written_iff : (∃ payload, written = .ok payload) ↔ fits
  read : ∀ payload, written = .ok payload → m.decode payload.bytes = .ok back

open Payload (Carries)

/-- A payload that is there whatever the value. -/
theorem Payload.carries_of_decode {α : Type} {payload : Payload} {m : Decoder α} {a : α}
    (h : m.decode payload.bytes = .ok a) : Carries (.ok payload) m True a := by
  refine ⟨iff_true_intro ⟨payload, rfl⟩, fun payload' hwritten => ?_⟩
  cases hwritten
  exact h

theorem StatusRecord.carries (r : StatusRecord) : Carries r.encode decoder True r := by
  obtain ⟨payload, hencode, hdecode⟩ := r.exists_encode
  rw [hencode]
  exact Payload.carries_of_decode hdecode

theorem CodeRecord.carries (r : CodeRecord) : Carries r.encode decoder True r :=
  ⟨iff_true_intro r.encode_code, fun _ => decode_encode⟩

theorem SlotDetails.carries (d : SlotDetails) (encoding : CounterEncoding) :
    Carries (d.encode encoding) (decoder encoding)
      ((Utf8.encode d.name).length ≤ 15 ∧ (Utf8.encode d.tokenId).length ≤ 13
        ∧ (encoding = .ascii → d.counter ≤ 99999999)) d.cut := by
  refine ⟨?_, fun _ => decode_encode⟩
  rw [exists_encode_iff, CounterEncoding.le_maximum_iff]
  exact Iff.rfl

theorem Payload.carries_text (label text : String) (width : Nat) :
    Carries (ofBytes label width (Utf8.encode text)) (Decoder.text width)
      ((Utf8.encode text).length ≤ width ∧ width ≤ 53) (Utf8.untilNul text) := by
  refine ⟨⟨?_, ?_⟩, fun payload h => ?_⟩
  · rintro ⟨payload, h⟩
    obtain ⟨hfits, zeros, hbytes⟩ := fits_of_layOut h
    have hfit : (Utf8.encode text).length ≤ width := hfits _ List.mem_cons_self
    -- the whole field is in the payload
    have hlength := congrArg List.length hbytes
    rw [payload.length_bytes, List.length_append, List.flatMap_singleton,
      Field.length_padded (hfits _ List.mem_cons_self)] at hlength
    exact ⟨hfit, hlength ▸ Nat.le_add_right _ _⟩
  · rintro ⟨hfit, hroom⟩
    exact exists_ofBytes hfit hroom
  · rw [decode_ofBytes h, Utf8.decodeLossy_untilNul]

namespace Decoder

theorem statusRecord_spans : StatusRecord.decoder.Spans 13 := by
  refine byte_spans.bind byte_total (k := 12) fun minor => ?_
  refine byte_spans.bind byte_total (k := 11) fun major => ?_
  refine (block_spans 4).bind (block_total 4) (k := 7) fun serial => ?_
  exact (block_spans 5).bind (block_total 5) (k := 2) fun config => (block_spans 2).map _

theorem slotDetails_spans (encoding : CounterEncoding) :
    (SlotDetails.decoder encoding).Spans 37 := by
  refine (text_spans nameWidth).bind (text_total nameWidth) (k := 22) fun name => ?_
  refine byte_spans.bind byte_total (k := 21) fun flags => ?_
  refine (text_spans tokenIdWidth).bind (text_total tokenIdWidth) (k := 8) fun tokenId => ?_
  exact (counter_spans encoding).map _

theorem codeRecord_spans : CodeRecord.decoder.Spans 5 :=
  word32_spans.bind word32_total (k := 1) fun _ => byte_spans.map _

theorem safeStatus_spans : SafeStatus.decoder.Spans 16 := (block_spans safeCapacity).map _

end Decoder

/-- **Every record that fits is read back, and every decoder looks at its record only.**

The records of fixed size always fit.  A text fits its field by the number of its bytes, a
counter that is written as digits has at most eight of them.  What is read back differs from
what was written only in that each text ends at its first NUL.

On a payload of any length, bytes are missing exactly if there are fewer than the record has;
else these bytes alone decide the result. -/
theorem Payload.records_round_trip (status : StatusRecord) (code : CodeRecord)
    (safe : SafeStatus) (value : UInt8) (label text : String) (width : Nat)
    (details : SlotDetails) (encoding : CounterEncoding) :
    Carries status.encode StatusRecord.decoder True status
      ∧ Carries code.encode CodeRecord.decoder True code
      ∧ Carries (.ok (ofSafeStatus safe)) SafeStatus.decoder True safe
      ∧ Carries (.ok (ofByte value)) Decoder.byte True value
      ∧ Carries (ofBytes label width (Utf8.encode text)) (Decoder.text width)
          ((Utf8.encode text).length ≤ width ∧ width ≤ 53) (Utf8.untilNul text)
      ∧ Carries (details.encode encoding) (SlotDetails.decoder encoding)
          ((Utf8.encode details.name).length ≤ 15 ∧ (Utf8.encode details.tokenId).length ≤ 13
            ∧ (encoding = .ascii → details.counter ≤ 99999999))
          { details with
            name := Utf8.untilNul details.name, tokenId := Utf8.untilNul details.tokenId }
      ∧ StatusRecord.decoder.DecidedBy 13
      ∧ CodeRecord.decoder.DecidedBy 5
      ∧ SafeStatus.decoder.DecidedBy 16
      ∧ Decoder.byte.DecidedBy 1
      ∧ (Decoder.text width).DecidedBy width
      ∧ (SlotDetails.decoder encoding).DecidedBy 37 := by
  exact ⟨status.carries, code.carries, carries_of_decode safe.decode_ofSafeStatus,
    carries_of_decode (decode_ofByte value), carries_text label text width,
    details.carries encoding, Decoder.statusRecord_spans.decidedBy,
    Decoder.codeRecord_spans.decidedBy, Decoder.safeStatus_spans.decidedBy,
    Decoder.byte_spans.decidedBy, (Decoder.text_spans width).decidedBy,
    (Decoder.slotDetails_spans encoding).decidedBy⟩

end OtpToken
