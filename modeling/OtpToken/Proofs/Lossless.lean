/-
  OtpToken.Proofs.Lossless
  ────────────────────────
  **NOTHING IS LOST BETWEEN A FRAME AND ITS REPORT.**

  What was sealed is read back; here it goes the other way round as well, and what was
  read in a report gives that report again when it is sealed:

      request                   the report, with a zero for the id
      response, checked         the report, with a zero for the id
      response, not checked     the contents of the report

  The fields of a frame stand side by side and fill the contents of its report, so only
  one frame has them (`Request.body_eq_iff`, `Response.body_eq_iff`), and a report that
  carries the right checksum is its contents sealed (`Report.sealed_eq_iff`).  So the
  reports that are read are just those that can be written, whatever their id
  (`Report.codec_exact`), and all others are refused for the first fault there is.
-/
import OtpToken.Proofs.Damage

namespace OtpToken

namespace Report

/-! ## §1. Reports as sealed contents. -/

/-- The fields of a response, as they stand in the contents of a report. -/
theorem bytes_body_response (r : Report) :
    r.body.bytes = r.byte 1 :: r.byte 2
      :: ((r.slice 3 4 Response.crc_within_report).bytes
        ++ r.byte 7 :: (r.slice 8 53 Response.payload_within_report).bytes) := by
  have hcommand : (r.slice 2 59 (by decide)).bytes
      = r.byte 2 :: (r.slice 3 58 (by decide)).bytes := r.bytes_slice_succ 2 58 (by decide)
  have hcrc : (r.slice 3 58 (by decide)).bytes
      = (r.slice 3 4 (by decide)).bytes ++ (r.slice 7 54 (by decide)).bytes :=
    r.bytes_slice_add 3 4 54 (by decide)
  have hstatus : (r.slice 7 54 (by decide)).bytes
      = r.byte 7 :: (r.slice 8 53 (by decide)).bytes := r.bytes_slice_succ 7 53 (by decide)
  rw [r.bytes_body, hcommand, hcrc, hstatus]

/-- The checksum that a report carries, as it lies in the report. -/
theorem encode_storedCrc (r : Report) :
    LittleEndian.encode 4 r.storedCrc.toNat = r.bytes.drop 61 := by
  have hlength : (r.bytes.drop 61).length = 4 := by
    rw [List.length_drop, r.length_bytes]
  exact (LittleEndian.encode_eq_iff hlength).mpr rfl

/-- A report with another id. -/
theorem bytes_update_id (r : Report) (id : UInt8) :
    (r.update 0 id).bytes = id :: r.bytes.drop 1 := by
  obtain ⟨bytes, h⟩ := r
  cases bytes with
  | nil => cases h
  | cons b bs => rfl

theorem sameFrame_update_id (r : Report) (id : UInt8) : r.SameFrame (r.update 0 id) := by
  show r.bytes.drop 1 = (r.update 0 id).bytes.drop 1
  rw [bytes_update_id]
  rfl

/-- The id is neither part of the contents nor of the checksum. -/
theorem SameFrame.body_eq {r r' : Report} (h : r.SameFrame r') :
    r'.body = r.body ∧ r'.storedCrc = r.storedCrc := by
  obtain ⟨id, id', frame, hr, hr', rfl, rfl⟩ := h.exists_frame
  exact ⟨rfl, rfl⟩

/-- **Sealing contents gives a report, whatever its id, exactly if these are its contents
and it carries the right checksum.** -/
theorem sealed_eq_iff (r : Report) (id : UInt8) (b : Block 60) :
    sealed id b = r.update 0 id ↔ b = r.body ∧ r.storedCrc = r.computedCrc := by
  constructor
  · intro h
    obtain ⟨hbody, hstored⟩ := (r.sameFrame_update_id id).body_eq
    have hcrc := storedCrc_sealed id b
    have hb := body_sealed id b
    rw [h, hbody] at hb
    rw [h, hstored, computedCrc, hbody] at hcrc
    exact ⟨hb.symm, hcrc⟩
  · rintro ⟨rfl, hcrc⟩
    apply Block.ext_bytes
    rw [bytes_sealed, bytes_update_id, drop_one, ← encode_storedCrc, hcrc]
    rfl

end Report

/-! ## §2. Requests. -/

namespace Request

variable {r : Report} {q : Request} {why : DecodeError}

/-- Only one request has the contents of a report. -/
theorem body_eq_iff : q.body = r.body ↔ q = ⟨r.byte 1, r.slice 2 59 (by decide)⟩ := by
  constructor
  · intro h
    have hbytes : q.command :: q.payload.bytes = r.byte 1 :: (r.slice 2 59 (by decide)).bytes :=
      (congrArg Block.bytes h).trans r.bytes_body
    obtain ⟨hcommand, hpayload⟩ := List.cons.inj hbytes
    rw [← hcommand, ← Block.ext_bytes hpayload]
  · intro h
    rw [h]
    exact Block.ext_bytes r.bytes_body.symm

/-- **A request is read in the reports that it gives, whatever the id**, and in no other. -/
theorem ofReport_eq_ok_iff : ofReport r = .ok q ↔ q.toReport = r.update 0 0 := by
  rw [toReport, Report.sealed_eq_iff, body_eq_iff]
  unfold ofReport
  by_cases hcrc : r.storedCrc = r.computedCrc
  · rw [if_pos hcrc]
    simp only [Except.ok.injEq, hcrc, and_true, eq_comm]
  · rw [if_neg hcrc]
    simp only [reduceCtorEq, hcrc, and_false]

/-- **All other reports are refused for their checksum.** -/
theorem ofReport_eq_error_iff :
    ofReport r = .error why
      ↔ r.storedCrc ≠ r.computedCrc ∧ why = .checksum r.storedCrc r.computedCrc := by
  unfold ofReport
  by_cases hcrc : r.storedCrc = r.computedCrc
  · rw [if_pos hcrc]
    simp only [reduceCtorEq, ne_eq, hcrc, not_true, false_and]
  · rw [if_neg hcrc]
    simp only [Except.error.injEq, ne_eq, hcrc, not_false_iff, true_and, eq_comm]

end Request

/-! ## §3. Responses. -/

/-- Only the four bytes of states are read. -/
theorem DeviceState.ofByte_eq_ok_iff {b : UInt8} {s : DeviceState} :
    ofByte b = .ok s ↔ s.toByte = b := by
  constructor
  · exact toByte_of_ofByte
  · rintro rfl
    exact ofByte_toByte s

theorem DeviceState.ofByte_eq_error_iff {b : UInt8} {why : DecodeError} :
    ofByte b = .error why ↔ 3 < b.toNat ∧ why = .deviceState b := by
  unfold ofByte
  split
  · simp [*]
  · simp [*]
  · simp [*]
  · simp [*]
  · next h₀ h₁ h₂ h₃ =>
    have hb : 3 < b.toNat := by
      simp only [imp_false] at h₀ h₁ h₂ h₃
      omega
    simp only [Except.error.injEq, hb, true_and, eq_comm]

namespace Response

variable {r : Report} {p : Response} {verify : Bool} {why : LineError}

/-- Only one response has the contents of a report. -/
theorem body_eq_iff : p.body = r.body ↔ p.state.toByte = r.byte 1 ∧ p.command = r.byte 2
    ∧ p.requestCrc = UInt32.ofNat (LittleEndian.decode (r.slice 3 4 crc_within_report).bytes)
    ∧ p.status = r.byte 7 ∧ p.payload = r.slice 8 53 payload_within_report := by
  have hcrc := LittleEndian.encode_eq_iff (w := p.requestCrc)
    (r.slice 3 4 crc_within_report).length_bytes
  constructor
  · intro h
    have hbytes : p.state.toByte :: p.command
        :: (LittleEndian.encode 4 p.requestCrc.toNat ++ p.status :: p.payload.bytes) = _ :=
      (congrArg Block.bytes h).trans r.bytes_body_response
    obtain ⟨hstate, hbytes⟩ := List.cons.inj hbytes
    obtain ⟨hcommand, hbytes⟩ := List.cons.inj hbytes
    obtain ⟨hword, hbytes⟩ := List.append_inj hbytes (by simp)
    obtain ⟨hstatus, hpayload⟩ := List.cons.inj hbytes
    exact ⟨hstate, hcommand, hcrc.mp hword, hstatus, Block.ext_bytes hpayload⟩
  · rintro ⟨hstate, hcommand, hword, hstatus, hpayload⟩
    apply Block.ext_bytes
    show p.state.toByte :: p.command
      :: (LittleEndian.encode 4 p.requestCrc.toNat ++ p.status :: p.payload.bytes) = _
    rw [hstate, hcommand, hcrc.mpr hword, hstatus, hpayload, r.bytes_body_response]

/-- **A response is read in the reports with its contents**, if the checksum is not
looked at. -/
theorem ofReport_false_eq_ok_iff : ofReport r false = .ok p ↔ p.body = r.body := by
  rw [body_eq_iff, ← DeviceState.ofByte_eq_ok_iff]
  unfold ofReport
  rw [if_neg (by simp)]
  obtain ⟨state, command, requestCrc, status, payload⟩ := p
  cases DeviceState.ofByte (r.byte 1) with
  | error e => simp
  | ok s => simp [eq_comm]

/-- **The checksum goes before everything else**, where it is looked at. -/
theorem ofReport_eq (r : Report) (verify : Bool) :
    ofReport r verify = if verify ∧ r.storedCrc ≠ r.computedCrc then
      .error (.crcMismatch r.computedCrc r.storedCrc) else ofReport r false := by
  unfold ofReport
  split
  · rfl
  · simp

/-- **A response is read in the reports that it gives, whatever the id**, if the checksum
is looked at. -/
theorem ofReport_true_eq_ok_iff : ofReport r true = .ok p ↔ p.toReport = r.update 0 0 := by
  rw [toReport, Report.sealed_eq_iff, ← ofReport_false_eq_ok_iff, ofReport_eq r true]
  by_cases hcrc : r.storedCrc = r.computedCrc
  · simp [hcrc]
  · simp [hcrc]

/-- **All other reports are refused**: for their checksum, where it is looked at, and only
then for their state. -/
theorem ofReport_eq_error_iff : ofReport r verify = .error why ↔
    (verify = true ∧ r.storedCrc ≠ r.computedCrc)
        ∧ why = .crcMismatch r.computedCrc r.storedCrc
      ∨ ¬ (verify = true ∧ r.storedCrc ≠ r.computedCrc)
        ∧ 3 < (r.byte 1).toNat
        ∧ why = .malformed ("device state " ++ Decimal.text (r.byte 1).toNat) := by
  have hstate : ofReport r false = .error why ↔ 3 < (r.byte 1).toNat
      ∧ why = .malformed ("device state " ++ Decimal.text (r.byte 1).toNat) := by
    unfold ofReport
    rw [if_neg (by simp)]
    cases h : DeviceState.ofByte (r.byte 1) with
    | error e =>
      obtain ⟨hlt, rfl⟩ := DeviceState.ofByte_eq_error_iff.mp h
      simp only [Except.error.injEq, hlt, true_and]
      exact eq_comm
    | ok s =>
      have hle : ¬ 3 < (r.byte 1).toNat := by
        intro hlt
        cases h.symm.trans (DeviceState.ofByte_eq_error_iff.mpr ⟨hlt, rfl⟩)
      simp only [reduceCtorEq, hle, false_and]
  rw [ofReport_eq]
  by_cases hcrc : verify = true ∧ r.storedCrc ≠ r.computedCrc
  · rw [if_pos hcrc]
    constructor
    · intro h
      cases h
      exact .inl ⟨hcrc, rfl⟩
    · rintro (⟨-, rfl⟩ | ⟨hnot, -⟩)
      · rfl
      · exact absurd hcrc hnot
  · rw [if_neg hcrc, hstate]
    simp only [hcrc, false_and, not_false_iff, true_and, false_or]

end Response

/-! ## §4. The codec. -/

/-- **Frames and reports say the same.**

* A request is read back from its report, which carries the checksum of the request.  The
  reports in which a request is read are just its own report with any id, and each of them
  carries the checksum of the request.  All others are refused for their checksum.
* A response is read back from its report, whether or not the checksum is looked at.  The
  reports in which it is read are, if the checksum is looked at, just its own report with
  any id, and if it is not, the reports with the same sixty bytes behind the id.
* A response is refused for a wrong checksum, where it is looked at, and only then for a
  byte that is no state; nothing else is refused. -/
theorem Report.codec_exact (r : Report) (q : Request) (p : Response) (verify : Bool)
    (fault : DecodeError) (why : LineError) :
    (Request.ofReport q.toReport = .ok q ∧ q.toReport.storedCrc = q.crc)
      ∧ (Request.ofReport r = .ok q ↔ q.toReport = r.update 0 0)
      ∧ (Request.ofReport r = .ok q → q.crc = r.storedCrc)
      ∧ (Request.ofReport r = .error fault ↔
          r.storedCrc ≠ r.computedCrc ∧ fault = .checksum r.storedCrc r.computedCrc)
      ∧ Response.ofReport p.toReport verify = .ok p
      ∧ (Response.ofReport r true = .ok p ↔ p.toReport = r.update 0 0)
      ∧ (Response.ofReport r false = .ok p ↔ p.toReport.body = r.body)
      ∧ (Response.ofReport r verify = .error why ↔
          (verify = true ∧ r.storedCrc ≠ r.computedCrc)
              ∧ why = .crcMismatch r.computedCrc r.storedCrc
            ∨ ¬ (verify = true ∧ r.storedCrc ≠ r.computedCrc)
              ∧ 3 < (r.byte 1).toNat
              ∧ why = .malformed ("device state " ++ Decimal.text (r.byte 1).toNat)) := by
  have hbody : p.toReport.body = p.body := Report.body_sealed 0 p.body
  refine ⟨⟨q.ofReport_toReport, q.storedCrc_toReport⟩, Request.ofReport_eq_ok_iff,
    fun h => (Request.of_ofReport h).2, Request.ofReport_eq_error_iff, p.ofReport_toReport verify,
    Response.ofReport_true_eq_ok_iff, ?_, Response.ofReport_eq_error_iff⟩
  rw [hbody]
  exact Response.ofReport_false_eq_ok_iff

end OtpToken
