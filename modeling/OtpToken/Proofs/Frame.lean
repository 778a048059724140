/-
  OtpToken.Proofs.Frame
  ─────────────────────
  **WHAT IS SEALED IS OPENED AGAIN.**

  A sealed report carries the checksum of its contents, so a request and a
  response are read back from the report that was made of them.

  Of any other report it is said what is read of it at all: a request that is
  read has the command byte and the checksum of its report, and a response its
  state, command byte and status byte.
-/
import OtpToken.Frame

namespace OtpToken

/-! ## §1. Words and neighbouring pieces. -/

/-- Four bytes and the word that they stand for say the same. -/
theorem LittleEndian.encode_eq_iff {w : UInt32} {bs : Bytes} (h : bs.length = 4) :
    encode 4 w.toNat = bs ↔ w = UInt32.ofNat (decode bs) := by
  constructor
  · intro hbytes
    rw [← hbytes, decode_encode_of_lt 4 w.toNat_lt, UInt32.ofNat_toNat]
  · intro hword
    have hlt := decode_lt bs
    rw [h] at hlt
    rw [hword, UInt32.toNat_ofNat_of_lt' hlt, ← h]
    exact encode_decode bs

namespace Block

variable {n : Nat}

/-- A piece starts with its first byte. -/
theorem bytes_slice_succ (b : Block n) (start width : Nat) (h : start + (width + 1) ≤ n) :
    (b.slice start (width + 1) h).bytes
      = b.byte start :: (b.slice (start + 1) width (by omega)).bytes := by
  have hlength : start < b.bytes.length := by
    rw [b.length_bytes]
    omega
  show (b.bytes.drop start).take (width + 1)
    = b.bytes.getD start 0 :: (b.bytes.drop (start + 1)).take width
  rw [List.drop_eq_getElem_cons hlength, List.take_succ_cons, List.getD_eq_getElem?_getD,
    List.getElem?_eq_getElem hlength]
  rfl

/-- Two pieces side by side are one. -/
theorem bytes_slice_add (b : Block n) (start left right : Nat) (h : start + (left + right) ≤ n) :
    (b.slice start (left + right) h).bytes
      = (b.slice start left (by omega)).bytes
        ++ (b.slice (start + left) right (by omega)).bytes := by
  show (b.bytes.drop start).take (left + right)
    = (b.bytes.drop start).take left ++ (b.bytes.drop (start + left)).take right
  rw [List.take_add, List.drop_drop]

end Block

/-! ## §2. Sealed reports. -/

namespace Report

theorem bytes_sealed (id : UInt8) (b : Block 60) :
    (sealed id b).bytes = id :: (b.bytes ++ LittleEndian.encode 4 (checksum b.bytes).toNat) :=
  rfl

theorem body_sealed (id : UInt8) (b : Block 60) : (sealed id b).body = b := by
  apply Block.ext_bytes
  show ((sealed id b).bytes.drop 1).take 60 = b.bytes
  rw [bytes_sealed, List.drop_succ_cons, List.drop_zero, List.take_left' b.length_bytes]

theorem drop_sealed (id : UInt8) (b : Block 60) :
    (sealed id b).bytes.drop 61 = LittleEndian.encode 4 (checksum b.bytes).toNat := by
  rw [bytes_sealed, List.drop_succ_cons, List.drop_left' b.length_bytes]

/-- **A sealed report carries the checksum that it ought to carry.** -/
theorem storedCrc_sealed (id : UInt8) (b : Block 60) :
    (sealed id b).storedCrc = (sealed id b).computedCrc := by
  rw [storedCrc, drop_sealed, computedCrc, body_sealed,
    LittleEndian.decode_encode_of_lt 4 (checksum b.bytes).toNat_lt, UInt32.ofNat_toNat]

/-- A piece of a sealed report is a piece of its contents. -/
theorem slice_sealed (id : UInt8) (b : Block 60) (start width : Nat)
    (h : start + 1 + width ≤ 65) (hw : start + width ≤ 60) :
    (sealed id b).slice (start + 1) width h = b.slice start width hw := by
  apply Block.ext_bytes
  show ((sealed id b).bytes.drop (start + 1)).take width = (b.bytes.drop start).take width
  have hl : width ≤ (b.bytes.drop start).length := by
    rw [List.length_drop, b.length_bytes]
    omega
  rw [bytes_sealed, List.drop_succ_cons, List.drop_append_of_le_length (by simp; omega),
    List.take_append_of_le_length hl]

end Report

/-! ## §3. Requests and responses. -/

/-- **A request is read back from its report.** -/
theorem Request.ofReport_toReport (q : Request) : Request.ofReport q.toReport = .ok q := by
  rw [ofReport, toReport, if_pos (Report.storedCrc_sealed 0 q.body)]
  have hcommand : (Report.sealed 0 q.body).byte 1 = q.command := rfl
  have hpayload : (Report.sealed 0 q.body).slice 2 59 (by decide) = q.payload := by
    rw [Report.slice_sealed 0 q.body 1 59 (by decide) (by decide)]
    apply Block.ext_bytes
    show q.payload.bytes.take 59 = q.payload.bytes
    exact List.take_of_length_le (Nat.le_of_eq q.payload.length_bytes)
  rw [hcommand, hpayload]

/-- **A response is read back from its report, whether or not the checksum
is looked at.** -/
theorem Response.ofReport_toReport (p : Response) (verify : Bool) :
    Response.ofReport p.toReport verify = .ok p := by
  have hseal : ¬ (verify ∧ p.toReport.storedCrc ≠ p.toReport.computedCrc) := by
    rintro ⟨-, h⟩
    exact h (Report.storedCrc_sealed 0 p.body)
  rw [ofReport, if_neg hseal]
  have hstate : p.toReport.byte 1 = p.state.toByte := rfl
  have hcommand : p.toReport.byte 2 = p.command := rfl
  have hstatus : p.toReport.byte 7 = p.status := rfl
  have hcrc : UInt32.ofNat (LittleEndian.decode (p.toReport.slice 3 4 (by decide)).bytes)
      = p.requestCrc := by
    have hbytes : (p.toReport.slice 3 4 (by decide)).bytes
        = LittleEndian.encode 4 p.requestCrc.toNat := rfl
    rw [hbytes, LittleEndian.decode_encode_of_lt 4 p.requestCrc.toNat_lt, UInt32.ofNat_toNat]
  have hpayload : p.toReport.slice 8 53 (by decide) = p.payload := by
    rw [toReport, Report.slice_sealed 0 p.body 7 53 (by decide) (by decide)]
    apply Block.ext_bytes
    show p.payload.bytes.take 53 = p.payload.bytes
    exact List.take_of_length_le (Nat.le_of_eq p.payload.length_bytes)
  rw [hstate, DeviceState.ofByte_toByte]
  simp only [hcommand, hstatus, hcrc, hpayload]

/-! ## §4. What is read of any report. -/

/-- What the checksum covers is the command byte and the payload. -/
theorem Report.bytes_body (r : Report) :
    r.body.bytes = r.byte 1 :: (r.slice 2 59 (by decide)).bytes :=
  r.bytes_slice_succ 1 59 (by decide)

/-- Behind it lies the checksum. -/
theorem Report.drop_one (r : Report) : r.bytes.drop 1 = r.body.bytes ++ r.bytes.drop 61 := by
  show _ = (r.bytes.drop 1).take 60 ++ r.bytes.drop 61
  rw [← List.take_append_drop 60 (r.bytes.drop 1), List.drop_drop]
  simp

/-- The report of a request carries the checksum of the request. -/
theorem Request.storedCrc_toReport (q : Request) : q.toReport.storedCrc = q.crc := by
  show (Report.sealed 0 q.body).storedCrc = _
  rw [Report.storedCrc_sealed, Report.computedCrc, Report.body_sealed]
  rfl

/-- **A request that is read has the command byte and the checksum of its
report.** -/
theorem Request.of_ofReport {r : Report} {q : Request} (h : ofReport r = .ok q) :
    q.command = r.byte 1 ∧ q.crc = r.storedCrc := by
  unfold ofReport at h
  split at h
  · next hcrc =>
    cases h
    refine ⟨rfl, ?_⟩
    rw [hcrc, Report.computedCrc, r.bytes_body]
    rfl
  · cases h

/-- Each state has one byte. -/
theorem DeviceState.toByte_of_ofByte {b : UInt8} {s : DeviceState} (h : ofByte b = .ok s) :
    s.toByte = b := by
  apply UInt8.toNat_inj.mp
  unfold ofByte at h
  split at h
  · next hb => cases h; exact hb.symm
  · next hb => cases h; exact hb.symm
  · next hb => cases h; exact hb.symm
  · next hb => cases h; exact hb.symm
  · cases h

/-- **A response that is read has the state, the command byte and the status
byte of its report.** -/
theorem Response.of_ofReport {r : Report} {verify : Bool} {p : Response}
    (h : ofReport r verify = .ok p) :
    p.state.toByte = r.byte 1 ∧ p.command = r.byte 2 ∧ p.status = r.byte 7 := by
  unfold ofReport at h
  split at h
  · cases h
  · split at h
    · cases h
    · next state hstate =>
      cases h
      exact ⟨DeviceState.toByte_of_ofByte hstate, rfl, rfl⟩

/-- A report in which no response can be read has an unknown status. -/
theorem Response.status_of_unreadable {r : Report} {verify : Bool} {why : LineError}
    (h : ofReport r verify = .error why) : why.status = .unknown := by
  unfold ofReport at h
  split at h
  · cases h
    rfl
  · split at h
    · cases h
      rfl
    · cases h

end OtpToken
