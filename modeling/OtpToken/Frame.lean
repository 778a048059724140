/-
  OtpToken.Frame
  ──────────────
  **REPORTS AND THE FRAMES IN THEM.**

      request   id | command | payload (59)                                   | CRC (4)
      response  id | state | command | request CRC (4) | status | payload (53) | CRC (4)

  Integers have the least significant byte first.  The checksum covers the
  sixty bytes between the id and itself; the id is written as zero and never
  looked at.  A response repeats the command byte and the checksum of the
  request that it answers.
-/
import OtpToken.Bytes.Block
import OtpToken.Checksum
import OtpToken.Error

namespace OtpToken

/-! ## §1. Reports. -/

/-- One report, in either direction. -/
abbrev Report := Block 65

/-- What a request carries. -/
abbrev RequestPayload := Block 59

/-- What a response carries. -/
abbrev Payload := Block 53

namespace Report

/-- The part that the checksum covers. -/
def body (r : Report) : Block 60 := r.slice 1 60 (by decide)

/-- The checksum that the report carries. -/
def storedCrc (r : Report) : UInt32 := UInt32.ofNat (LittleEndian.decode (r.bytes.drop 61))

/-- The checksum that it ought to carry. -/
def computedCrc (r : Report) : UInt32 := checksum r.body.bytes

/-- A report with the checksum of its contents. -/
def sealed (id : UInt8) (body : Block 60) : Report :=
  ⟨id :: (body.bytes ++ LittleEndian.encode 4 (checksum body.bytes).toNat), by simp⟩

/-- The same contents with their checksum. -/
def reseal (r : Report) : Report := sealed (r.byte 0) r.body

end Report

/-! ## §2. Requests. -/

/-- What the host sends. -/
structure Request where
  command : UInt8
  payload : RequestPayload
  deriving DecidableEq

namespace Request

/-- What the checksum covers: command byte and payload. -/
def body (q : Request) : Block 60 := ⟨q.command :: q.payload.bytes, by simp⟩

/-- The checksum of the request, which its response must repeat. -/
def crc (q : Request) : UInt32 := checksum q.body.bytes

/-- The report that carries the request. -/
def toReport (q : Request) : Report := .sealed 0 q.body

/-- The request in a report that carries the right checksum. -/
def ofReport (r : Report) : Except DecodeError Request :=
  if r.storedCrc = r.computedCrc then .ok ⟨r.byte 1, r.slice 2 59 (by decide)⟩
  else .error (.checksum r.storedCrc r.computedCrc)

end Request

/-! ## §3. Responses. -/

/-- What the token says about itself. -/
inductive DeviceState where
  | ok
  | busy
  | error
  /-- The request has come in and is not answered yet. -/
  | receivedReport
  deriving DecidableEq

namespace DeviceState

/-- The byte of a state. -/
def toByte : DeviceState → UInt8
  | ok => 0
  | busy => 1
  | error => 2
  | receivedReport => 3

/-- The state of a byte; only four bytes are one. -/
def ofByte (b : UInt8) : Except DecodeError DeviceState :=
  match b.toNat with
  | 0 => .ok ok
  | 1 => .ok busy
  | 2 => .ok error
  | 3 => .ok receivedReport
  | _ => .error (.deviceState b)

/-- The name of a state. -/
def name : DeviceState → String
  | ok => "Ok"
  | busy => "Busy"
  | error => "Error"
  | receivedReport => "ReceivedReport"

theorem ofByte_toByte (s : DeviceState) : ofByte s.toByte = .ok s := by cases s <;> rfl

end DeviceState

/-- What the token answers. -/
structure Response where
  state : DeviceState
  command : UInt8
  /-- The checksum of the request that this answers. -/
  requestCrc : UInt32
  status : UInt8
  payload : Payload
  deriving DecidableEq

namespace Response

/-- What the checksum covers: everything in front of it. -/
def body (p : Response) : Block 60 :=
  ⟨p.state.toByte :: p.command
      :: (LittleEndian.encode 4 p.requestCrc.toNat ++ p.status :: p.payload.bytes), by simp⟩

/-- The report that carries the response. -/
def toReport (p : Response) : Report := .sealed 0 p.body

/-- The checksum of the request, as it lies in a report. -/
theorem crc_within_report : 3 + 4 ≤ 65 := by decide

/-- The payload, as it lies in a report. -/
theorem payload_within_report : 8 + 53 ≤ 65 := by decide

/-- The response in a report.  A wrong checksum, where it is looked at, goes
before an unknown state. -/
def ofReport (r : Report) (verify : Bool) : Except LineError Response :=
  if verify ∧ r.storedCrc ≠ r.computedCrc then
    .error (.crcMismatch r.computedCrc r.storedCrc)
  else match DeviceState.ofByte (r.byte 1) with
    | .error e => .error (.ofDecode e)
    | .ok state => .ok {
        state
        command := r.byte 2
        requestCrc := UInt32.ofNat (LittleEndian.decode (r.slice 3 4 crc_within_report).bytes)
        status := r.byte 7
        payload := r.slice 8 53 payload_within_report }

end Response

end OtpToken
