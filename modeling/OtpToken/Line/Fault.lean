/-
  OtpToken.Line.Fault
  ───────────────────
  **LINES THAT FAIL.**

  A queue says what goes wrong: each report takes one entry from the front,
  and an empty entry or an empty queue lets the report through.  A report
  may be lost on the way there or on the way back, changed in either
  direction, or answered by something else.
-/
import OtpToken.Line.Basic

namespace OtpToken

/-! ## §1. Changes to a report. -/

/-- A byte to be combined with a mask, and whether the checksum is put right
afterwards. -/
structure Flip where
  offset : Nat
  mask : UInt8
  reseal : Bool
  deriving DecidableEq

/-- The report after the change; past its end nothing changes. -/
def Flip.apply (f : Flip) (r : Report) : Report :=
  let changed := r.update f.offset (r.byte f.offset ^^^ f.mask)
  if f.reseal then Report.reseal changed else changed

/-- Parts of a response to be replaced. -/
structure ResponseEdit where
  state : Option UInt8
  command : Option UInt8
  requestCrc : Option UInt32
  status : Option UInt8
  payload : Option Payload
  deriving DecidableEq

/-- The report with the given parts replaced and the checksum put right. -/
def ResponseEdit.apply (e : ResponseEdit) (r : Report) : Report :=
  let crc : Block 4 := match e.requestCrc with
    | some crc => ⟨LittleEndian.encode 4 crc.toNat, LittleEndian.length_encode _ _⟩
    | none => r.slice 3 4 Response.crc_within_report
  let payload : Payload := e.payload.getD (r.slice 8 53 Response.payload_within_report)
  Report.sealed (r.byte 0)
    ⟨e.state.getD (r.byte 1) :: e.command.getD (r.byte 2)
      :: (crc.bytes ++ e.status.getD (r.byte 7) :: payload.bytes), by simp⟩

/-! ## §2. Faults. -/

/-- What happens to one report. -/
inductive Fault where
  /-- The exchange fails; the report has been handled at the other end only
  if it was `executed`. -/
  | fail (error : LineError) (executed : Bool)
  | changeRequest (flip : Flip)
  | changeResponse (flip : Flip)
  | editResponse (edit : ResponseEdit)
  /-- The report goes nowhere and this is the answer. -/
  | reply (report : Report)
  deriving DecidableEq

/-- The exchange of one report under a fault.  Where the report is handled,
a failure of the line itself goes first. -/
def Fault.send {σ : Type} (fault : Fault) (line : Line σ) (s : σ) (r : Report) :
    Except LineError Report × σ :=
  match fault with
  | .fail error executed =>
      if executed then
        -- Handled there, but its answer is lost.
        let (answer, s) := line.send s r
        (answer.bind fun _ => .error error, s)
      else (.error error, s)
  | .changeRequest flip => line.send s (flip.apply r)
  | .changeResponse flip =>
      let (answer, s) := line.send s r
      (answer.map flip.apply, s)
  | .editResponse edit =>
      let (answer, s) := line.send s r
      (answer.map edit.apply, s)
  | .reply report => (.ok report, s)

/-- The line with a queue of faults before it. -/
def Line.faulty {σ : Type} (line : Line σ) : Line (σ × List (Option Fault)) where
  send s r :=
    match s with
    | (s, some fault :: queue) =>
        let (answer, s) := fault.send line s r
        (answer, s, queue)
    | (s, queue) =>
        let (answer, s) := line.send s r
        (answer, s, queue.tail)

end OtpToken
