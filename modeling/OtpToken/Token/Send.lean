/-
  OtpToken.Token.Send
  ───────────────────
  **A TOKEN BEHIND REPORTS.**

  A plugged-in token answers every report.  One with a wrong checksum is not
  looked into: the answer repeats its command byte and its last four bytes.
  Every other answer says how the command ended and repeats the checksum of
  the request.
-/
import OtpToken.Command.Parse
import OtpToken.Line.Basic
import OtpToken.Token.Execute

namespace OtpToken.Token

/-- The answer to a request, and the token after it. -/
def handle (t : Token) (q : Request) : Answer × Token :=
  match Command.parse q t.encoding with
  | .error status => t.refuse status
  | .ok command => t.execute command

/-- The frame around an answer. -/
def respond (q : Request) : Answer → Response
  | .ok payload => ⟨.ok, q.command, q.crc, Status.toByte .ok, payload⟩
  | .error status => ⟨.ok, q.command, q.crc, status.toByte, .empty⟩

/-- The answer to a report whose checksum is wrong. -/
def respondWrongCrc (r : Report) : Response :=
  ⟨.error, r.byte 1, r.storedCrc, Status.toByte .wrongCrc, .empty⟩

/-- One report in, one report out. -/
def send (t : Token) (r : Report) : Except LineError Report × Token :=
  if !t.pluggedIn then (.error .disconnected, t)
  else match Request.ofReport r with
    | .error _ => (.ok (respondWrongCrc r).toReport, t)
    | .ok q =>
        let (answer, t) := t.handle q
        (.ok (respond q answer).toReport, t)

/-- A line straight to a token. -/
def line : Line Token := ⟨send⟩

end OtpToken.Token
