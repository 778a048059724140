/-
  OtpToken.Client.Basic
  ─────────────────────
  **THE HOST SIDE OF A TOKEN.**

  An operation has two halves.  The first, `prepare`, looks only at the host:
  it checks the arguments and writes out every request that the operation
  will send.  The second, `conclude`, reads the payload of the last response
  and says what the host has learned.  Between them `Client.attempt` sends
  the requests one after the other and stops at the first that fails.

      refused on the host   nothing is sent
      failed on the line    the payload is not read
      done                  every request was answered with status ok

  Nothing is sent twice.  Both halves may change the host however they end,
  and what they leave behind stays: nothing here takes a change back.  Either
  way the status of the operation is kept.
-/
import OtpToken.Client.Knowledge
import OtpToken.Client.Options
import OtpToken.Command.Layout
import OtpToken.Line.Basic

namespace OtpToken

/-! ## §1. The host's state. -/

/-- A host connected to a token. -/
structure Client where
  options : Options
  firmware : Firmware
  capabilities : Capabilities
  /-- How the last operation ended. -/
  lastStatus : Status
  /-- Whether this host enabled the Password Safe and has not locked it
  since. -/
  safeEnabled : Bool
  /-- What it knows of the token. -/
  known : Knowledge

/-- A host that has not talked to the token yet. -/
def Client.fresh (options : Options) : Client where
  options
  firmware := ⟨0, 0⟩
  capabilities := .full
  lastStatus := .ok
  safeEnabled := false
  known := .empty

/-! ## §2. One exchange. -/

/-- The payload of a response to `q`.  A busy token is told before a
response to something else, and that before a refusal. -/
def Request.accept (q : Request) (verify : Bool) (r : Report) : Except Error Payload :=
  match Response.ofReport r verify with
  | .error why => .error (.line why)
  | .ok p =>
      if p.state = .busy then .error (.device .busy)
      else if p.command ≠ q.command then .error (.line (.commandMismatch q.command p.command))
      else if p.requestCrc ≠ q.crc then .error (.line (.staleResponse q.crc p.requestCrc))
      else if Status.ofByte p.status = .ok then .ok p.payload
      else .error (.device (.ofByte p.status))

/-- One request over a line. -/
def Request.exchange {σ : Type} (q : Request) (line : Line σ) (verify : Bool) (s : σ) :
    Except Error Payload × σ :=
  match line.send s q.toReport with
  | (.error why, s) => (.error (.line why), s)
  | (.ok r, s) => (q.accept verify r, s)

/-! ## §3. Scripts. -/

/-- The requests of an operation: those whose payload nobody reads, and the
last. -/
structure Script where
  opening : List Request
  final : Request

namespace Script

/-- All requests in order. -/
def requests (script : Script) : List Request := script.opening ++ [script.final]

/-- The requests one after the other, up to the first that fails. -/
def run {σ : Type} (script : Script) (line : Line σ) (verify : Bool) (s : σ) :
    Except Error Payload × σ :=
  go script.opening s
where
  go : List Request → σ → Except Error Payload × σ
    | [], s => script.final.exchange line verify s
    | q :: qs, s =>
        match q.exchange line verify s with
        | (.error why, s) => (.error why, s)
        | (.ok _, s) => go qs s

end Script

/-! ## §4. Operations. -/

/-- What a host can do with a token, giving an `α`.  Each half hands the host
back, also when it fails. -/
structure Operation (α : Type) where
  /-- The requests, or why there are none. -/
  prepare : Client → Except Error Script × Client
  /-- The value in the last payload, or why there is none. -/
  conclude : Client → Payload → Except DecodeError α × Client

/-- The operation with another value. -/
def Operation.map {α β : Type} (f : α → β) (op : Operation α) : Operation β where
  prepare := op.prepare
  conclude c p :=
    let (result, c) := op.conclude c p
    (result.map f, c)

namespace Client

variable {σ α : Type}

/-- The request for a command, with counters as this token writes them. -/
def request (c : Client) (command : Command) : Except Error Request :=
  (command.toRequest c.capabilities.encoding).mapError .library

/-- The value of an operation and the host after it, before its status is
kept. -/
def attempt (c : Client) (line : Line σ) (op : Operation α) (s : σ) :
    Except Error α × Client × σ :=
  match op.prepare c with
  -- Refused on the host: the line is not touched.
  | (.error why, c) => (.error why, c, s)
  | (.ok script, c) =>
      match script.run line c.options.verifyCrc s with
      | (.error why, s) => (.error why, c, s)
      | (.ok payload, s) =>
          let (result, c) := op.conclude c payload
          (result.mapError .ofDecode, c, s)

/-- Runs an operation and keeps its status. -/
def perform (c : Client) (line : Line σ) (op : Operation α) (s : σ) :
    Except Error α × Client × σ :=
  match c.attempt line op s with
  | (.ok a, c, s) => (.ok a, { c with lastStatus := .ok }, s)
  | (.error why, c, s) => (.error why, { c with lastStatus := why.status }, s)

end Client

/-! ## §5. Outcomes. -/

/-- A value next to the status that goes with it. -/
structure Outcome (α : Type) where
  value : α
  status : Status

namespace Outcome

/-- A failure has `blank` in place of a value. -/
def ofResult {α : Type} (blank : α) : Except Error α → Outcome α
  | .ok a => ⟨a, .ok⟩
  | .error why => ⟨blank, why.status⟩

/-- Whether the value is the one asked for. -/
def isOk {α : Type} (o : Outcome α) : Bool := o.status.isOk

end Outcome

end OtpToken
