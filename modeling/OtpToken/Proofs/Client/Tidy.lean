/-
  OtpToken.Proofs.Client.Tidy
  ───────────────────────────
  **NOTHING CHANGES ON A HOST BEFORE THE LAST STEP THAT CAN FAIL.**

  An operation may change the host at two places, and `Client.attempt` keeps
  what it finds there, however the operation ends.  So an operation that fails
  leaves the host as it was only if

      nothing changes while the requests are written out, and
      nothing changes before the last payload has been read.

  An operation that keeps to this is tidy (`Operation.Tidy`).  Each shape of an
  operation is, and so every call is (`Call.tidy`).  A tidy operation as a whole
  is done or changes nothing on the host, on any line (`Tidy.atomic_attempt`).
-/
import OtpToken.Client.Call
import OtpToken.Proofs.Atomic

namespace OtpToken

variable {α β : Type}

namespace Operation

/-! ## §1. Tidy operations. -/

/-- The operation changes nothing before the last step that can fail. -/
structure Tidy (op : Operation α) : Prop where
  /-- The requests are written out by a host that stays as it is. -/
  prepare : ∀ c, (op.prepare c).2 = c
  /-- A payload that cannot be read leaves the host as it was. -/
  conclude : ∀ c payload, Atomic c (op.conclude c payload)

namespace Tidy

variable {op : Operation α} {c : Client}

theorem prepare_eq (h : op.Tidy) {r : Except Error Script} (hr : (op.prepare c).1 = r) :
    op.prepare c = (r, c) :=
  Prod.ext hr (h.prepare c)

/-- **A tidy operation that fails leaves the host as it was**, whatever is at
the other end of the line. -/
theorem atomic_attempt {σ : Type} (h : op.Tidy) (c : Client) (line : Line σ) (s : σ) :
    Atomic c ((c.attempt line op s).1, (c.attempt line op s).2.1) := by
  unfold Client.attempt
  cases hprepare : (op.prepare c).1 with
  | error why =>
    rw [h.prepare_eq hprepare]
    exact .of_error why c
  | ok script =>
    rw [h.prepare_eq hprepare]
    dsimp only
    -- the requests go over the line, which the host does not see
    obtain ⟨why | payload, s'⟩ := script.run line c.options.verifyCrc s
    · exact .of_error why c
    · rcases (h.conclude c payload).ends with ⟨e, hconclude⟩ | ⟨a, after, hconclude⟩
      · simp only [hconclude]
        exact .of_error (Error.ofDecode e) c
      · simp only [hconclude]
        exact .of_ok a c after

/-- Another value changes nothing. -/
theorem map (h : op.Tidy) (f : α → β) : (op.map f).Tidy where
  prepare := h.prepare
  conclude c payload := (h.conclude c payload).map f

end Tidy

/-! ## §2. Shapes of operations. -/

/-- What there is to learn is learned from an answer that says no more than
`ok`. -/
theorem tidy_act (command : Client → Except Error Command) (learn : Client → Client) :
    (act command learn).Tidy where
  prepare _ := rfl
  conclude c _ := .of_ok () c (learn c)

/-- What there is to learn is learned once the answer has been read. -/
theorem tidy_consult (command : Client → Except Error Command) (decoder : Client → Decoder β)
    (learn : Client → β → α × Client) : (consult command decoder learn).Tidy where
  prepare _ := rfl
  conclude c payload := by
    unfold consult single
    dsimp only
    cases (decoder c).decode payload.bytes with
    | error e => exact .of_error e c
    | ok b => exact .of_ok _ c _

/-- A slot that is written is known only when every piece was taken. -/
theorem tidy_writeSlot (kind : CodeKind) (index : UInt8) (data : SlotData) (counter : UInt64)
    (adminTemp : Secret) : (writeSlot kind index data counter adminTemp).Tidy where
  prepare _ := rfl
  conclude c _ := .of_ok () c _

/-- And a Password Safe slot only when both its parts were taken. -/
theorem tidy_writeSafe (index : UInt8) (name login password : String) :
    (writeSafe index name login password).Tidy where
  prepare _ := rfl
  conclude c _ := .of_ok () c _

theorem tidy_getStatus : getStatus.Tidy := tidy_consult _ _ _

end Operation

/-! ## §3. Calls. -/

open Operation in
/-- **Every call is tidy.** -/
theorem Call.tidy (call : Call) : call.operation.Tidy := by
  cases call with
  -- an answer that is read
  | getStatus => exact tidy_getStatus.map _
  | serialNumber => exact (tidy_getStatus.map _).map _
  | majorVersion => exact (tidy_getStatus.map _).map _
  | minorVersion => exact (tidy_getStatus.map _).map _
  | readConfig => exact (tidy_getStatus.map _).map _
  | aesSupported pin => exact ((tidy_consult _ _ _).map _).map _
  | adminRetryCount => exact (tidy_consult _ _ _).map _
  | userRetryCount => exact (tidy_consult _ _ _).map _
  | hotpCode index temp => exact (tidy_consult _ _ _).map _
  | totpCode index challenge lastTime lastInterval temp => exact (tidy_consult _ _ _).map _
  | readSlot kind index => exact (tidy_consult _ _ _).map _
  | slotName kind index => exact (tidy_consult _ _ _).map _
  | safeStatus => exact (tidy_consult _ _ _).map _
  | safeName index => exact (tidy_consult _ _ _).map _
  | safeLogin index => exact (tidy_consult _ _ _).map _
  | safePassword index => exact (tidy_consult _ _ _).map _
  -- several requests
  | writeHotp index data counter temp => exact (tidy_writeSlot ..).map _
  | writeTotp index data period temp => exact (tidy_writeSlot ..).map _
  | writeSafe index name login password => exact (tidy_writeSafe ..).map _
  -- one request, and nothing to read
  | _ => exact (tidy_act _ _).map _

end OtpToken
