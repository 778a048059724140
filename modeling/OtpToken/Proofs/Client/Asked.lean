/-
  OtpToken.Proofs.Client.Asked
  ────────────────────────────
  **A CALL THAT IS SENT ENDS AS THE TOKEN ANSWERS.**

  Between a call of one command and a plugged-in token stands one refusal, that
  of the host.  If the host does not refuse the call, the token has answered its
  command, and the call fails with a status exactly if the token has told it
  (`Call.device_iff`).  A call whose command fits is not refused, and its value
  is what the host reads in the answer (`Client.perform_of_answered`).

  It does not matter what the host takes the token to be capable of.
-/
import OtpToken.Proofs.Client.Refusal
import OtpToken.Proofs.Client.Single

namespace OtpToken

variable {α : Type}

/-! ## §1. Operations of one command. -/

namespace Client

variable {c : Client} {t t' : Token} {op : Operation α} {x : Command}

/-- What cannot be read is a failure of the line, so a status of the token stays one
and nothing else becomes one. -/
theorem finish_device_iff (answer : Except Error Payload) (status : Status) :
    (c.finish op answer).1 = .error (.device status) ↔ answer = .error (.device status) := by
  cases answer with
  | error why =>
    show Except.error why = _ ↔ _
    rw [Except.error.injEq, Except.error.injEq]
  | ok payload =>
    refine iff_of_false ?_ nofun
    unfold finish
    dsimp only
    obtain ⟨e | a, after⟩ := op.conclude c payload
    · exact nofun
    · exact nofun

/-- **An operation whose one command fits asks the token.** -/
theorem perform_of_fits (hop : op.Tidy)
    (hprepare : (op.prepare c).1 = (c.request x).bind fun q => .ok ⟨[], q⟩)
    (hfits : x.Fits c.capabilities.encoding) (halike : x.WrittenAlike c t)
    (hplug : t.pluggedIn = true) :
    c.perform Token.line op t
      = ((c.finish op (t.ask x).1).1, (c.finish op (t.ask x).1).2, (t.ask x).2) := by
  obtain ⟨q, hq⟩ := (Command.toRequest_isOk_iff x _).mpr (Command.forall_fits_iff.mpr hfits)
  have hrequest : c.request x = .ok q := by
    unfold request
    rw [hq]
    rfl
  have hprepared : (op.prepare c).1 = .ok ⟨[], q⟩ := by
    rw [hprepare, hrequest]
    rfl
  rw [perform_of_prepared hop hprepared, (Script.mk [] q).run_alike hplug ⟨rfl, hrequest⟩
    (List.forall_mem_singleton.mpr halike)]
  rfl

/-- If the token has an answer that can be read, the operation is done. -/
theorem perform_of_answered {payload : Payload} {a : α} {after : Client} (hop : op.Tidy)
    (hprepare : (op.prepare c).1 = (c.request x).bind fun q => .ok ⟨[], q⟩)
    (hfits : x.Fits c.capabilities.encoding) (halike : x.WrittenAlike c t)
    (hplug : t.pluggedIn = true) (hanswer : t.execute x.norm = (.ok payload, t'))
    (hconclude : op.conclude c payload = (.ok a, after)) :
    c.perform Token.line op t = (.ok a, { after with lastStatus := .ok }, t') := by
  have hask : t.ask x = (.ok payload, t') := by
    unfold Token.ask
    rw [hanswer]
    rfl
  rw [perform_of_fits hop hprepare hfits halike hplug, hask, finish_of_read hconclude]

end Client

/-! ## §2. Calls of one command. -/

namespace Call

variable {call : Call} {c c' : Client} {t t' : Token} {v : Value}

/-- A call that was done has found its token plugged in. -/
theorem plugged_of_done (h : call.perform Token.line c t = (.ok v, c', t')) :
    t.pluggedIn = true := by
  obtain ⟨script, payload, after, -, hrun, -⟩ := Client.of_perform_ok call.tidy h
  by_cases hplug : t.pluggedIn = true
  · exact hplug
  · rw [script.run_unplugged (Bool.eq_false_iff.mpr hplug)] at hrun
    cases hrun

/-- **A call of one command that the host does not refuse asks a plugged-in
token.** -/
theorem asked (hsingle : call.single = true) (hplug : t.pluggedIn = true)
    (hsent : ∀ why, (call.perform Token.line c t).1 ≠ .error (.library why)) :
    ∃ x, call.command? = some x
      ∧ (call.perform Token.line c t).1 = (c.finish call.operation (t.ask x).1).1 := by
  unfold perform at hsent ⊢
  cases hprepare : (call.operation.prepare c).1 with
  | error why =>
    obtain ⟨refusal, rfl⟩ := call.refuses_on_host c why hprepare
    rw [Client.perform_of_refused call.tidy hprepare] at hsent
    exact absurd rfl (hsent refusal)
  | ok script =>
    obtain ⟨cs, x, hscript, rfl, hx⟩ := asks_command hsingle c script hprepare
    refine ⟨x, hx, ?_⟩
    rw [Client.perform_of_prepared call.tidy hprepare,
      script.run_alike hplug hscript (alike_of_command? hx c t)]
    rfl

/-- **It fails with a status of the token exactly if the token has told it.** -/
theorem device_iff (hsingle : call.single = true) (hplug : t.pluggedIn = true)
    (hsent : ∀ why, (call.perform Token.line c t).1 ≠ .error (.library why)) :
    ∃ x, call.command? = some x ∧ ∀ status, status ≠ .ok →
      ((call.perform Token.line c t).1 = .error (.device status)
        ↔ (t.execute x.norm).1.status = status) := by
  obtain ⟨x, hx, hresult⟩ := asked hsingle hplug hsent
  refine ⟨x, hx, fun status hstatus => ?_⟩
  rw [hresult, Client.finish_device_iff]
  unfold Token.ask
  cases (t.execute x.norm).1 with
  | error told =>
    show Except.error (Error.device told) = _ ↔ told = status
    rw [Except.error.injEq, Error.device.injEq]
  | ok payload => exact iff_of_false nofun (Ne.symm hstatus)

end Call

end OtpToken
