/-
  OtpToken.Proofs.Client.Noise
  ────────────────────────────
  **A LINE THAT CHANGES REPORTS ON THEIR WAY.**

  Before each report it is settled what becomes of it on its way there, and of
  the answer on its way back (`Noise`).  Nothing is assumed of the changes: they
  may even give a report a new checksum.  What is said is said of the reports that
  were damaged (`Journey.Damaged`).

  A damaged request is not read by the token, which stays as it is, whatever state
  it is in; a damaged response is not read by a host that looks at checksums.  So
  what comes back is accepted in neither case (`Noisy.refused_of_damaged`), and an
  operation that is done was done without any damage.
-/
import OtpToken.Proofs.Client.Trace
import OtpToken.Proofs.Damage

namespace OtpToken

variable {σ α : Type}

/-! ## §1. Noisy lines. -/

/-- What becomes of one report on its way there, and of its answer on its way
back. -/
structure Noise where
  there : Report → Report
  back : Report → Report

/-- A way without noise. -/
def Noise.silence : Noise := ⟨id, id⟩

/-- A report as it was sent and as it arrived, and the answer as it was given and
as it came back. -/
structure Journey where
  sent : Report
  arrived : Report
  answer : Except LineError Report
  back : Except LineError Report

/-- The other end, the noise to come, and all that went over the line, the last
one first. -/
structure Noisy (σ : Type) where
  inner : σ
  noise : List Noise
  past : List Journey

/-- Nothing went over the line yet. -/
def Noisy.start (inner : σ) (noise : List Noise) : Noisy σ := ⟨inner, noise, []⟩

/-- The next journey. -/
def Noisy.journey (s : Noisy σ) (line : Line σ) (r : Report) : Journey :=
  let noise := s.noise.headD .silence
  let answer := (line.send s.inner (noise.there r)).1
  ⟨r, noise.there r, answer, answer.map noise.back⟩

/-- Without noise on the way back, an answer comes back as it was given. -/
theorem Noisy.back_eq_answer {s : Noisy σ} {noise : Noise} {rest : List Noise}
    (hnoise : s.noise = noise :: rest) (hback : noise.back = id) (line : Line σ) (r : Report) :
    (s.journey line r).back = (s.journey line r).answer := by
  unfold journey
  rw [hnoise]
  show Except.map noise.back _ = _
  rw [hback, Except.map_id]
  rfl

/-- The line, with noise on it. -/
def Line.noisy (line : Line σ) : Line (Noisy σ) where
  send s r :=
    let x := s.journey line r
    (x.back, ⟨(line.send s.inner x.arrived).2, s.noise.tail, x :: s.past⟩)

/-- **Damage on one journey**: to the report, with nothing more than another id on
the answer, or to the answer. -/
inductive Journey.Damaged (x : Journey) : Prop
  | there (hthere : x.sent.Damaged x.arrived)
      (hback : ∀ r, x.back = .ok r → ∃ answer, x.answer = .ok answer ∧ answer.SameFrame r) :
      Damaged x
  | back {answer r : Report} (hanswer : x.answer = .ok answer) (hr : x.back = .ok r)
      (hback : answer.Damaged r) : Damaged x

/-! ## §2. Damage to one request or one response. -/

/-- Whatever a token answers is the report of a response. -/
theorem Token.exists_response {t : Token} {r answer : Report} (h : (t.send r).1 = .ok answer) :
    ∃ p : Response, answer = p.toReport := by
  unfold send at h
  split at h
  · cases h
  · split at h
    · cases h
      exact ⟨_, rfl⟩
    · cases h
      exact ⟨_, rfl⟩

/-- **A damaged request leaves every token as it is**, and a token that answers at
all says that the checksum was wrong. -/
theorem Token.send_of_damaged {q : Request} {r : Report} (h : q.toReport.Damaged r) (t : Token) :
    t.send r = (if t.pluggedIn then .ok (respondWrongCrc r).toReport else .error .disconnected, t) := by
  cases hplug : t.pluggedIn with
  | false => exact Token.send_of_unplugged hplug r
  | true =>
    rw [Token.send_of_plugged hplug, Request.ofReport_of_damaged h]
    rfl

/-- That answer is never accepted. -/
theorem Request.accept_wrongCrc (q : Request) (r : Report) {back : Report} {verify : Bool}
    (h : (Token.respondWrongCrc r).toReport.SameFrame back) :
    ∃ why, q.accept verify back = .error why := by
  cases hanswer : q.accept verify back with
  | error why => exact ⟨why, rfl⟩
  | ok payload =>
    have hjudge : q.judge verify (.ok back) = .ok payload := hanswer
    cases Judged.of_judge hjudge with
    | accepted hread hstate hcommand hcrc hstatus =>
      rw [Response.ofReport_of_sameFrame h, Response.ofReport_toReport] at hread
      cases hread
      cases hstatus

/-- **What comes back of a damaged journey is not accepted.** -/
theorem Noisy.refused_of_damaged {s : Noisy Token} {q : Request}
    (h : (s.journey Token.line q.toReport).Damaged) :
    ∃ why, q.judge true (s.journey Token.line q.toReport).back = .error why := by
  cases h with
  | there hthere hback =>
    cases hreply : (s.journey Token.line q.toReport).back with
    | error why => exact ⟨_, rfl⟩
    | ok reply =>
      obtain ⟨answer, hanswer, hframe⟩ := hback reply hreply
      have hsend : (s.inner.send (s.journey Token.line q.toReport).arrived).1 = .ok answer :=
        hanswer
      rw [Token.send_of_damaged hthere] at hsend
      split at hsend
      · cases hsend
        exact q.accept_wrongCrc _ hframe
      · cases hsend
  | @back answer reply hanswer hreply hback =>
    obtain ⟨p, rfl⟩ := Token.exists_response hanswer
    rw [hreply]
    show ∃ why, q.accept true reply = .error why
    unfold Request.accept
    rw [Response.ofReport_of_damaged hback]
    exact ⟨_, rfl⟩

/-! ## §3. Damage under an operation. -/

/-- What every accepted request preserves at the other end, a script that is done
preserves. -/
theorem Script.run_ok_keeps {line : Line σ} {I : σ → Prop} {verify : Bool} {s s' : σ}
    {payload : Payload} (script : Script)
    (hstep : ∀ (q : Request) s told, q.judge verify (line.send s q.toReport).1 = .ok told →
      I s → I (line.send s q.toReport).2)
    (hs : I s) (h : script.run line verify s = (.ok payload, s')) : I s' := by
  unfold run at h
  generalize script.opening = qs at h
  induction qs generalizing s with
  | nil =>
    rw [run.go, Request.exchange_eq] at h
    obtain ⟨hjudge, rfl⟩ := Prod.mk.inj h
    exact hstep script.final s payload hjudge hs
  | cons q qs ih =>
    rw [run.go, Request.exchange_eq] at h
    cases hjudge : q.judge verify (line.send s q.toReport).1 with
    | error why =>
      rw [hjudge] at h
      cases h
    | ok told =>
      rw [hjudge] at h
      exact ih (hstep q s told hjudge hs) h

/-- Nothing was damaged so far. -/
def Noisy.Intact (s : Noisy σ) : Prop := ∀ x ∈ s.past, ¬ x.Damaged

theorem Noisy.intact_start (inner : σ) (noise : List Noise) : (start inner noise).Intact := nofun

/-- **A tidy operation that is done was done without damage**, if the host looks
at checksums. -/
theorem Client.intact_of_done {c after : Client} {op : Operation α} {s s' : Noisy Token} {a : α}
    (hop : op.Tidy) (hverify : c.options.verifyCrc = true) (hs : s.Intact)
    (h : c.perform Token.line.noisy op s = (.ok a, after, s')) : s'.Intact := by
  obtain ⟨script, payload, after', -, hrun, -⟩ := of_perform_ok hop h
  rw [hverify] at hrun
  refine script.run_ok_keeps (fun q s told hjudge hs => ?_) hs hrun
  refine List.forall_mem_cons.mpr ⟨fun hdamaged => ?_, hs⟩
  obtain ⟨why, hwhy⟩ := Noisy.refused_of_damaged hdamaged
  cases hwhy.symm.trans hjudge

/-- A host that has connected has done so without damage. -/
theorem Client.intact_of_connect {options : Options} {s s' : Noisy Token} {c : Client}
    (hverify : options.verifyCrc = true) (hs : s.Intact)
    (h : Client.connect Token.line.noisy options s = (.ok c, s')) : s'.Intact := by
  cases hr : (Client.fresh options).perform Token.line.noisy .getStatus s with
  | mk result rest =>
    obtain ⟨after, s''⟩ := rest
    unfold connect at h
    rw [hr] at h
    cases result with
    | error why => cases h
    | ok status =>
      cases h
      exact intact_of_done Operation.tidy_getStatus hverify hs hr

/-- **Damaged reports are caught.**

* No request is read in a damaged one, and no token is changed by it.
* No response is read in a damaged one, where the checksum is looked at.
* A call or a connection of a host that looks at checksums is never done if one of
  its requests or one of the responses to them was damaged, whatever the token and
  whatever else happens on the line.
* The id alone changes nothing of what is read. -/
theorem Report.damage_is_caught :
    (∀ (q : Request) (r : Report), q.toReport.Damaged r →
        (∃ why, Request.ofReport r = .error why) ∧ ∀ t : Token, (t.send r).2 = t)
      ∧ (∀ (p : Response) (r : Report), p.toReport.Damaged r →
          Response.ofReport r true = .error (.crcMismatch r.computedCrc r.storedCrc))
      ∧ (∀ (call : Call) (c : Client) (t : Token) (noise : List Noise), c.options.verifyCrc = true →
          let after := call.perform Token.line.noisy c (.start t noise)
          (∃ x ∈ after.2.2.past, x.Damaged) → ∃ why, after.1 = .error why)
      ∧ (∀ (options : Options) (t : Token) (noise : List Noise), options.verifyCrc = true →
          let after := Client.connect Token.line.noisy options (.start t noise)
          (∃ x ∈ after.2.past, x.Damaged) → ∃ why, after.1 = .error why)
      ∧ ∀ r r' : Report, r.SameFrame r' → Request.ofReport r' = Request.ofReport r
          ∧ ∀ verify, Response.ofReport r' verify = Response.ofReport r verify := by
  refine ⟨fun q r h => ⟨⟨_, Request.ofReport_of_damaged h⟩, fun t => ?_⟩,
    fun p r h => Response.ofReport_of_damaged h, fun call c t noise hverify => ?_,
    fun options t noise hverify => ?_, fun r r' h => ⟨Request.ofReport_of_sameFrame h,
      Response.ofReport_of_sameFrame h⟩⟩
  · rw [Token.send_of_damaged h]
  · rintro after ⟨x, hx, hdamaged⟩
    cases hresult : after.1 with
    | error why => exact ⟨why, rfl⟩
    | ok v =>
      have hdone : c.perform Token.line.noisy call.operation (.start t noise)
          = (.ok v, after.2.1, after.2.2) := Prod.ext hresult rfl
      exact absurd hdamaged
        (Client.intact_of_done call.tidy hverify (Noisy.intact_start t noise) hdone x hx)
  · rintro after ⟨x, hx, hdamaged⟩
    cases hresult : after.1 with
    | error why => exact ⟨why, rfl⟩
    | ok c =>
      have hdone : Client.connect Token.line.noisy options (.start t noise) = (.ok c, after.2) :=
        Prod.ext hresult rfl
      exact absurd hdamaged (Client.intact_of_connect hverify (Noisy.intact_start t noise) hdone x hx)

/-- A request for the attempts of the admin. -/
def Request.retries : Request := ⟨CommandId.getAdminRetryCount.toByte, .zero 59⟩

/-- A byte of its payload is changed on its way, and nothing on the way back. -/
def Noise.onRetries : Noise := ⟨fun r => r.update 9 1, id⟩

set_option maxRecDepth 20000 in
/-- A request for the attempts of the admin, with one byte changed: it is not
read, no token is changed by it, and the call fails. -/
theorem Report.damage_is_caught_retries :
    Request.retries.toReport.Damaged (Noise.onRetries.there Request.retries.toReport)
      ∧ (∃ why, Request.ofReport (Noise.onRetries.there Request.retries.toReport) = .error why)
      ∧ (∀ t : Token, (t.send (Noise.onRetries.there Request.retries.toReport)).2 = t)
      ∧ ∃ why, (Call.adminRetryCount.perform Token.line.noisy (Client.fresh default)
          (.start (.fresh .factory) [Noise.onRetries])).1 = .error why := by
  have hdamaged : Request.retries.toReport.Damaged
      (Noise.onRetries.there Request.retries.toReport) :=
    damaged_update (by decide) (by decide) (by decide +kernel)
  obtain ⟨hrequest, -, hcall, -, -⟩ := damage_is_caught
  obtain ⟨hread, htoken⟩ := hrequest _ _ hdamaged
  refine ⟨hdamaged, hread, htoken, hcall _ _ _ _ rfl ?_⟩
  have hprepare : (Call.adminRetryCount.operation.prepare (Client.fresh default)).1
      = .ok ⟨[], Request.retries⟩ := rfl
  unfold Call.perform
  rw [Client.perform_of_prepared (Call.tidy _) hprepare]
  -- its one journey
  exact ⟨_, List.mem_cons_self, .there hdamaged fun r hr =>
    ⟨r, (Noisy.back_eq_answer rfl rfl _ _).symm.trans hr, .refl r⟩⟩

end OtpToken
