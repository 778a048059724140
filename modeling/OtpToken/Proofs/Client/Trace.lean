/-
  OtpToken.Proofs.Client.Trace
  ────────────────────────────
  **EVERYTHING THAT GOES OVER A LINE.**

  Nothing is assumed of the line: whatever is at its other end may answer
  anything, or fail in any way.  A traced line writes down every report that is
  handed to it and what comes back (`Line.traced`), and is the line itself
  otherwise.

  What comes back for a request is judged in one of seven ways
  (`Request.judged`).  What every report preserves at the other end, every
  operation preserves (`Line.Keeps`).

  A script makes attempts at its requests in order, one at each, and ends at the
  first that fails (`Script.exists_attempts`).  So there are four ways in which
  an operation ends on any line, each with everything that went over it
  (`Client.Ended`, `Client.ended`).
-/
import OtpToken.Proofs.Client.Heard

namespace OtpToken

variable {σ α : Type}

/-! ## §1. Traced lines. -/

/-- What goes over a line once: a report, and what comes back for it. -/
structure Transfer where
  report : Report
  back : Except LineError Report

namespace Line

/-- The line, with everything that goes over it written down in order. -/
def traced (line : Line σ) : Line (σ × List Transfer) where
  send s r :=
    let (back, inner) := line.send s.1 r
    (back, inner, s.2 ++ [⟨r, back⟩])

/-- The reports alone are what a recorded line writes down. -/
theorem traced_shows_recorded (line : Line σ) :
    line.traced.Shows (fun s => (s.1, s.2.map Transfer.report)) line.recorded := by
  intro s r
  show ((line.send s.1 r).1, (line.send s.1 r).2, s.2.map Transfer.report ++ [r]) = _
  unfold traced
  simp

end Line

/-! ## §2. What comes back for a request. -/

/-- **The seven ways to judge what came back.**  Only the last one is a
success. -/
inductive Request.Judged (q : Request) (verify : Bool) :
    Except LineError Report → Except Error Payload → Prop
  /-- Nothing came back. -/
  | lost {why : LineError} : Judged q verify (.error why) (.error (.line why))
  /-- There is no response in the report. -/
  | unreadable {r : Report} {why : LineError} (hread : Response.ofReport r verify = .error why) :
      Judged q verify (.ok r) (.error (.line why))
  | busy {r : Report} {p : Response} (hread : Response.ofReport r verify = .ok p)
      (hstate : p.state = .busy) : Judged q verify (.ok r) (.error (.device .busy))
  /-- It is for another command. -/
  | misplaced {r : Report} {p : Response} (hread : Response.ofReport r verify = .ok p)
      (hstate : p.state ≠ .busy) (hcommand : p.command ≠ q.command) :
      Judged q verify (.ok r) (.error (.line (.commandMismatch q.command p.command)))
  /-- It is for another request of the command. -/
  | stale {r : Report} {p : Response} (hread : Response.ofReport r verify = .ok p)
      (hstate : p.state ≠ .busy) (hcommand : p.command = q.command) (hcrc : p.requestCrc ≠ q.crc) :
      Judged q verify (.ok r) (.error (.line (.staleResponse q.crc p.requestCrc)))
  /-- It tells a status other than `ok`. -/
  | refused {r : Report} {p : Response} (hread : Response.ofReport r verify = .ok p)
      (hstate : p.state ≠ .busy) (hcommand : p.command = q.command) (hcrc : p.requestCrc = q.crc)
      (hstatus : Status.ofByte p.status ≠ .ok) :
      Judged q verify (.ok r) (.error (.device (.ofByte p.status)))
  | accepted {r : Report} {p : Response} (hread : Response.ofReport r verify = .ok p)
      (hstate : p.state ≠ .busy) (hcommand : p.command = q.command) (hcrc : p.requestCrc = q.crc)
      (hstatus : Status.ofByte p.status = .ok) : Judged q verify (.ok r) (.ok p.payload)

namespace Request

/-- **What comes back is judged in one of the seven ways.** -/
theorem judged (q : Request) (verify : Bool) (back : Except LineError Report) :
    q.Judged verify back (q.judge verify back) := by
  cases back with
  | error why => exact .lost
  | ok r =>
    show q.Judged verify (.ok r) (q.accept verify r)
    unfold accept
    split
    · next why hread => exact .unreadable hread
    · next p hread =>
      by_cases hstate : p.state = .busy
      · rw [if_pos hstate]
        exact .busy hread hstate
      rw [if_neg hstate]
      by_cases hcommand : p.command ≠ q.command
      · rw [if_pos hcommand]
        exact .misplaced hread hstate hcommand
      rw [if_neg hcommand]
      by_cases hcrc : p.requestCrc ≠ q.crc
      · rw [if_pos hcrc]
        exact .stale hread hstate (Decidable.not_not.mp hcommand) hcrc
      rw [if_neg hcrc]
      by_cases hstatus : Status.ofByte p.status = .ok
      · rw [if_pos hstatus]
        exact .accepted hread hstate (Decidable.not_not.mp hcommand) (Decidable.not_not.mp hcrc)
          hstatus
      · rw [if_neg hstatus]
        exact .refused hread hstate (Decidable.not_not.mp hcommand) (Decidable.not_not.mp hcrc)
          hstatus

theorem Judged.of_judge {q : Request} {verify : Bool} {back : Except LineError Report}
    {answer : Except Error Payload} (h : q.judge verify back = answer) :
    q.Judged verify back answer := by
  rw [← h]
  exact q.judged verify back

end Request

/-! ## §3. What every report preserves. -/

/-- What each request of a script preserves, the script preserves. -/
theorem Script.run_keeps {line : Line σ} {I : σ → Prop} {s : σ} (script : Script)
    (h : ∀ q ∈ script.requests, ∀ s, I s → I (line.send s q.toReport).2) (hs : I s)
    (verify : Bool) : I (script.run line verify s).2 := by
  unfold requests at h
  unfold run
  generalize script.opening = qs at h
  induction qs generalizing s with
  | nil =>
    rw [run.go, Request.exchange_eq]
    exact h script.final List.mem_cons_self s hs
  | cons q qs ih =>
    have hnext : I (line.send s q.toReport).2 := h q List.mem_cons_self s hs
    rw [run.go, Request.exchange_eq]
    cases q.judge verify (line.send s q.toReport).1 with
    | error why => exact hnext
    | ok payload => exact ih hnext fun q' hq' => h q' (List.mem_cons_of_mem q hq')

/-- Whatever is handed over, `I` goes on to hold at the other end. -/
def Line.Keeps (line : Line σ) (I : σ → Prop) : Prop := ∀ s r, I s → I (line.send s r).2

namespace Line.Keeps

variable {line : Line σ} {I : σ → Prop} {s : σ}

/-- **What every report preserves, every operation preserves.** -/
theorem perform (h : line.Keeps I) (hs : I s) (c : Client) (op : Operation α) :
    I (c.perform line op s).2.2 := by
  rw [Client.perform_eq]
  obtain ⟨why | script, c'⟩ := op.prepare c
  · exact hs
  · exact script.run_keeps (fun q _ s hs => h s q.toReport hs) hs c'.options.verifyCrc

theorem connect (h : line.Keeps I) (hs : I s) (options : Options) :
    I (Client.connect line options s).2 := by
  have hafter := h.perform hs (Client.fresh options) .getStatus
  unfold Client.connect
  split
  · next hresult =>
    rw [hresult] at hafter
    exact hafter
  · next hresult =>
    rw [hresult] at hafter
    exact hafter

end Line.Keeps

/-! ## §4. Scripts. -/

/-- A request that was handed over, and what came back for it. -/
structure Attempt where
  request : Request
  back : Except LineError Report

namespace Attempt

/-- What went over the line. -/
def transfer (x : Attempt) : Transfer := ⟨x.request.toReport, x.back⟩

/-- What the attempt came to. -/
def outcome (x : Attempt) (verify : Bool) : Except Error Payload := x.request.judge verify x.back

/-- What came back was accepted. -/
def Accepted (x : Attempt) (verify : Bool) : Prop := ∃ payload, x.outcome verify = .ok payload

end Attempt

/-- The attempts at the requests of a script: `done` were accepted, and it ended
with `last`. -/
structure Script.EndsAt (script : Script) (verify : Bool) (done : List Attempt) (last : Attempt) :
    Prop where
  /-- One attempt at each request, in their order. -/
  inOrder : (done ++ [last]).map Attempt.request <+: script.requests
  accepted : ∀ x ∈ done, x.Accepted verify
  /-- It ends before the last request only if an attempt is not accepted. -/
  whole : last.Accepted verify → (done ++ [last]).map Attempt.request = script.requests

/-- **A script makes its requests in order, one attempt at each, up to the first
that fails**, and its outcome is that of the last attempt. -/
theorem Script.exists_attempts (script : Script) (line : Line σ) (verify : Bool) (s : σ)
    (before : List Transfer) :
    ∃ done last s', script.EndsAt verify done last
      ∧ script.run line.traced verify (s, before)
        = (last.outcome verify, s', before ++ (done ++ [last]).map Attempt.transfer) := by
  suffices h : ∀ opening s before, ∃ done last s',
      (done ++ [last]).map Attempt.request <+: opening ++ [script.final]
        ∧ (∀ x ∈ done, x.Accepted verify)
        ∧ (last.Accepted verify →
            (done ++ [last]).map Attempt.request = opening ++ [script.final])
        ∧ run.go script line.traced verify opening (s, before)
          = (last.outcome verify, s', before ++ (done ++ [last]).map Attempt.transfer) by
    obtain ⟨done, last, s', hfront, haccepted, hwhole, hrun⟩ := h script.opening s before
    exact ⟨done, last, s', ⟨hfront, haccepted, hwhole⟩, hrun⟩
  intro opening
  -- along the requests before the last one, with everything that went over the line so far
  induction opening with
  | nil =>
    intro s before
    refine ⟨[], ⟨script.final, (line.send s script.final.toReport).1⟩,
      (line.send s script.final.toReport).2, List.prefix_refl [script.final], ?_, ?_, ?_⟩
    · intro x hx
      cases hx
    · intro hlast
      rfl
    show script.final.exchange line.traced verify (s, before) = _
    rw [Request.exchange_eq]
    rfl
  | cons q opening ih =>
    intro s before
    let x : Attempt := ⟨q, (line.send s q.toReport).1⟩
    have hexchange : q.exchange line.traced verify (s, before)
        = (x.outcome verify, (line.send s q.toReport).2, before ++ [x.transfer]) :=
      q.exchange_eq line.traced verify (s, before)
    unfold run.go
    rw [hexchange]
    cases houtcome : x.outcome verify with
    | error why =>
      refine ⟨[], x, (line.send s q.toReport).2, ?_, ?_, ?_, ?_⟩
      · exact ⟨opening ++ [script.final], rfl⟩
      · intro y hy
        cases hy
      · rintro ⟨payload, haccepted⟩
        cases haccepted.symm.trans houtcome
      · rw [houtcome]
        rfl
    | ok payload =>
      obtain ⟨done, last, s', hfront, haccepted, hwhole, hrun⟩ :=
        ih (line.send s q.toReport).2 (before ++ [x.transfer])
      refine ⟨x :: done, last, s', ?_, ?_, ?_, ?_⟩
      · exact (List.prefix_cons_inj q).mpr hfront
      · exact List.forall_mem_cons.mpr ⟨⟨payload, houtcome⟩, haccepted⟩
      · intro hlast
        exact congrArg (q :: ·) (hwhole hlast)
      · show run.go script line.traced verify opening _ = _
        rw [hrun]
        simp

/-! ## §5. Operations. -/

namespace Client

/-- **The ways in which an operation ends on any line**: everything that went
over the line, then its value and the host afterwards. -/
inductive Ended (c : Client) (op : Operation α) : List Transfer → Except Error α × Client → Prop
  /-- Refused on the host: the line is not touched. -/
  | refused {why : Error} (hprepare : (op.prepare c).1 = .error why) :
      Ended c op [] (.error why, { c with lastStatus := why.status })
  /-- An attempt failed. -/
  | failed {script : Script} {done : List Attempt} {last : Attempt} {why : Error}
      (hprepare : (op.prepare c).1 = .ok script)
      (hends : script.EndsAt c.options.verifyCrc done last)
      (hlast : last.outcome c.options.verifyCrc = .error why) :
      Ended c op ((done ++ [last]).map Attempt.transfer)
        (.error why, { c with lastStatus := why.status })
  /-- Every attempt was accepted, and the last payload could not be read. -/
  | unread {script : Script} {done : List Attempt} {last : Attempt} {payload : Payload}
      {e : DecodeError} (hprepare : (op.prepare c).1 = .ok script)
      (hends : script.EndsAt c.options.verifyCrc done last)
      (hlast : last.outcome c.options.verifyCrc = .ok payload)
      (hconclude : op.conclude c payload = (.error e, c)) :
      Ended c op ((done ++ [last]).map Attempt.transfer)
        (.error (.ofDecode e), { c with lastStatus := (Error.ofDecode e).status })
  /-- Every attempt was accepted, and the last payload was read. -/
  | done {script : Script} {done : List Attempt} {last : Attempt} {payload : Payload} {a : α}
      {after : Client} (hprepare : (op.prepare c).1 = .ok script)
      (hends : script.EndsAt c.options.verifyCrc done last)
      (hlast : last.outcome c.options.verifyCrc = .ok payload)
      (hconclude : op.conclude c payload = (.ok a, after)) :
      Ended c op ((done ++ [last]).map Attempt.transfer) (.ok a, { after with lastStatus := .ok })

/-- **A tidy operation ends in one of these ways**, whatever is at the other end
of the line. -/
theorem ended {op : Operation α} (hop : op.Tidy) (c : Client) (line : Line σ) (s : σ) :
    c.Ended op (c.perform line.traced op (s, [])).2.2.2
      ((c.perform line.traced op (s, [])).1, (c.perform line.traced op (s, [])).2.1) := by
  cases hprepare : (op.prepare c).1 with
  | error why =>
    rw [perform_of_refused hop hprepare]
    exact .refused hprepare
  | ok script =>
    obtain ⟨done, last, s', hends, hrun⟩ :=
      script.exists_attempts line c.options.verifyCrc s []
    rw [perform_of_prepared hop hprepare, hrun, List.nil_append]
    cases hlast : last.outcome c.options.verifyCrc with
    | error why => exact .failed hprepare hends hlast
    | ok payload =>
      rcases (hop.conclude c payload).ends with ⟨e, hconclude⟩ | ⟨a, after, hconclude⟩
      · rw [finish_of_unread hconclude]
        exact .unread hprepare hends hlast hconclude
      · rw [finish_of_read hconclude]
        exact .done hprepare hends hlast hconclude

end Client

end OtpToken
