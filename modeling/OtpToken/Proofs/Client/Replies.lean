/-
  OtpToken.Proofs.Client.Replies
  ──────────────────────────────
  **WHAT A HOST TAKES FROM THE REPLIES.**

  Nothing is assumed of the line.  The status that a call leaves behind comes
  from one of six places (`Status.From`, `Call.status_from`), and one of them is
  the status byte of the last reply, whatever it is.  One table reads that byte,
  and the numbers of the host and of the channel are in it.  So a status that
  speaks of the host or of the channel comes from there or from a reply that
  says so (`Call.status_provenance`).

  Of the four states that a reply can tell, a host looks for one: `busy` fails
  the call (`Call.states_of_success`), and no other state is told from `ok`
  (`Call.perform_settled`).
-/
import OtpToken.Line.Fault
import OtpToken.Proofs.Client.Handover
import OtpToken.Token.Send

namespace OtpToken

variable {σ α : Type}

/-! ## §1. Status bytes. -/

namespace Status

/-- The bytes that are read as a refusal on the host. -/
theorem isLibraryError_ofByte {b : UInt8} (h : (ofByte b).isLibraryError = true) :
    200 ≤ b.toNat ∧ b.toNat ≤ 203 := by
  unfold ofByte at h
  -- any other byte is read as something else
  split at h <;> first | omega | cases h

/-- One byte is read as a success. -/
theorem eq_of_ofByte_ok {b : UInt8} (h : ofByte b = .ok) : b = 0 := by
  apply UInt8.toNat_inj.mp
  unfold ofByte at h
  split at h <;> first | assumption | cases h

/-- One byte is read as a failure of the channel. -/
theorem eq_of_ofByte_disconnected {b : UInt8} (h : ofByte b = .disconnected) : b = 255 := by
  apply UInt8.toNat_inj.mp
  unfold ofByte at h
  split at h <;> first | assumption | cases h

end Status

/-- The failures of the channel itself. -/
theorem LineError.of_status_disconnected {why : LineError} (h : why.status = .disconnected) :
    why = .disconnected ∨ (∃ limit, why = .timeout limit) ∨ ∃ what, why = .io what := by
  cases why with
  | disconnected => exact .inl rfl
  | timeout limit => exact .inr (.inl ⟨limit, rfl⟩)
  | io what => exact .inr (.inr ⟨what, rfl⟩)
  | _ => cases h

theorem LineError.status_not_library (why : LineError) : why.status.isLibraryError = false := by
  cases why <;> rfl

theorem LibraryError.status_ne_disconnected (why : LibraryError) : why.status ≠ .disconnected := by
  cases why <;> exact Status.noConfusion

/-! ## §2. Where a status comes from. -/

/-- **The places that the status of a call comes from**, after everything that
went over the line. -/
inductive Status.From : List Transfer → Status → Prop
  /-- The call was done. -/
  | done (transfers : List Transfer) : From transfers .ok
  /-- The host refused by itself. -/
  | host (why : LibraryError) : From [] why.status
  /-- Nothing came back for the last report. -/
  | channel (before : List Transfer) (r : Report) (why : LineError) :
      From (before ++ [⟨r, .error why⟩]) why.status
  /-- The last reply is no answer to the last report, or cannot be read. -/
  | unusable (before : List Transfer) (r reply : Report) :
      From (before ++ [⟨r, .ok reply⟩]) .unknown
  /-- The state byte of the last reply. -/
  | busy (before : List Transfer) (r : Report) {reply : Report} (hstate : reply.byte 1 = 1) :
      From (before ++ [⟨r, .ok reply⟩]) .busy
  /-- The status byte of the last reply. -/
  | told (before : List Transfer) (r : Report) {reply : Report}
      (hstatus : Status.ofByte (reply.byte 7) ≠ .ok) :
      From (before ++ [⟨r, .ok reply⟩]) (Status.ofByte (reply.byte 7))

/-- **What comes back for a request and is not accepted says why.** -/
theorem Request.Judged.status_from {q : Request} {verify : Bool} {back : Except LineError Report}
    {why : Error} (h : q.Judged verify back (.error why)) (before : List Transfer) (r : Report) :
    Status.From (before ++ [⟨r, back⟩]) why.status := by
  cases h with
  | lost => exact .channel before r _
  | unreadable hread =>
    show Status.From _ (LineError.status _)
    rw [Response.status_of_unreadable hread]
    exact .unusable before r _
  | busy hread hstate =>
    refine .busy before r ?_
    rw [← (Response.of_ofReport hread).1, hstate]
    rfl
  | misplaced => exact .unusable before r _
  | stale => exact .unusable before r _
  | refused hread hstate hcommand hcrc hstatus =>
    obtain ⟨-, -, hbyte⟩ := Response.of_ofReport hread
    rw [hbyte] at hstatus ⊢
    exact .told before r hstatus

/-- However an operation ends, its status comes from one of these places. -/
theorem Client.Ended.status_from {c after : Client} {op : Operation α} {transfers : List Transfer}
    {result : Except Error α} (h : c.Ended op transfers (result, after)) (hop : op.RefusesOnHost) :
    Status.From transfers after.lastStatus := by
  cases h with
  | refused hprepare =>
    obtain ⟨refusal, rfl⟩ := hop c _ hprepare
    exact .host refusal
  | @failed script done last why hprepare hends hlast =>
    rw [List.map_append]
    exact (Request.Judged.of_judge hlast).status_from _ last.request.toReport
  | @unread script done last payload e hprepare hends hlast hconclude =>
    rw [List.map_append]
    obtain ⟨q, back⟩ := last
    cases back with
    | error why => cases hlast
    | ok reply => exact .unusable _ _ reply
  | done => exact .done _

/-- **The status of every call comes from one of these places**, whatever is at
the other end of the line. -/
theorem Call.status_from (call : Call) (line : Line σ) (c : Client) (s : σ) :
    Status.From (call.perform line.traced c (s, [])).2.2.2
      (call.perform line.traced c (s, [])).2.1.lastStatus :=
  (Client.ended call.tidy c line s).status_from call.refuses_on_host

/-- **What stands behind a status of the host or of the channel.**

* If a status is kept that is raised on the host, then nothing went over the
  line, or the last reply has its number as status byte: 200 to 203.
* If `disconnected` is kept, then the channel failed under the last report, or
  the last reply has the status byte 255. -/
theorem Call.status_provenance (call : Call) (line : Line σ) (c : Client) (s : σ) :
    let transfers := (call.perform line.traced c (s, [])).2.2.2
    let status := (call.perform line.traced c (s, [])).2.1.lastStatus
    (status.isLibraryError = true →
        transfers = []
          ∨ ∃ before r reply, transfers = before ++ [⟨r, .ok reply⟩]
              ∧ status = Status.ofByte (reply.byte 7)
              ∧ 200 ≤ (reply.byte 7).toNat ∧ (reply.byte 7).toNat ≤ 203)
      ∧ (status = .disconnected →
          ∃ before r back, transfers = before ++ [⟨r, back⟩]
            ∧ (back = .error .disconnected ∨ (∃ limit, back = .error (.timeout limit))
                ∨ (∃ what, back = .error (.io what))
                ∨ ∃ reply, back = .ok reply ∧ reply.byte 7 = 255)) := by
  intro transfers status
  have hfrom : Status.From transfers status := call.status_from line c s
  generalize transfers = transfers, status = status at hfrom
  cases hfrom with
  | done => exact ⟨nofun, nofun⟩
  | host why => exact ⟨fun _ => .inl rfl, fun h => absurd h why.status_ne_disconnected⟩
  | channel before r why =>
    refine ⟨fun h => ?_, fun h => ⟨before, r, _, rfl, ?_⟩⟩
    · rw [why.status_not_library] at h
      cases h
    · rcases LineError.of_status_disconnected h with rfl | ⟨limit, rfl⟩ | ⟨what, rfl⟩
      · exact .inl rfl
      · exact .inr (.inl ⟨limit, rfl⟩)
      · exact .inr (.inr (.inl ⟨what, rfl⟩))
  | unusable => exact ⟨nofun, nofun⟩
  | busy => exact ⟨nofun, nofun⟩
  | @told before r reply hstatus =>
    refine ⟨fun h => .inr ⟨before, r, reply, rfl, rfl, Status.isLibraryError_ofByte h⟩, fun h => ?_⟩
    exact ⟨before, r, .ok reply, rfl, .inr (.inr (.inr ⟨reply, rfl,
      Status.eq_of_ofByte_disconnected h⟩))⟩

/-- The attempts of the admin are asked for on a fresh token, and the answer is
edited on its way. -/
def Call.askedUnder (edit : ResponseEdit) :
    Except Error Value × Client × (Token × List (Option Fault)) × List Transfer :=
  Call.adminRetryCount.perform Token.line.faulty.traced (Client.fresh default)
    ((.fresh .factory, [some (.editResponse edit)]), [])

/-- Another status byte. -/
def ResponseEdit.tellStatus (b : UInt8) : ResponseEdit := ⟨none, none, none, some b, none⟩

set_option maxRecDepth 20000 in
/-- It is not true that a status that is raised on the host says that nothing was
sent, nor that `disconnected` says that the channel failed: the token can tell
both numbers. -/
theorem Call.not_status_separated :
    (¬ ∀ (call : Call) (c : Client) (t : Token) (faults : List (Option Fault)),
        let after := call.perform Token.line.faulty.traced c ((t, faults), [])
        after.2.1.lastStatus.isLibraryError = true → after.2.2.2 = [])
      ∧ ¬ ∀ (call : Call) (c : Client) (t : Token) (faults : List (Option Fault)),
        let after := call.perform Token.line.faulty.traced c ((t, faults), [])
        after.2.1.lastStatus = .disconnected → ∃ x ∈ after.2.2.2, ∃ why, x.back = .error why := by
  refine ⟨fun h => ?_, fun h => ?_⟩
  · have hlibrary : (askedUnder (.tellStatus 200)).2.1.lastStatus.isLibraryError = true := by
      decide +kernel
    have hsent : (askedUnder (.tellStatus 200)).2.2.2.isEmpty = false := by decide +kernel
    unfold askedUnder at hlibrary hsent
    rw [h _ _ _ _ hlibrary] at hsent
    cases hsent
  · have hstatus : (askedUnder (.tellStatus 255)).2.1.lastStatus = .disconnected := by
      decide +kernel
    -- its one report was answered
    have hanswered : (askedUnder (.tellStatus 255)).2.2.2.all (fun x => x.back.isOk) = true := by
      decide +kernel
    unfold askedUnder at hstatus hanswered
    obtain ⟨x, hx, why, hwhy⟩ := h _ _ _ _ hstatus
    have hok := List.all_eq_true.mp hanswered x hx
    rw [hwhy] at hok
    cases hok

/-! ## §3. Which states count as success. -/

/-- What is accepted is told in one of three states and with status byte
zero. -/
theorem Request.Judged.of_accepted {q : Request} {verify : Bool} {back : Except LineError Report}
    {payload : Payload} (h : q.Judged verify back (.ok payload)) :
    ∃ reply, back = .ok reply
      ∧ (reply.byte 1 = 0 ∨ reply.byte 1 = 2 ∨ reply.byte 1 = 3) ∧ reply.byte 7 = 0 := by
  cases h with
  | @accepted reply p hread hstate hcommand hcrc hstatus =>
    obtain ⟨hbyte, -, htold⟩ := Response.of_ofReport hread
    refine ⟨reply, rfl, ?_, ?_⟩
    · rw [← hbyte]
      cases hp : p.state with
      | ok => exact .inl rfl
      | busy => exact absurd hp hstate
      | error => exact .inr (.inl rfl)
      | receivedReport => exact .inr (.inr rfl)
    · rw [← htold]
      exact Status.eq_of_ofByte_ok hstatus

theorem Attempt.Accepted.reply {x : Attempt} {verify : Bool} (h : x.Accepted verify) :
    ∃ reply, x.transfer.back = .ok reply
      ∧ (reply.byte 1 = 0 ∨ reply.byte 1 = 2 ∨ reply.byte 1 = 3) ∧ reply.byte 7 = 0 := by
  obtain ⟨payload, hx⟩ := h
  exact (Request.Judged.of_judge hx).of_accepted

/-- Whatever else is in it, a reply that can be read and says `busy` is a
failure. -/
theorem Request.judge_of_busy (q : Request) {verify : Bool} {reply : Report}
    (hseal : verify = true → reply.storedCrc = reply.computedCrc) (hbusy : reply.byte 1 = 1) :
    q.judge verify (.ok reply) = .error (.device .busy) := by
  have hsound : ¬ (verify ∧ reply.storedCrc ≠ reply.computedCrc) := fun h => h.2 (hseal h.1)
  show q.accept verify reply = _
  unfold accept Response.ofReport
  rw [if_neg hsound, hbusy]
  rfl

/-- **The states of the replies**, whatever is at the other end of the line.

* If a call is done, then every report of it was answered, in one of the states
  0, 2 and 3 and with status byte zero.
* If a reply that can be read says `busy`, then the call fails with that. -/
theorem Call.states_of_success (call : Call) (line : Line σ) (c : Client) (s : σ) :
    let result := (call.perform line.traced c (s, [])).1
    let transfers := (call.perform line.traced c (s, [])).2.2.2
    (∀ v, result = .ok v → ∀ x ∈ transfers, ∃ reply, x.back = .ok reply
        ∧ (reply.byte 1 = 0 ∨ reply.byte 1 = 2 ∨ reply.byte 1 = 3) ∧ reply.byte 7 = 0)
      ∧ ∀ x ∈ transfers, ∀ reply, x.back = .ok reply → reply.byte 1 = 1 →
          (c.options.verifyCrc = true → reply.storedCrc = reply.computedCrc) →
          result = .error (.device .busy) := by
  intro result transfers
  have hended : c.Ended call.operation transfers
      (result, (call.perform line.traced c (s, [])).2.1) := Client.ended call.tidy c line s
  rcases hended.handedOver call.refuses_on_host with
    ⟨hnone, why, hwhy⟩ | ⟨script, done, last, -, htransfers, hends, hok, herror⟩
  · rw [hnone, hwhy]
    exact ⟨nofun, nofun⟩
  rw [htransfers]
  refine ⟨fun v hv x hx => ?_, fun x hx reply hback hbusy hseal => ?_⟩
  · obtain ⟨y, hy, rfl⟩ := List.mem_map.mp hx
    apply Attempt.Accepted.reply
    rcases List.mem_append.mp hy with hy | hy
    · exact hends.accepted y hy
    · cases List.mem_singleton.mp hy
      exact hok v hv
  · obtain ⟨y, hy, rfl⟩ := List.mem_map.mp hx
    have houtcome : y.outcome c.options.verifyCrc = .error (.device .busy) := by
      show y.request.judge _ y.back = _
      rw [show y.back = _ from hback]
      exact y.request.judge_of_busy hseal hbusy
    -- so it is the last one, and the call fails there
    have hrefused : ¬ y.Accepted c.options.verifyCrc := by
      rintro ⟨payload, haccepted⟩
      cases haccepted.symm.trans houtcome
    rcases List.mem_append.mp hy with hy | hy
    · exact absurd (hends.accepted y hy) hrefused
    cases List.mem_singleton.mp hy
    cases hresult : result with
    | ok v => exact absurd (hok v hresult) hrefused
    | error why =>
      rcases herror why hresult with hwhy | ⟨payload, e, hpayload, -⟩
      · cases houtcome.symm.trans hwhy
        rfl
      · cases houtcome.symm.trans hpayload

/-- Another state byte, and an empty payload. -/
def ResponseEdit.tellState (b : UInt8) : ResponseEdit := ⟨some b, none, none, none, some .empty⟩

set_option maxRecDepth 20000 in
/-- It is not true that a call is done only with replies in state `ok`: a reply
that says that the request is not answered yet is taken as well, and its empty
payload read as a value. -/
theorem Call.not_only_ok_succeeds :
    ¬ ∀ (call : Call) (c : Client) (t : Token) (faults : List (Option Fault)),
        let after := call.perform Token.line.faulty.traced c ((t, faults), [])
        ∀ v, after.1 = .ok v → ∀ x ∈ after.2.2.2, ∀ reply, x.back = .ok reply →
          reply.byte 1 = 0 := by
  intro h
  have hdone : (askedUnder (.tellState 3)).1.isOk = true := by decide +kernel
  have hstates : (askedUnder (.tellState 3)).2.2.2.map
      (fun x => x.back.toOption.map fun reply => reply.byte 1) = [some 3] := by decide +kernel
  cases hv : (askedUnder (.tellState 3)).1 with
  | error why =>
    rw [hv] at hdone
    cases hdone
  | ok v =>
    obtain ⟨x, hx, hthree⟩ := List.mem_map.mp (hstates ▸ List.mem_cons_self)
    unfold askedUnder at hv hx
    cases hback : x.back with
    | error why =>
      rw [hback] at hthree
      cases hthree
    | ok reply =>
      rw [hback] at hthree
      have hzero := h _ _ _ _ v hv x hx reply hback
      cases hzero.symm.trans (Option.some.inj hthree)

/-! ## §4. The states that a host does not look at. -/

/-- What a host makes of a state. -/
def DeviceState.settled : DeviceState → DeviceState
  | .busy => .busy
  | _ => .ok

/-- The response in the state that a host makes of its own. -/
def Response.settled (p : Response) : Response := { p with state := p.state.settled }

/-- A line that answers every report with a response. -/
def Line.answering (answer : σ → Report → Response × σ) : Line σ :=
  ⟨fun s r => (.ok (answer s r).1.toReport, (answer s r).2)⟩

theorem Request.accept_settled (q : Request) (verify : Bool) (p : Response) :
    q.accept verify p.settled.toReport = q.accept verify p.toReport := by
  unfold accept
  rw [Response.ofReport_toReport, Response.ofReport_toReport]
  obtain ⟨state, command, crc, status, payload⟩ := p
  cases state with
  | ok => rfl
  | busy => rfl
  | error => rfl
  | receivedReport => rfl

/-- **A host tells no state from `ok` but `busy`**: every call comes to the same,
and leaves the same behind, if all other states are replaced by `ok`. -/
theorem Call.perform_settled (call : Call) (answer : σ → Report → Response × σ) (c : Client)
    (s : σ) :
    call.perform (.answering fun s r => ((answer s r).1.settled, (answer s r).2)) c s
      = call.perform (.answering answer) c s := by
  have hsame : (Line.answering answer).SameExchanges id
      (.answering fun s r => ((answer s r).1.settled, (answer s r).2)) c.options.verifyCrc := by
    intro q s
    rw [Request.exchange_eq, Request.exchange_eq]
    exact Prod.ext (q.accept_settled c.options.verifyCrc (answer s q.toReport).1) rfl
  rw [← call.tidy.prepare c] at hsame
  exact hsame.perform s

end OtpToken
