/-
  OtpToken.Proofs.Client.Stale
  ────────────────────────────
  **OLD ANSWERS.**

  A line may hold answers back and give them later, once or more: every report
  goes to the token, and what comes back is the answer to it or any answer of the
  token to an earlier report (`Line.delayed`).  There is no number in a request
  that would be used once only.  All that ties an answer to its request is the
  command byte and the checksum of the request, which the token repeats
  (`Token.line_echoes`).

  So an answer that is accepted is one to a report with that command byte and
  that checksum (`Relay.accepts_like_reports`), and it is the answer to the
  request itself unless such a report went before.  A call that repeats none of
  the reports before it comes to what it comes to without a delay.
-/
import OtpToken.Proofs.Client.Trace

namespace OtpToken

variable {σ α : Type}

/-! ## §1. Lines that hold answers back. -/

/-- A report that went to the other end, the answer from there, and what was
given to the host for it. -/
structure Passage where
  report : Report
  answer : Except LineError Report
  given : Except LineError Report

/-- The other end, all reports that went there, the last one first, and how many
reports back the next answers are to be taken from. -/
structure Delayed (σ : Type) where
  inner : σ
  past : List Passage
  lags : List Nat

/-- The next passage.  No lag is the answer to the report itself, and a lag
beyond the first report counts as none. -/
def Delayed.passage (d : Delayed σ) (line : Line σ) (r : Report) : Passage :=
  let answer := (line.send d.inner r).1
  ⟨r, answer, (answer :: d.past.map Passage.answer)[d.lags.headD 0]?.getD answer⟩

/-- The line, with answers held back. -/
def Line.delayed (line : Line σ) : Line (Delayed σ) where
  send d r :=
    let x := d.passage line r
    (x.given, ⟨(line.send d.inner r).2, x :: d.past, d.lags.tail⟩)

/-- What is given is the answer to this report or to an earlier one. -/
theorem Delayed.exists_answer (d : Delayed σ) (line : Line σ) (r : Report) :
    ∃ y ∈ d.passage line r :: d.past, (d.passage line r).given = y.answer := by
  cases hlag : ((line.send d.inner r).1 :: d.past.map Passage.answer)[d.lags.headD 0]? with
  | none =>
    refine ⟨d.passage line r, List.mem_cons_self, ?_⟩
    show Option.getD _ _ = _
    rw [hlag]
    rfl
  | some answer =>
    have hmem : answer ∈ (d.passage line r :: d.past).map Passage.answer :=
      List.mem_of_getElem? hlag
    obtain ⟨y, hy, rfl⟩ := List.mem_map.mp hmem
    refine ⟨y, hy, ?_⟩
    show Option.getD _ _ = _
    rw [hlag]
    rfl

/-! ## §2. Answers that say what they answer. -/

/-- The response in a reply, if it can be read, is for this command byte and
this checksum. -/
def Report.EchoOf (reply r : Report) : Prop :=
  ∀ verify p, Response.ofReport reply verify = .ok p →
    p.command = r.byte 1 ∧ p.requestCrc = r.storedCrc

/-- Every answer says what it answers. -/
def Line.Echoes (line : Line σ) : Prop :=
  ∀ s r reply, (line.send s r).1 = .ok reply → reply.EchoOf r

theorem Report.echoOf_response {p : Response} {r : Report} (hcommand : p.command = r.byte 1)
    (hcrc : p.requestCrc = r.storedCrc) : p.toReport.EchoOf r := by
  intro verify p' h
  rw [Response.ofReport_toReport] at h
  cases h
  exact ⟨hcommand, hcrc⟩

/-- **A token repeats the command byte and the checksum of every report**, also
of one that it does not look into. -/
theorem Token.line_echoes : Token.line.Echoes := by
  intro t r reply h
  have hsend : (t.send r).1 = .ok reply := h
  unfold send at hsend
  split at hsend
  · cases hsend
  · cases hread : Request.ofReport r with
    | error why =>
      rw [hread] at hsend
      cases hsend
      exact Report.echoOf_response rfl rfl
    | ok q =>
      rw [hread] at hsend
      obtain ⟨hcommand, hcrc⟩ := Request.of_ofReport hread
      cases hsend
      refine Report.echoOf_response ?_ ?_
      · rw [command_respond, hcommand]
      · rw [requestCrc_respond, hcrc]

namespace Passage

/-- The answer says what it answers. -/
def Genuine (x : Passage) : Prop := ∀ reply, x.answer = .ok reply → reply.EchoOf x.report

/-- Both reports have the same command byte and the same checksum. -/
def Like (x y : Passage) : Prop :=
  x.report.byte 1 = y.report.byte 1 ∧ x.report.storedCrc = y.report.storedCrc

instance (x y : Passage) : Decidable (x.Like y) := inferInstanceAs (Decidable (_ ∧ _))

/-- What was given is the answer to this report or to an earlier one that is
like it. -/
def Backed (x : Passage) (earlier : List Passage) : Prop :=
  ∃ y ∈ x :: earlier, y.Like x ∧ x.given = y.answer

/-- No earlier report is like this one. -/
def IsNew (x : Passage) (earlier : List Passage) : Prop := ∀ y ∈ earlier, ¬ y.Like x

/-- **With no earlier report like it, the answer is its own.** -/
theorem Backed.given_eq {x : Passage} {earlier : List Passage} (h : x.Backed earlier)
    (hnew : x.IsNew earlier) : x.given = x.answer := by
  obtain ⟨y, hy, hlike, hgiven⟩ := h
  rcases List.mem_cons.mp hy with rfl | hy
  · exact hgiven
  · exact absurd hlike (hnew y hy)

/-- Every one of the passages has the property, over everything that went before
it. -/
def Over (P : Passage → List Passage → Prop) (past : List Passage) : List Passage → Prop
  | [] => True
  | x :: recent => P x (recent ++ past) ∧ Over P past recent

section Over

variable {P : Passage → List Passage → Prop} {past recent : List Passage} {x : Passage}

theorem over_singleton (hx : P x past) : Over P past [x] := ⟨hx, trivial⟩

/-- The first of the passages stands at the end. -/
theorem over_concat (hx : P x past) (h : Over P (x :: past) recent) :
    Over P past (recent ++ [x]) := by
  induction recent with
  | nil => exact over_singleton hx
  | cons y recent ih =>
    obtain ⟨hy, hrest⟩ := h
    refine ⟨?_, ih hrest⟩
    show P y (recent ++ [x] ++ past)
    rw [List.append_assoc]
    exact hy

theorem given_eq_of_over (hbacked : Over Backed past recent) (hnew : Over IsNew past recent) :
    ∀ x ∈ recent, x.given = x.answer := by
  induction recent with
  | nil => exact nofun
  | cons y recent ih =>
    exact List.forall_mem_cons.mpr ⟨hbacked.1.given_eq hnew.1, ih hbacked.2 hnew.2⟩

end Over

end Passage

/-! ## §3. One call. -/

/-- All answers of the past say what they answer. -/
def Delayed.Genuine (d : Delayed σ) : Prop := ∀ x ∈ d.past, x.Genuine

section

variable {line : Line σ} {d d' : Delayed σ} {payload : Payload}

theorem Delayed.genuine_passage (hline : line.Echoes) (d : Delayed σ) (r : Report) :
    (d.passage line r).Genuine :=
  fun reply h => hline d.inner r reply h

theorem Line.Echoes.keeps (hline : line.Echoes) : line.delayed.Keeps Delayed.Genuine :=
  fun d r hd => List.forall_mem_cons.mpr ⟨d.genuine_passage hline r, hd⟩

/-- An answer that says what it answers is accepted only for that. -/
theorem Request.like_of_accepted {q : Request} {verify : Bool} {r reply : Report}
    (h : q.judge verify (.ok reply) = .ok payload) (hecho : reply.EchoOf r) :
    r.byte 1 = q.command ∧ r.storedCrc = q.crc := by
  cases Request.Judged.of_judge h with
  | accepted hread hstate hcommand hcrc hstatus =>
    obtain ⟨hbyte, hstored⟩ := hecho verify _ hread
    exact ⟨hbyte.symm.trans hcommand, hstored.symm.trans hcrc⟩

/-- **What is accepted is backed by a report that is like the request.** -/
theorem Delayed.Genuine.backed (hd : d.Genuine) (hline : line.Echoes) {q : Request} {verify : Bool}
    (h : q.judge verify (d.passage line q.toReport).given = .ok payload) :
    (d.passage line q.toReport).Backed d.past := by
  obtain ⟨y, hy, hgiven⟩ := d.exists_answer line q.toReport
  have hgenuine : y.Genuine := by
    rcases List.mem_cons.mp hy with rfl | hy
    · exact d.genuine_passage hline q.toReport
    · exact hd y hy
  rw [hgiven] at h
  cases hanswer : y.answer with
  | error why =>
    rw [hanswer] at h
    cases h
  | ok reply =>
    rw [hanswer] at h
    obtain ⟨hcommand, hcrc⟩ := Request.like_of_accepted h (hgenuine reply hanswer)
    exact ⟨y, hy, ⟨hcommand, hcrc.trans q.storedCrc_toReport.symm⟩, hgiven⟩

/-- A request that was given its own answer comes to what it comes to without a
delay. -/
theorem Request.exchange_of_own {q : Request} {verify : Bool} {answer : Except Error Payload}
    (h : q.judge verify (d.passage line q.toReport).given = answer)
    (hown : (d.passage line q.toReport).given = (d.passage line q.toReport).answer) :
    q.exchange line verify d.inner = (answer, (line.send d.inner q.toReport).2) := by
  rw [q.exchange_eq, ← h, hown]
  rfl

/-- The passages of requests that were all accepted, the last one first: each is
backed by what went before it. -/
structure Delayed.Grown (d d' : Delayed σ) (requests : List Request) (recent : List Passage) :
    Prop where
  past : d'.past = recent ++ d.past
  reports : recent.map Passage.report = (requests.map Request.toReport).reverse
  backed : Passage.Over Passage.Backed d.past recent

/-- **A script that is done over delayed answers**: what it accepts is backed,
and if each request was given its own answer, then it comes to the same without
the delay. -/
theorem Script.run_delayed (script : Script) {verify : Bool} (hline : line.Echoes) (hd : d.Genuine)
    (h : script.run line.delayed verify d = (.ok payload, d')) :
    ∃ recent, d.Grown d' script.requests recent
      ∧ ((∀ x ∈ recent, x.given = x.answer) →
          script.run line verify d.inner = (.ok payload, d'.inner)) := by
  unfold run at h ⊢
  unfold requests
  generalize script.opening = qs at h ⊢
  -- along the requests before the last one
  induction qs generalizing d with
  | nil =>
    rw [run.go, Request.exchange_eq] at h
    obtain ⟨hjudge, hd'⟩ := Prod.mk.inj h
    subst hd'
    refine ⟨[d.passage line script.final.toReport], ⟨rfl, rfl, ?_⟩, ?_⟩
    · exact Passage.over_singleton (hd.backed hline hjudge)
    · intro hown
      exact Request.exchange_of_own hjudge (hown _ List.mem_cons_self)
  | cons q qs ih =>
    rw [run.go, Request.exchange_eq] at h
    cases hjudge : q.judge verify (d.passage line q.toReport).given with
    | error why =>
      rw [show q.judge verify (line.delayed.send d q.toReport).1 = _ from hjudge] at h
      cases h
    | ok told =>
      rw [show q.judge verify (line.delayed.send d q.toReport).1 = _ from hjudge] at h
      obtain ⟨recent, hgrown, hrest⟩ := ih (hline.keeps d q.toReport hd) h
      refine ⟨recent ++ [d.passage line q.toReport], ⟨?_, ?_, ?_⟩, ?_⟩
      · rw [hgrown.past, List.append_assoc]
        rfl
      · rw [List.map_append, hgrown.reports]
        exact List.reverse_cons.symm
      · exact Passage.over_concat (hd.backed hline hjudge) hgrown.backed
      · intro hown
        obtain ⟨hrecent, hfirst⟩ := List.forall_mem_append.mp hown
        rw [run.go, Request.exchange_of_own hjudge (hfirst _ List.mem_cons_self)]
        show run.go script line verify qs _ = _
        exact hrest hrecent

/-- **An operation that is done over delayed answers.** -/
theorem Client.perform_delayed {c after : Client} {op : Operation α} {a : α} (hop : op.Tidy)
    (hline : line.Echoes) (hd : d.Genuine) (h : c.perform line.delayed op d = (.ok a, after, d')) :
    ∃ script recent, (op.prepare c).1 = .ok script ∧ d.Grown d' script.requests recent
      ∧ ((∀ x ∈ recent, x.given = x.answer) →
          c.perform line op d.inner = (.ok a, after, d'.inner)) := by
  cases hprepare : (op.prepare c).1 with
  | error why =>
    rw [perform_of_refused hop hprepare] at h
    cases h
  | ok script =>
    rw [perform_of_prepared hop hprepare] at h
    cases hrun : script.run line.delayed c.options.verifyCrc d with
    | mk answer d'' =>
      rw [hrun] at h
      cases answer with
      | error why => cases h
      | ok payload =>
        obtain ⟨recent, hgrown, hrest⟩ := script.run_delayed hline hd hrun
        obtain ⟨hvalue, hrest'⟩ := Prod.mk.inj h
        obtain ⟨hafter, rfl⟩ := Prod.mk.inj hrest'
        refine ⟨script, recent, rfl, hgrown, fun hown => ?_⟩
        rw [perform_of_prepared hop hprepare, hrest hown]
        exact Prod.ext hvalue (Prod.ext hafter rfl)

end

/-! ## §4. Runs. -/

/-- A host, and a token whose answers may be held back. -/
structure Relay where
  client : Client
  far : Delayed Token

namespace Relay

/-- What can happen to them. -/
inductive Act where
  /-- A new host connects. -/
  | connect (options : Options)
  | call (call : Call)
  | unplug
  | plugIn

/-- Any host and any token before the first report, and the lags to come. -/
def start (c : Client) (t : Token) (lags : List Nat) : Relay := ⟨c, t, [], lags⟩

/-- A call over the line that holds answers back. -/
def perform (r : Relay) (call : Call) : Except Error Value × Relay :=
  let (result, client, far) := call.perform Token.line.delayed r.client r.far
  (result, ⟨client, far⟩)

/-- The token taken off its line or put back. -/
def plug (r : Relay) (f : Token → Token) : Relay :=
  { r with far := { r.far with inner := f r.far.inner } }

/-- What is left after one more of it. -/
def step (r : Relay) : Act → Relay
  | .connect options =>
      match Client.connect Token.line.delayed options r.far with
      | (.ok client, far) => ⟨client, far⟩
      | (.error _, far) => { r with far }
  | .call call => (r.perform call).2
  | .unplug => r.plug Token.unplug
  | .plugIn => r.plug Token.plugIn

/-- What is left after all of it, the first one first. -/
def run (r : Relay) (acts : List Act) : Relay := acts.foldl step r

theorem genuine_step {r : Relay} (h : r.far.Genuine) (act : Act) : (r.step act).far.Genuine := by
  cases act with
  | connect options =>
    have hfar := Token.line_echoes.keeps.connect h options
    unfold step
    dsimp only
    split
    · next hresult =>
      rw [hresult] at hfar
      exact hfar
    · next hresult =>
      rw [hresult] at hfar
      exact hfar
  | call call => exact Token.line_echoes.keeps.perform h r.client call.operation
  | unplug => exact h
  | plugIn => exact h

/-- **Every answer of a run says what it answers.** -/
theorem genuine_run {r : Relay} (h : r.far.Genuine) (acts : List Act) :
    (r.run acts).far.Genuine := by
  induction acts generalizing r with
  | nil => exact h
  | cons act acts ih => exact ih (genuine_step h act)

/-- **What a call accepts when answers are held back**, after any run of any host
with any token, whatever is held back and for how long.

* If a call is done, then all its requests went to the token, and each was given
  the answer to itself or to an earlier report with the same command byte and
  the same checksum.
* If no report before it was like one of them, then each was given its own
  answer; the value, the host and the token are those of the call without a
  delay. -/
theorem accepts_like_reports (c : Client) (t : Token) (lags : List Nat) (acts : List Act)
    (call : Call) :
    let before := (start c t lags).run acts
    let after := (before.perform call).2
    ∀ v, (before.perform call).1 = .ok v →
      ∃ script recent, (call.operation.prepare before.client).1 = .ok script
        ∧ before.far.Grown after.far script.requests recent
        ∧ (Passage.Over Passage.IsNew before.far.past recent →
            (∀ x ∈ recent, x.given = x.answer)
              ∧ call.perform Token.line before.client before.far.inner
                  = (.ok v, after.client, after.far.inner)) := by
  intro before after v hv
  have hd : before.far.Genuine := genuine_run (r := start c t lags) nofun acts
  have hperform : before.client.perform Token.line.delayed call.operation before.far
      = (.ok v, after.client, after.far) := Prod.ext hv rfl
  obtain ⟨script, recent, hprepare, hgrown, hsame⟩ :=
    Client.perform_delayed call.tidy Token.line_echoes hd hperform
  refine ⟨script, recent, hprepare, hgrown, fun hnew => ?_⟩
  have hown := Passage.given_eq_of_over hgrown.backed hnew
  exact ⟨hown, hsame hown⟩

/-- The attempts of the admin are asked for, and then a wrong PIN is tried. -/
def wrongPin : List Act :=
  [.call .adminRetryCount, .call (.firstAuthenticate (.ofText "00000000") (.ofText "temp"))]

/-- A fresh token after that.  The answer to the PIN was held back, and the one
before given again. -/
def counted (lag : Nat) : Relay :=
  (start (Client.fresh default) (.fresh .factory) [0, 1, lag]).run wrongPin

set_option maxRecDepth 20000 in
/-- The attempts of the other role were not asked for before, so their number is
the one of the token. -/
theorem accepts_like_reports_counted :
    ∃ v, ((counted 0).perform .userRetryCount).1 = .ok v
      ∧ ∃ script recent, (Call.userRetryCount.operation.prepare (counted 0).client).1 = .ok script
        ∧ (counted 0).far.Grown ((counted 0).perform .userRetryCount).2.far script.requests recent
        ∧ Passage.Over Passage.IsNew (counted 0).far.past recent
        ∧ (∀ x ∈ recent, x.given = x.answer)
        ∧ Call.userRetryCount.perform Token.line (counted 0).client (counted 0).far.inner
            = (.ok v, ((counted 0).perform .userRetryCount).2.client,
                ((counted 0).perform .userRetryCount).2.far.inner) := by
  have hdone : ((counted 0).perform .userRetryCount).1.isOk = true := by decide +kernel
  have hlength : ((counted 0).perform .userRetryCount).2.far.past.length
      = (counted 0).far.past.length + 1 := by decide +kernel
  have hunlike : ∀ x ∈ ((counted 0).perform .userRetryCount).2.far.past.head?,
      ∀ y ∈ (counted 0).far.past, ¬ y.Like x := by decide +kernel
  cases hv : ((counted 0).perform .userRetryCount).1 with
  | error why =>
    rw [hv] at hdone
    cases hdone
  | ok v =>
    unfold counted at hv hlength hunlike ⊢
    obtain ⟨script, recent, hprepare, hgrown, hsame⟩ := accepts_like_reports (Client.fresh default)
      (.fresh .factory) [0, 1, 0] wrongPin .userRetryCount v hv
    rw [hgrown.past] at hlength hunlike
    rw [List.length_append, Nat.add_comm] at hlength
    obtain ⟨x, rfl⟩ := List.length_eq_one_iff.mp (Nat.add_left_cancel hlength)
    have hnew := Passage.over_singleton (P := Passage.IsNew) (hunlike x rfl)
    exact ⟨v, rfl, script, [x], hprepare, hgrown, hnew, hsame hnew⟩

set_option maxRecDepth 20000 in
/-- It is not true that only own answers are accepted: the attempts of the admin
are asked for again, and the old number of attempts is taken for the new
one. -/
theorem not_own_answers :
    ¬ ∀ (c : Client) (t : Token) (lags : List Nat) (acts : List Act) (call : Call),
        let before := (start c t lags).run acts
        let after := (before.perform call).2
        ∀ v, (before.perform call).1 = .ok v →
          ∃ script recent, (call.operation.prepare before.client).1 = .ok script
            ∧ before.far.Grown after.far script.requests recent
            ∧ ∀ x ∈ recent, x.given = x.answer := by
  intro h
  have hdone : ((counted 2).perform .adminRetryCount).1.isOk = true := by decide +kernel
  -- three attempts were given, and two are left
  have htold : ((counted 2).perform .adminRetryCount).2.far.past.head?.map
      (fun x => (x.given.toOption.map (Block.byte · 8), x.answer.toOption.map (Block.byte · 8)))
      = some (some 3, some 2) := by decide +kernel
  cases hv : ((counted 2).perform .adminRetryCount).1 with
  | error why =>
    rw [hv] at hdone
    cases hdone
  | ok v =>
    unfold counted at hv htold
    obtain ⟨script, recent, -, hgrown, hown⟩ := h (Client.fresh default) (.fresh .factory)
      [0, 1, 2] wrongPin .adminRetryCount v hv
    rw [hgrown.past] at htold
    cases recent with
    | nil =>
      have hreports := hgrown.reports
      simp [Script.requests] at hreports
    | cons x recent =>
      obtain ⟨hgiven, hanswer⟩ := Prod.mk.inj (Option.some.inj htold)
      rw [hown x List.mem_cons_self] at hgiven
      cases hgiven.symm.trans hanswer

end Relay

end OtpToken
