/-
  OtpToken.Proofs.Token.Dialogue
  ──────────────────────────────
  **A TOKEN AND EVERYTHING THAT WAS SAID TO IT.**

  A dialogue starts at a token that leaves the factory and goes on with any
  reports at all.  Its past is the list of exchanges, **the last one first**:
  which command a report carried, if any, and with which status the token
  replied.  Nothing of the state of the token is in it.

  `hear_cases` says what one report does; `run_induction` carries an
  invariant of one report over every run.  `Since` is how properties speak
  about the past: something happened, and nothing since then has undone it.
-/
import OtpToken.Proofs.Command.Offsets
import OtpToken.Proofs.Frame
import OtpToken.Proofs.Token.Change
import OtpToken.Token.Send

namespace OtpToken

/-! ## §1. Exchanges. -/

/-- The command in a report with the right checksum. -/
def Command.ofReport? (encoding : CounterEncoding) (r : Report) : Option Command :=
  match Request.ofReport r with
  | .error _ => none
  | .ok q => (parse q encoding).toOption

theorem Command.of_ofReport? {encoding : CounterEncoding} {r : Report} {c : Command}
    (h : ofReport? encoding r = some c) :
    ∃ q, Request.ofReport r = .ok q ∧ parse q encoding = .ok c := by
  unfold ofReport? at h
  split at h
  · cases h
  · next q hq =>
    refine ⟨q, hq, ?_⟩
    cases hparse : parse q encoding with
    | error status =>
      rw [hparse] at h
      cases h
    | ok c' =>
      rw [hparse] at h
      cases h
      rfl

/-- Of all reports with the right checksum and the byte of a command, only a
piece of slot data and a write can fail to carry that command. -/
theorem Command.ofReport?_of_total {r : Report} {q : Request} (encoding : CounterEncoding)
    (hq : Request.ofReport r = .ok q) {id : CommandId}
    (hid : CommandId.ofByte? q.command = some id) (hdata : id ≠ .sendOtpData)
    (hwrite : id ≠ .writeToSlot) : ∃ c, c.id = id ∧ ofReport? encoding r = some c := by
  obtain ⟨c, hc, hparse⟩ := parse_of_total encoding hid hdata hwrite
  refine ⟨c, hc, ?_⟩
  rw [ofReport?, hq]
  show (parse q encoding).toOption = some c
  rw [hparse]
  rfl

/-- A report and its reply, as somebody sees them who knows how the token
writes counters. -/
structure Exchange where
  command? : Option Command
  status : Status

namespace Exchange

/-- What can be seen of a report and the reply to it. -/
def seen (encoding : CounterEncoding) (report reply : Report) : Exchange :=
  ⟨Command.ofReport? encoding report, .ofByte (reply.byte 7)⟩

/-- The exchange was about a command with this property, and it was done. -/
def Did (x : Exchange) (Q : Command → Prop) : Prop :=
  x.status = .ok ∧ ∃ c, x.command? = some c ∧ Q c

theorem did_iff {x : Exchange} {c : Command} (h : x.command? = some c) {Q : Command → Prop} :
    x.Did Q ↔ x.status = .ok ∧ Q c := by
  constructor
  · rintro ⟨hok, c', hc', hq⟩
    cases h.symm.trans hc'
    exact ⟨hok, hq⟩
  · rintro ⟨hok, hq⟩
    exact ⟨hok, c, h, hq⟩

theorem did_iff_any {x : Exchange} {Q : Command → Prop} [DecidablePred Q] :
    x.Did Q ↔ x.status = .ok ∧ x.command?.any (fun c => decide (Q c)) = true := by
  unfold Did
  simp only [Option.any_eq_true, decide_eq_true_eq]

instance (x : Exchange) (Q : Command → Prop) [DecidablePred Q] : Decidable (x.Did Q) :=
  decidable_of_iff _ did_iff_any.symm

theorem not_did {x : Exchange} (h : x.command? = none) {Q : Command → Prop} : ¬ x.Did Q := by
  rintro ⟨-, c, hc, -⟩
  cases h.symm.trans hc

end Exchange

/-! ## §2. Speaking about the past. -/

/-- An exchange in the past had the property `start`, given all that was
before it, and every exchange after it has had the property `keeps`. -/
def Since (start : Exchange → List Exchange → Prop) (keeps : Exchange → Prop)
    (past : List Exchange) : Prop :=
  ∃ later x earlier, past = later ++ x :: earlier ∧ start x earlier ∧ ∀ y ∈ later, keeps y

section Since

variable {start : Exchange → List Exchange → Prop} {keeps : Exchange → Prop}

theorem not_since_nil : ¬ Since start keeps [] := by
  rintro ⟨later, x, earlier, h, -⟩
  cases later with
  | nil => cases h
  | cons y later => cases h

/-- The last exchange started it, or it kept what was there. -/
theorem since_cons_iff {x : Exchange} {past : List Exchange} :
    Since start keeps (x :: past) ↔ start x past ∨ keeps x ∧ Since start keeps past := by
  constructor
  · rintro ⟨later, y, earlier, h, hstart, hkeeps⟩
    cases later with
    | nil =>
      cases h
      exact .inl hstart
    | cons z later =>
      cases h
      refine .inr ⟨hkeeps x List.mem_cons_self, later, y, earlier, rfl, hstart, ?_⟩
      intro w hw
      exact hkeeps w (List.mem_cons_of_mem x hw)
  · rintro (hstart | ⟨hx, later, y, earlier, rfl, hstart, hkeeps⟩)
    · exact ⟨[], x, past, rfl, hstart, by simp⟩
    · exact ⟨x :: later, y, earlier, rfl, hstart, List.forall_mem_cons.mpr ⟨hx, hkeeps⟩⟩

end Since

/-! ## §3. Dialogues. -/

/-- A token and its past, the last exchange first. -/
structure Dialogue where
  token : Token
  past : List Exchange

namespace Dialogue

/-- A token as it leaves the factory. -/
def start (config : TokenConfig) : Dialogue := ⟨.fresh config, []⟩

/-- The dialogue after one more report. -/
def hear (d : Dialogue) (report : Report) : Dialogue :=
  match d.token.send report with
  | (.error _, token) => { d with token }
  | (.ok reply, token) => ⟨token, .seen d.token.encoding report reply :: d.past⟩

/-- The dialogue after more reports, the first one first. -/
def run (d : Dialogue) (reports : List Report) : Dialogue := reports.foldl hear d

theorem run_append (d : Dialogue) (reports more : List Report) :
    d.run (reports ++ more) = (d.run reports).run more := List.foldl_append

/-- **What every report preserves holds after every run.** -/
theorem run_induction {I : Dialogue → Prop} {d : Dialogue} (h : I d)
    (hstep : ∀ d report, I d → I (d.hear report)) (reports : List Report) :
    I (d.run reports) := by
  induction reports generalizing d with
  | nil => exact h
  | cons report reports ih => exact ih (hstep d report h)

end Dialogue

/-! ## §4. One report. -/

namespace Token

/-- The statuses of a report that carries no command. -/
def unreadable : List Status := [.wrongCrc, .unknownCommand, .unknown]

/-- An unknown command byte, or fields that cannot be read. -/
theorem mem_unreadable {q : Request} {encoding : CounterEncoding} {status : Status}
    (h : Command.parse q encoding = .error status) : status ∈ unreadable := by
  unfold Command.parse at h
  split at h
  · cases h
    decide
  · split at h
    · cases h
    · cases h
      decide

theorem send_of_plugged {t : Token} (hplug : t.pluggedIn = true) (report : Report) :
    t.send report = match Request.ofReport report with
      | .error _ => (.ok (respondWrongCrc report).toReport, t)
      | .ok q => (.ok (respond q (t.handle q).1).toReport, (t.handle q).2) := by
  unfold send
  rw [hplug]
  rfl

theorem command_respond (q : Request) (answer : Answer) :
    (respond q answer).command = q.command := by
  cases answer with
  | ok payload => rfl
  | error status => rfl

theorem requestCrc_respond (q : Request) (answer : Answer) :
    (respond q answer).requestCrc = q.crc := by
  cases answer with
  | ok payload => rfl
  | error status => rfl

theorem status_of_respond (q : Request) (answer : Answer) :
    (respond q answer).status = answer.status.toByte := by
  cases answer with
  | ok payload => rfl
  | error status => rfl

/-- **A report without a command that can be read is refused and changes
nothing.** -/
theorem send_of_no_command {t : Token} {report : Report} (hplug : t.pluggedIn = true)
    (h : Command.ofReport? t.encoding report = none) :
    ∃ (p : Response) (status : Status), t.send report = (.ok p.toReport, t)
      ∧ status ∈ unreadable ∧ p.status = status.toByte := by
  rw [send_of_plugged hplug]
  unfold Command.ofReport? at h
  cases hq : Request.ofReport report with
  | error e =>
    -- a wrong checksum: the token does not look into the report
    exact ⟨_, .wrongCrc, rfl, by decide, rfl⟩
  | ok q =>
    rw [hq] at h
    dsimp only at h ⊢
    unfold handle
    cases hparse : Command.parse q t.encoding with
    | ok c =>
      rw [hparse] at h
      cases h
    | error status => exact ⟨_, status, rfl, mem_unreadable hparse, status_of_respond q _⟩

/-- A report with a command is answered as the command is. -/
theorem send_of_command {t : Token} {report : Report} {c : Command} (hplug : t.pluggedIn = true)
    (h : Command.ofReport? t.encoding report = some c) :
    ∃ q, t.send report = (.ok (respond q (t.execute c).1).toReport, (t.execute c).2) := by
  obtain ⟨q, hq, hparse⟩ := Command.of_ofReport? h
  refine ⟨q, ?_⟩
  rw [send_of_plugged hplug, hq]
  dsimp only
  unfold handle
  rw [hparse]

/-- A report that carries no command leaves a token as it is, and every other
report does what its command does. -/
theorem send_state {t : Token} (hplug : t.pluggedIn = true) (report : Report) :
    (t.send report).2 = t
      ∨ ∃ c, Command.ofReport? t.encoding report = some c
          ∧ (t.send report).2 = (t.execute c).2 := by
  cases hc : Command.ofReport? t.encoding report with
  | none =>
    obtain ⟨p, status, hsend, -⟩ := send_of_no_command hplug hc
    rw [hsend]
    exact .inl rfl
  | some c =>
    obtain ⟨q, hsend⟩ := send_of_command hplug hc
    rw [hsend]
    exact .inr ⟨c, rfl, rfl⟩

/-- The reply to a request tells the status of the answer. -/
theorem status_respond (q : Request) {answer : Answer} (h : answer.status ≠ .busy) :
    Status.ofByte ((respond q answer).toReport.byte 7) = answer.status := by
  cases answer with
  | ok payload => rfl
  | error status => exact Status.ofByte_toByte status h

/-- A token is never busy; the status byte of one that is would be read as
something else. -/
theorem execute_ne_busy (t : Token) (c : Command) : (t.execute c).1.status ≠ .busy := by
  have heffect : t.Effect c (t.execute c) := effect_execute t c
  cases hr : (t.execute c).1 with
  | ok payload => exact Status.noConfusion
  | error status => exact (heffect.status_of_error hr).2

/-- **A plugged-in token replies to every report.**  One without a command
changes nothing; one with a command has the effect of that command, and the
reply tells the status of the answer. -/
theorem send_cases {t : Token} (hplug : t.pluggedIn = true) (report : Report) :
    ∃ reply t', t.send report = (.ok reply, t')
      ∧ (((Exchange.seen t.encoding report reply).command? = none
            ∧ (Exchange.seen t.encoding report reply).status ∈ unreadable ∧ t' = t)
          ∨ ∃ c answer, (Exchange.seen t.encoding report reply).command? = some c
            ∧ t.Effect c (answer, t')
            ∧ (Exchange.seen t.encoding report reply).status = answer.status) := by
  have hcommand : ∀ reply, (Exchange.seen t.encoding report reply).command?
      = Command.ofReport? t.encoding report := fun _ => rfl
  simp only [hcommand]
  cases hc : Command.ofReport? t.encoding report with
  | none =>
    obtain ⟨p, status, hsend, hstatus, hbyte⟩ := send_of_no_command hplug hc
    have hbusy : ∀ s ∈ unreadable, s ≠ .busy := by decide
    refine ⟨p.toReport, t, hsend, .inl ⟨rfl, ?_, rfl⟩⟩
    show Status.ofByte p.status ∈ unreadable
    rw [hbyte, Status.ofByte_toByte status (hbusy status hstatus)]
    exact hstatus
  | some c =>
    obtain ⟨q, hsend⟩ := send_of_command hplug hc
    have heffect : t.Effect c (t.execute c) := effect_execute t c
    exact ⟨_, _, hsend, .inr ⟨c, _, rfl, heffect, status_respond q (t.execute_ne_busy c)⟩⟩

end Token

/-! ## §5. One report in a dialogue. -/

namespace Dialogue

theorem token_hear (d : Dialogue) (report : Report) :
    (d.hear report).token = (d.token.send report).2 := by
  unfold hear
  split
  · next h => rw [h]
  · next h => rw [h]

/-- **What one report does to a dialogue**: the past grows by what can be
seen of the report and its reply. -/
theorem hear_cases {d : Dialogue} (hplug : d.token.pluggedIn = true) (report : Report) :
    ∃ reply, d.token.send report = (.ok reply, (d.hear report).token)
      ∧ (d.hear report).past = .seen d.token.encoding report reply :: d.past
      ∧ (((Exchange.seen d.token.encoding report reply).command? = none
            ∧ (Exchange.seen d.token.encoding report reply).status ∈ Token.unreadable
            ∧ (d.hear report).token = d.token)
          ∨ ∃ c answer, (Exchange.seen d.token.encoding report reply).command? = some c
            ∧ d.token.Effect c (answer, (d.hear report).token)
            ∧ (Exchange.seen d.token.encoding report reply).status = answer.status) := by
  obtain ⟨reply, t', hsend, h⟩ := Token.send_cases hplug report
  have hhear : d.hear report = ⟨t', .seen d.token.encoding report reply :: d.past⟩ := by
    rw [hear, hsend]
  rw [hhear]
  exact ⟨reply, hsend, rfl, h⟩

/-- The settings stay, and a token in a dialogue is plugged in. -/
def Fixed (config : TokenConfig) (d : Dialogue) : Prop :=
  d.token.config = config ∧ d.token.pluggedIn = true

theorem Fixed.hear {config : TokenConfig} {d : Dialogue} (h : d.Fixed config) (report : Report) :
    (d.hear report).Fixed config := by
  obtain ⟨hconfig, hplug⟩ := h
  obtain ⟨reply, -, -, ⟨-, -, htoken⟩ | ⟨c, answer, -, heffect, -⟩⟩ := hear_cases hplug report
  · rw [Fixed, htoken]
    exact ⟨hconfig, hplug⟩
  · exact ⟨heffect.config_eq.trans hconfig, heffect.pluggedIn_eq.trans hplug⟩

theorem fixed_run (config : TokenConfig) (reports : List Report) :
    ((start config).run reports).Fixed config :=
  run_induction (I := Fixed config) ⟨rfl, rfl⟩ (fun _ report h => h.hear report) reports

/-- **What holds at the start and is preserved by a report after any run holds
after every run.** -/
theorem start_induction {config : TokenConfig} {I : Dialogue → Prop} (h : I (start config))
    (hstep : ∀ reports report, I ((start config).run reports) →
      I (((start config).run reports).hear report)) (reports : List Report) :
    I ((start config).run reports) := by
  refine (run_induction (I := fun d => I d ∧ ∃ reports, d = (start config).run reports)
    ⟨h, [], rfl⟩ ?_ reports).1
  rintro d report ⟨hd, reports, rfl⟩
  refine ⟨hstep reports report hd, reports ++ [report], ?_⟩
  rw [run_append]
  rfl

/-- The past of a longer run is that of the shorter one with more in front. -/
theorem Fixed.exists_recent {config : TokenConfig} {d : Dialogue} (h : d.Fixed config)
    (more : List Report) : ∃ recent, (d.run more).past = recent ++ d.past := by
  refine (run_induction (I := fun d' => d'.Fixed config ∧ ∃ recent, d'.past = recent ++ d.past)
    ⟨h, [], rfl⟩ ?_ more).2
  rintro d' report ⟨hfixed, recent, hrecent⟩
  obtain ⟨reply, -, hpast, -⟩ := hear_cases hfixed.2 report
  exact ⟨hfixed.hear report, _ :: recent, by rw [hpast, hrecent]; rfl⟩

end Dialogue

end OtpToken
