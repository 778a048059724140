/-
  OtpToken.Proofs.Client.Reset
  ────────────────────────────
  **A FACTORY RESET ERASES ALL HISTORY.**

  Right after a factory reset a token is the token that left the factory, but
  for its clock and for the AES key, which is lost (`token_of_reset`).  Setting
  the clock takes the last difference between two tokens of one make away, and
  no report can tell them apart any more (`reset_forgets`).

  The host that asked for the reset knows nothing of the token then, and takes
  its Password Safe to be closed.
-/
import OtpToken.Proofs.Client.Operation
import OtpToken.Proofs.Token.Alike

namespace OtpToken

/-! ## §1. The token. -/

/-- The token that left the factory, with this time and without an AES key. -/
def Token.wiped (config : TokenConfig) (clock : UInt64) : Token :=
  { Token.fresh config with clock, keyValid := false }

namespace Token

variable {t t' : Token} {payload : Payload}

theorem Effect.eq_of_factoryReset {pin : Secret}
    (h : t.Effect (.factoryReset pin) (.ok payload, t')) : t' = t.factoryReset := by
  cases h with
  | reset _ => rfl
  | told _ htells => cases htells
  | safeChanged _ huses => cases huses
  | loggedIn _ hlogin _ _ => cases hlogin
  | pinChanged _ hnew _ _ => cases hnew

/-- A reset keeps the settings, the clock and the line. -/
theorem factoryReset_eq (hplug : t.pluggedIn = true) :
    t.factoryReset = wiped t.config t.clock := by
  show Token.mk _ _ _ _ _ _ _ t.pluggedIn = _
  rw [hplug]
  rfl

end Token

/-- The last thing that was done is a factory reset. -/
def JustReset (past : List Exchange) : Prop :=
  ∃ x ∈ past.head?, x.Did fun c => c.id = .factoryReset

instance (past : List Exchange) : Decidable (JustReset past) :=
  inferInstanceAs (Decidable (∃ x ∈ past.head?, x.Did fun c => c.id = .factoryReset))

/-- **Nothing of its history is left in a token that was just reset**, except the
time. -/
theorem token_of_reset (config : TokenConfig) (reports : List Report)
    (hreset : JustReset ((Dialogue.start config).run reports).past) :
    ∃ clock, ((Dialogue.start config).run reports).token = .wiped config clock := by
  revert hreset
  refine Dialogue.start_induction (I := fun d => JustReset d.past →
    ∃ clock, d.token = .wiped config clock) ?_ ?_ reports
  · rintro ⟨x, hx, -⟩
    cases hx
  · rintro reports report -
    obtain ⟨hconfig, hplug⟩ := Dialogue.fixed_run config reports
    obtain ⟨reply, -, hpast, ⟨hnone, -, -⟩ | ⟨c, answer, hc, heffect, hstatus⟩⟩ :=
      Dialogue.hear_cases hplug report
    · rw [hpast]
      rintro ⟨x, hx, hdid⟩
      cases hx
      exact absurd hdid (Exchange.not_did hnone)
    · rw [hpast]
      rintro ⟨x, hx, hdid⟩
      cases hx
      obtain ⟨hok, hid⟩ := (Exchange.did_iff hc).mp hdid
      cases answer with
      | error status => exact absurd (hstatus.symm.trans hok) (heffect.status_of_error rfl).1
      | ok payload =>
        cases c with
        | factoryReset pin =>
          rw [heffect.eq_of_factoryReset, Token.factoryReset_eq hplug, hconfig]
          exact ⟨_, rfl⟩
        | _ => cases hid

/-! ## §2. The host. -/

/-- **A host that has reset a token, over any line, knows nothing of it and
takes its Password Safe to be closed.** -/
theorem known_of_reset {σ : Type} {line : Line σ} {c c' : Client} {s s' : σ} {pin : Secret}
    {v : Value} (h : (Call.factoryReset pin).perform line c s = (.ok v, c', s')) :
    c'.known = .empty ∧ c'.safeEnabled = false := by
  obtain ⟨script, payload, after, -, -, hconclude, rfl⟩ := Client.of_perform_ok (Call.tidy _) h
  cases hconclude
  exact ⟨rfl, rfl⟩

/-! ## §3. Two histories. -/

/-- Setting the clock goes through, whatever the time is. -/
theorem send_setTime_wiped {config : TokenConfig} {report : Report} {time : UInt64}
    (h : Command.ofReport? (Token.fresh config).encoding report = some (.setTime true time))
    (clock : UInt64) : ((Token.wiped config clock).send report).2 = .wiped config time := by
  obtain ⟨q, hsend⟩ := Token.send_of_command (t := .wiped config clock) rfl h
  rw [hsend]
  rfl

/-- **A factory reset erases all history.**  Take a token through any two
histories that end with a factory reset, and then set its clock: whatever is
reported to it afterwards, it replies the same.  A host that has done the reset
has nothing left of the token. -/
theorem reset_forgets (config : TokenConfig) (reports reports' : List Report) (report : Report)
    (time : UInt64) (hreset : JustReset ((Dialogue.start config).run reports).past)
    (hreset' : JustReset ((Dialogue.start config).run reports').past)
    (htime : Command.ofReport? (Token.fresh config).encoding report = some (.setTime true time)) :
    let t := ((Dialogue.start config).run reports).token
    let t' := ((Dialogue.start config).run reports').token
    t.after [report] = .wiped config time ∧ t'.after [report] = .wiped config time
      ∧ (∀ more, t'.replies (report :: more) = t.replies (report :: more))
      ∧ ∀ (σ : Type) (line : Line σ) (c c' : Client) (s s' : σ) (pin : Secret) (v : Value),
          (Call.factoryReset pin).perform line c s = (.ok v, c', s') →
          c'.known = .empty ∧ c'.safeEnabled = false := by
  intro t t'
  obtain ⟨clock, ht⟩ := token_of_reset config reports hreset
  obtain ⟨clock', ht'⟩ := token_of_reset config reports' hreset'
  have ht : t = .wiped config clock := ht
  have ht' : t' = .wiped config clock' := ht'
  have hafter : ∀ clock, (Token.wiped config clock).after [report] = .wiped config time :=
    send_setTime_wiped htime
  rw [ht, ht']
  refine ⟨hafter clock, hafter clock', fun more => ?_, fun _ _ _ _ _ _ _ _ h => known_of_reset h⟩
  have hreply : ((Token.wiped config clock').send report).1
      = ((Token.wiped config clock).send report).1 := by
    have hconfig : (Token.wiped config clock').config = (Token.wiped config clock).config := rfl
    have hplug : (Token.wiped config clock').pluggedIn = (Token.wiped config clock).pluggedIn := rfl
    refine Token.reply_alike hconfig hplug fun c hc => ?_
    cases htime.symm.trans hc
    rfl
  rw [Token.replies, Token.replies, hreply, send_setTime_wiped htime, send_setTime_wiped htime]

set_option maxRecDepth 20000 in
/-- A wrong PIN, a login, a name that was staged and an open Password Safe are
forgotten. -/
theorem reset_forgets_session :
    let start := Dialogue.start .factory
    let reset : Command := .factoryReset (.ofText "12345678")
    let reports := Command.reports .binary [.firstAuthenticate (.ofText "wrong") (.ofText "t"),
      .firstAuthenticate (.ofText "12345678") (.ofText "t"),
      .sendOtpData (.ofText "t") .name 0 (.ofText "mail"), .enableSafe (.ofText "123456"), reset]
    let before := start.run (Command.reports .binary [reset])
    (start.run reports).past.map Exchange.status = [.ok, .ok, .ok, .ok, .wrongPassword]
      ∧ ∃ report, Command.ofReport? .binary report = some (.setTime true 1000)
      ∧ ∀ more, (start.run reports).token.replies (report :: more)
          = before.token.replies (report :: more) := by
  intro start reset reports before
  have hcount : (Command.reports .binary [.setTime true 1000]).length = 1 := by decide +kernel
  obtain ⟨report, hreport⟩ := List.length_eq_one_iff.mp hcount
  have htime : (Command.reports .binary [.setTime true 1000]).map (Command.ofReport? .binary)
      = [some (.setTime true 1000)] := by decide +kernel
  rw [hreport] at htime
  have htime : Command.ofReport? .binary report = some (.setTime true 1000) :=
    List.singleton_inj.mp htime
  have hreset : JustReset (start.run (Command.reports .binary [reset])).past := by decide +kernel
  have hreset' : JustReset (start.run reports).past := by decide +kernel
  obtain ⟨-, -, hreplies, -⟩ := reset_forgets .factory (Command.reports .binary [reset]) reports
    report 1000 hreset hreset' htime
  exact ⟨by decide +kernel, report, htime, hreplies⟩

end OtpToken
