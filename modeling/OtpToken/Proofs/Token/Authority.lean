/-
  OtpToken.Proofs.Token.Authority
  ───────────────────────────────
  **A TEMPORARY PASSWORD IS WORTH WHAT ITS LOGIN WAS WORTH.**

  `LoggedIn role temp past` reads off the past alone whether a role is logged
  in with a temporary password: its last login was done and asked for it, and
  no command that ends its session was done since.  `loggedIn_run` says that
  the live temporary password of the token is always the one that the past
  gives, whatever was sent.

      a command of the admin     sendOtpData, writeToSlot, writeConfig, eraseSlot
      ends the admin's session   eraseSlot, newAesKey, factoryReset
      ends the user's session    lockDevice, unlockUserPassword, factoryReset

  `authority_of_temp` puts this next to the guards: what a temporary password
  opens, and what cannot change without one.
-/
import OtpToken.Proofs.Token.Account
import OtpToken.Proofs.Token.Dialogue

namespace OtpToken

/-! ## §1. Logins in the past. -/

namespace Exchange

/-- A login of the role with this temporary password was done. -/
def LogsIn (x : Exchange) (role : Role) (temp : Bytes) : Prop :=
  x.Did fun c => ∃ secret, c.loginFor? role = some secret ∧ secret.bytes = temp

/-- A login of the role was tried. -/
def IsLogin (x : Exchange) (role : Role) : Prop :=
  ∃ c, x.command? = some c ∧ c.loginFor? role ≠ none

/-- A command that ends the session of the role was done. -/
def EndsSession (x : Exchange) (role : Role) : Prop := x.Did fun c => c.id.ends role = true

end Exchange

/-- The last login of the role was done and was for this temporary password,
and its session has not been ended since. -/
def LoggedIn (role : Role) (temp : Bytes) (past : List Exchange) : Prop :=
  Since (fun x _ => x.LogsIn role temp) (fun x => ¬ x.IsLogin role ∧ ¬ x.EndsSession role) past

/-- What was presented is not empty, and the role is logged in with it. -/
def Authorised (role : Role) (presented : Bytes) (past : List Exchange) : Prop :=
  presented ≠ [] ∧ LoggedIn role presented past

/-! ## §2. The past decides which temporary password is live. -/

/-- What a command makes of the live temporary password, as the exchange
tells it. -/
theorem liveAfter_eq_some_iff {x : Exchange} {c : Command} (hc : x.command? = some c)
    (role : Role) (live : Option Bytes) (temp : Bytes) :
    c.liveAfter role x.status.isOk live = some temp
      ↔ x.LogsIn role temp
        ∨ (¬ x.IsLogin role ∧ ¬ x.EndsSession role) ∧ live = some temp := by
  have hlogs : x.LogsIn role temp
      ↔ x.status = .ok ∧ ∃ secret, c.loginFor? role = some secret ∧ secret.bytes = temp :=
    Exchange.did_iff hc
  have hends : x.EndsSession role ↔ x.status = .ok ∧ c.id.ends role = true :=
    Exchange.did_iff hc
  have hlogin : x.IsLogin role ↔ c.loginFor? role ≠ none := by
    constructor
    · rintro ⟨c', hc', h⟩
      cases hc.symm.trans hc'
      exact h
    · exact fun h => ⟨c, hc, h⟩
  have hok : x.status.isOk = true ↔ x.status = .ok := decide_eq_true_iff
  rw [hlogs, hends, hlogin, ← hok, Command.liveAfter]
  cases c.loginFor? role with
  | some secret =>
    -- a login decides alone
    cases x.status.isOk <;> simp
  | none =>
    cases x.status.isOk <;> cases c.id.ends role <;> simp

/-- **At every moment the live temporary passwords are those that the past
gives.** -/
theorem loggedIn_run (config : TokenConfig) (reports : List Report) (role : Role) (temp : Bytes) :
    ((Dialogue.start config).run reports).token.session.temp? role = some temp
      ↔ LoggedIn role temp ((Dialogue.start config).run reports).past := by
  revert role temp
  refine Dialogue.start_induction (I := fun d => ∀ role temp,
    d.token.session.temp? role = some temp ↔ LoggedIn role temp d.past) ?_ ?_ reports
  · -- nobody is logged in at the start, and nothing was said
    intro role temp
    refine iff_of_false ?_ not_since_nil
    cases role <;> exact fun h => nomatch h
  · intro reports report hlive role temp
    obtain ⟨reply, -, hpast, ⟨hnone, -, htoken⟩ | ⟨c, answer, hc, heffect, hstatus⟩⟩ :=
      Dialogue.hear_cases (Dialogue.fixed_run config reports).2 report
    · -- nothing was understood, and nothing changed
      rw [htoken, hpast, LoggedIn, since_cons_iff, hlive]
      have hlogin : ¬ Exchange.IsLogin _ role := fun ⟨c, hc, _⟩ => nomatch hnone.symm.trans hc
      simp only [Exchange.LogsIn, Exchange.EndsSession, Exchange.not_did hnone, hlogin,
        not_false_eq_true, true_and, false_or, LoggedIn]
    · -- both sides go on from what was live before
      rw [heffect.temp?_eq role, hpast, LoggedIn, since_cons_iff, ← hstatus,
        liveAfter_eq_some_iff hc, hlive]
      rfl

/-! ## §3. What a temporary password opens. -/

/-- What is presented authorises exactly if the past says so. -/
theorem admits_iff_authorised (config : TokenConfig) (reports : List Report) (role : Role)
    (presented : Bytes) :
    ((Dialogue.start config).run reports).token.session.admits role presented = true
      ↔ Authorised role presented ((Dialogue.start config).run reports).past := by
  rw [Session.admits_iff, loggedIn_run, Authorised]

theorem Token.allows_of_adminTemp {t : Token} {c : Command} {temp : Secret}
    (h : c.adminTemp? = some temp) : t.allows c = t.session.admits .admin temp.bytes := by
  unfold allows
  rw [h]

/-- While codes are protected the user's temporary password stands before
them. -/
theorem Token.allows_getCode {t : Token} {number lastInterval : UInt8}
    {challenge lastTime : UInt64} {temp : Secret} (h : t.store.config.protectsCodes = true) :
    t.allows (.getCode number challenge lastTime lastInterval temp)
      = t.session.admits .user temp.bytes := by
  show (!t.store.config.protectsCodes || t.session.admits .user temp.bytes) = _
  rw [h]
  rfl

/-- **Temporary passwords, over every run.**  Whatever reports a token has
heard, the next one is replied to, and

* a report that carries no command is told so;
* a command of the admin that is done presented the temporary password that
  the admin is logged in with, and with it is never answered `notAuthorized`;
* the same holds for codes and the user while byte 3 of the config register
  is not zero;
* code slots and the config register stay as they are, except for a counter
  that moves on with its code, for such a command of the admin, and for a
  factory reset, each of them done. -/
theorem authority_of_temp (config : TokenConfig) (reports : List Report) (report : Report) :
    let before := (Dialogue.start config).run reports
    let after := before.hear report
    ∃ reply, before.token.send report = (.ok reply, after.token)
      ∧ let x := Exchange.seen before.token.encoding report reply
        after.past = x :: before.past
      ∧ (x.command? = none → x.status ∈ Token.unreadable)
      ∧ (∀ c temp, x.command? = some c → c.adminTemp? = some temp →
          (x.status = .ok → Authorised .admin temp.bytes before.past)
          ∧ (Authorised .admin temp.bytes before.past → x.status ≠ .notAuthorized))
      ∧ (∀ number challenge lastTime lastInterval temp,
          x.command? = some (.getCode number challenge lastTime lastInterval temp) →
          before.token.store.config.block.byte 3 ≠ 0 →
          (x.status = .ok → Authorised .user temp.bytes before.past)
          ∧ (Authorised .user temp.bytes before.past → x.status ≠ .notAuthorized))
      ∧ ((after.token.store.codes = before.token.store.codes
            ∧ after.token.store.config = before.token.store.config)
          ∨ x.Did fun c =>
            (c.id = .getCode ∧ before.token.store.codes.CountedOn after.token.store.codes
              ∧ after.token.store.config = before.token.store.config)
            ∨ (∃ temp, c.adminTemp? = some temp ∧ Authorised .admin temp.bytes before.past)
            ∨ c.id = .factoryReset) := by
  intro before after
  have hauth := admits_iff_authorised config reports
  obtain ⟨reply, hsend, hpast, ⟨hnone, hstatus, htoken⟩ | ⟨c, answer, hc, heffect, hstatus⟩⟩ :=
    Dialogue.hear_cases (Dialogue.fixed_run config reports).2 report
  · -- a report without a command
    refine ⟨reply, hsend, hpast, fun _ => hstatus, ?_, ?_, .inl ?_⟩
    · intro c temp hc
      cases hnone.symm.trans hc
    · intro number challenge lastTime lastInterval temp hc
      cases hnone.symm.trans hc
    · show (before.hear report).token.store.codes = _ ∧ (before.hear report).token.store.config = _
      rw [htoken]
      exact ⟨rfl, rfl⟩
  · -- whatever stands before the command, the guard and the past agree on it
    have hguard : ∀ {role : Role} {temp : Secret},
        before.token.allows c = before.token.session.admits role temp.bytes →
        (answer.status = .ok → Authorised role temp.bytes before.past)
        ∧ (Authorised role temp.bytes before.past → answer.status ≠ .notAuthorized) := by
      intro role temp hallows
      constructor
      · intro hok
        exact (hauth role _).mp (hallows ▸ heffect.allows_of_ok hok)
      · intro h
        exact heffect.ne_notAuthorized (hallows.trans ((hauth role _).mpr h))
    refine ⟨reply, hsend, hpast, ?_, ?_, ?_, ?_⟩
    · intro hnone
      cases hc.symm.trans hnone
    · intro c' temp hc' htemp
      cases hc.symm.trans hc'
      rw [hstatus]
      exact hguard (Token.allows_of_adminTemp htemp)
    · intro number challenge lastTime lastInterval temp hc' hprotects
      cases hc.symm.trans hc'
      rw [hstatus]
      exact hguard (Token.allows_getCode (bne_iff_ne.mpr hprotects))
    · -- what changed, changed by a command that was done
      rcases heffect.codes_config with hsame | ⟨hok, hchange⟩
      · exact .inl hsame
      · refine .inr ((Exchange.did_iff hc).mpr ⟨hstatus.trans hok, ?_⟩)
        rcases hchange with hcount | ⟨temp, htemp, hadmits⟩ | hreset
        · exact .inl hcount
        · exact .inr (.inl ⟨temp, htemp, (hauth .admin _).mp hadmits⟩)
        · exact .inr (.inr hreset)

end OtpToken
