/-
  OtpToken.Proofs.Token.SafeGate
  ──────────────────────────────
  **THE PASSWORD SAFE IS OPEN WHEN THE PAST SAYS SO.**

  `SafeOpen config past` reads off the past alone whether the Password Safe is
  open: of the four commands that move its gate the last one that was done
  opened it, and it did so with the user's PIN of that moment, to a user who
  was not locked, at a token whose AES key had not been lost in a factory
  reset.

      opens    enableSafe
      closes   lockDevice, factoryReset, newAesKey

  `safeOpen_run` says that the token agrees; `safe_over_runs` says what this
  means for the seven commands about Password Safe slots.
-/
import OtpToken.Proofs.Token.Lockout

namespace OtpToken

/-! ## §1. Gate and key in the past. -/

/-- The commands that move the gate of the Password Safe when they are
done. -/
def CommandId.movesGate : CommandId → Bool
  | enableSafe | lockDevice | factoryReset | newAesKey => true
  | _ => false

/-- A factory reset was done, and no new AES key since. -/
def KeyLost (past : List Exchange) : Prop :=
  Since (fun x _ => x.Did fun c => c.id = .factoryReset)
    (fun x => ¬ x.Did fun c => c.id = .newAesKey) past

/-- A key is lost by a reset and comes back by a new one. -/
theorem not_keyLost_cons_iff {x : Exchange} {past : List Exchange} :
    ¬ KeyLost (x :: past)
      ↔ ¬ (x.Did fun c => c.id = .factoryReset)
        ∧ ((x.Did fun c => c.id = .newAesKey) ∨ ¬ KeyLost past) := by
  rw [KeyLost, since_cons_iff]
  constructor
  · intro h
    refine ⟨fun hreset => h (.inl hreset), ?_⟩
    by_cases hnew : x.Did fun c => c.id = .newAesKey
    · exact .inl hnew
    · exact .inr fun hlost => h (.inr ⟨hnew, hlost⟩)
  · rintro ⟨hreset, hnew | hkept⟩ (h | ⟨h, hlost⟩)
    · exact hreset h
    · exact h hnew
    · exact hreset h
    · exact hkept hlost

/-- The Password Safe was enabled, with the right PIN of a user who was not
locked and while the AES key was not lost. -/
def Exchange.OpensSafe (config : TokenConfig) (x : Exchange) (earlier : List Exchange) : Prop :=
  x.Did fun c => ∃ pin, c = .enableSafe pin
    ∧ (Account.ofPast config .user earlier).accepts pin.bytes = true ∧ ¬ KeyLost earlier

/-- The last command that moved the gate opened it, and rightly so. -/
def SafeOpen (config : TokenConfig) (past : List Exchange) : Prop :=
  Since (Exchange.OpensSafe config) (fun x => ¬ x.Did fun c => c.id.movesGate = true) past

/-- The last exchange opened the gate, or it did not move it. -/
theorem safeOpen_cons_iff {config : TokenConfig} {x : Exchange} {past : List Exchange} :
    SafeOpen config (x :: past)
      ↔ x.OpensSafe config past
        ∨ (¬ x.Did fun c => c.id.movesGate = true) ∧ SafeOpen config past := by
  rw [SafeOpen, since_cons_iff]
  rfl

/-! ## §2. The token agrees. -/

variable {config : TokenConfig} {d : Dialogue} {report reply : Report} {c : Command}
  {answer : Answer}

/-- A gate that was just closed is not open. -/
theorem not_opens_of_moved {x : Exchange} {past : List Exchange} (hc : x.command? = some c)
    (hmoves : c.id.movesGate = true) (hok : x.status = .ok) (hid : c.id ≠ .enableSafe)
    {P : Prop} : ¬ (x.OpensSafe config past ∨ (¬ x.Did fun c => c.id.movesGate = true) ∧ P) := by
  rintro (⟨-, c', hc', pin, rfl, -⟩ | ⟨h, -⟩)
  · cases hc.symm.trans hc'
    exact hid rfl
  · exact h ⟨hok, c, hc, hmoves⟩

/-- **What one command does to the gate, in terms of the past.** -/
theorem gate_iff {x : Exchange} {t t' : Token} {past : List Exchange}
    (hc : x.command? = some c) (heffect : t.Effect c (answer, t'))
    (hstatus : x.status = answer.status)
    (haccount : t.session.account .user = Account.ofPast config .user past)
    (hkey : t.keyValid = true ↔ ¬ KeyLost past) :
    t'.safeEnabled = true
      ↔ x.OpensSafe config past
        ∨ (¬ x.Did fun c => c.id.movesGate = true) ∧ t.safeEnabled = true := by
  have hswitch : t'.safeEnabled
      = (if answer.status = .ok then c.turn t.switches else t.switches).safeEnabled :=
    congrArg Switches.safeEnabled heffect.switches_eq
  rw [hswitch]
  by_cases hok : answer.status = .ok
  · rw [if_pos hok]
    cases c with
    | enableSafe pin =>
      -- the token has looked at the PIN and the key
      obtain ⟨haccepts, hvalid⟩ := heffect.of_safeOpened hok
      refine iff_of_true rfl (.inl ⟨hstatus.trans hok, _, hc, pin, rfl, ?_, hkey.mp hvalid⟩)
      rw [← haccount, ← haccepts]
      exact Credential.accepts_account t.session.user pin.bytes
    | lockDevice =>
      refine iff_of_false Bool.false_ne_true ?_
      exact not_opens_of_moved hc rfl (hstatus.trans hok) CommandId.noConfusion
    | factoryReset pin =>
      refine iff_of_false Bool.false_ne_true ?_
      exact not_opens_of_moved hc rfl (hstatus.trans hok) CommandId.noConfusion
    | newAesKey pin =>
      refine iff_of_false Bool.false_ne_true ?_
      exact not_opens_of_moved hc rfl (hstatus.trans hok) CommandId.noConfusion
    | _ =>
      rw [Exchange.OpensSafe, Exchange.did_iff hc, Exchange.did_iff hc]
      constructor
      · exact fun h => .inr ⟨fun h' => Bool.false_ne_true h'.2, h⟩
      · rintro (⟨-, pin, hpin, -⟩ | ⟨-, h⟩)
        · cases hpin
        · exact h
  · -- refused: nothing was done, and the gate stays
    rw [if_neg hok]
    have hnot : ∀ Q, ¬ x.Did Q := fun Q h => hok (hstatus.symm.trans h.1)
    constructor
    · exact fun h => .inr ⟨hnot _, h⟩
    · rintro (h | ⟨-, h⟩)
      · exact absurd h (hnot _)
      · exact h

/-- What one command does to the AES key, in terms of the past. -/
theorem key_iff {x : Exchange} {t t' : Token} (hc : x.command? = some c)
    (heffect : t.Effect c (answer, t')) (hstatus : x.status = answer.status) :
    t'.keyValid = true
      ↔ ¬ (x.Did fun c => c.id = .factoryReset)
        ∧ ((x.Did fun c => c.id = .newAesKey) ∨ t.keyValid = true) := by
  have hswitch : t'.keyValid
      = (if answer.status = .ok then c.turn t.switches else t.switches).keyValid :=
    congrArg Switches.keyValid heffect.switches_eq
  rw [hswitch, Exchange.did_iff hc, Exchange.did_iff hc, hstatus]
  by_cases hok : answer.status = .ok
  · rw [if_pos hok]
    cases c with
    | factoryReset pin => exact iff_of_false Bool.false_ne_true fun h => h.1 ⟨hok, rfl⟩
    | newAesKey pin =>
      exact iff_of_true rfl ⟨fun h => CommandId.noConfusion h.2, .inl ⟨hok, rfl⟩⟩
    | _ =>
      constructor
      · exact fun h => ⟨fun h' => CommandId.noConfusion h'.2, .inr h⟩
      · rintro ⟨-, ⟨-, h⟩ | h⟩
        · cases h
        · exact h
  · rw [if_neg hok]
    constructor
    · exact fun h => ⟨fun h' => hok h'.1, .inr h⟩
    · rintro ⟨-, ⟨h, -⟩ | h⟩
      · exact absurd h hok
      · exact h

/-- **Gate and key of the token are those that the past gives.** -/
theorem safeOpen_run (config : TokenConfig) (reports : List Report) :
    let d := (Dialogue.start config).run reports
    (d.token.keyValid = true ↔ ¬ KeyLost d.past)
      ∧ (d.token.safeEnabled = true ↔ SafeOpen config d.past) := by
  refine Dialogue.start_induction (I := fun d => (d.token.keyValid = true ↔ ¬ KeyLost d.past)
    ∧ (d.token.safeEnabled = true ↔ SafeOpen config d.past)) ?_ ?_ reports
  · refine ⟨iff_of_true rfl not_since_nil, ?_⟩
    exact iff_of_false Bool.false_ne_true not_since_nil
  · rintro reports report ⟨hkey, hopen⟩
    have haccount := account_run config reports .user
    obtain ⟨reply, -, hpast, ⟨hnone, -, htoken⟩ | ⟨c, answer, hc, heffect, hstatus⟩⟩ :=
      Dialogue.hear_cases (Dialogue.fixed_run config reports).2 report
    · -- nothing was understood, and nothing changed
      rw [htoken, hpast, KeyLost, SafeOpen, since_cons_iff, since_cons_iff, Exchange.OpensSafe]
      simp only [Exchange.not_did hnone, not_false_eq_true, true_and, false_or]
      exact ⟨hkey, hopen⟩
    · rw [hpast, key_iff hc heffect hstatus, hkey, gate_iff hc heffect hstatus haccount hkey,
        hopen]
      exact ⟨not_keyLost_cons_iff.symm, safeOpen_cons_iff.symm⟩

/-! ## §3. What an open Password Safe is for. -/

theorem Token.allows_of_usesSafe {t : Token} (h : c.id.usesSafe = true) :
    t.allows c = t.safeEnabled := by
  cases c <;> first | rfl | cases h

/-- **The Password Safe, over every run.**  Whatever reports a token has
heard, the next one is replied to, and

* a report for one of the seven commands about Password Safe slots is done
  only while the past says that the Password Safe is open, and else it is
  answered `notAuthorized`, whatever else is in it, and nothing at all changes;
* what is in the Password Safe changes only by such a command while it is
  open, by a factory reset, or by a new AES key, each of them done. -/
theorem safe_over_runs (config : TokenConfig) (reports : List Report) (report : Report) :
    let before := (Dialogue.start config).run reports
    let after := before.hear report
    ∃ reply, before.token.send report = (.ok reply, after.token)
      ∧ let x := Exchange.seen before.token.encoding report reply
        after.past = x :: before.past
      ∧ (∀ q id, Request.ofReport report = .ok q → CommandId.ofByte? q.command = some id →
          id.usesSafe = true →
          (x.status = .ok → SafeOpen config before.past)
          ∧ (¬ SafeOpen config before.past →
              x.status = .notAuthorized ∧ after.token = before.token))
      ∧ (after.token.store.safe = before.token.store.safe
          ∨ x.Did fun c => (c.id.usesSafe = true ∧ SafeOpen config before.past)
              ∨ c.id = .factoryReset ∨ c.id = .newAesKey) := by
  intro before after
  have hopen : before.token.safeEnabled = true ↔ SafeOpen config before.past :=
    (safeOpen_run config reports).2
  obtain ⟨reply, hsend, hpast, h⟩ :=
    Dialogue.hear_cases (Dialogue.fixed_run config reports).2 report
  refine ⟨reply, hsend, hpast, ?_, ?_⟩
  · -- such a report always carries a command, whatever follows its first byte
    intro q id hq hid huses
    obtain ⟨c, rfl, hc⟩ := Command.ofReport?_of_total before.token.encoding hq hid
      (fun e => by rw [e] at huses; cases huses) (fun e => by rw [e] at huses; cases huses)
    rcases h with ⟨hnone, -, -⟩ | ⟨c', answer, hc', heffect, hstatus⟩
    · cases hc.symm.trans hnone
    · cases hc.symm.trans hc'
      have hallows := Token.allows_of_usesSafe (t := before.token) huses
      rw [hstatus]
      constructor
      · intro hok
        exact hopen.mp (hallows ▸ heffect.allows_of_ok hok)
      · intro hclosed
        have hbar : before.token.allows c = false :=
          hallows.trans (Bool.eq_false_iff.mpr fun e => hclosed (hopen.mp e))
        have hrefused := heffect.eq_of_barred hbar
        exact ⟨congrArg (fun r => Answer.status r.1) hrefused, congrArg Prod.snd hrefused⟩
  · rcases h with ⟨-, -, htoken⟩ | ⟨c, answer, hc, heffect, hstatus⟩
    · left
      show (before.hear report).token.store.safe = _
      rw [htoken]
    · rcases heffect.safe_eq with hsame | ⟨hok, hchange⟩
      · exact .inl hsame
      · refine .inr ((Exchange.did_iff hc).mpr ⟨hstatus.trans hok, ?_⟩)
        rcases hchange with ⟨huses, hpass⟩ | hother
        · exact .inl ⟨huses, hopen.mp (Token.allows_of_usesSafe huses ▸ hpass)⟩
        · exact .inr hother

end OtpToken
