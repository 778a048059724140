/-
  OtpToken.Proofs.Token.Lockout
  ─────────────────────────────
  **RETRIES ARE COUNTED, AND A LOCKED ROLE STAYS LOCKED.**

  `Account.ofPast` computes PIN and attempts of a role from the past alone,
  and `account_run` says that the token has just these.  What follows is
  arithmetic on the past: as long as nothing restores the attempts of a role,
  the attempts that it has left and the wrong guesses that were looked at add
  up to what it had (`attempts_add_wrongGuesses`), so there are at most three
  of them in a row.

  Nothing but its own PIN brings a locked admin back, and that PIN is not
  looked at any more; a locked user comes back through the admin only.
-/
import OtpToken.Proofs.Token.Account
import OtpToken.Proofs.Token.Dialogue

namespace OtpToken

/-! ## §1. Accounts from the past. -/

/-- The commands that give a role all attempts whatever its PIN. -/
def CommandId.refills : Role → CommandId → Bool
  | .user, unlockUserPassword => true
  | _, factoryReset => true
  | _, _ => false

namespace Account

/-- The account of a role after one exchange. -/
def next (config : TokenConfig) (role : Role) (x : Exchange) (a : Account) : Account :=
  match x.command? with
  | some c => a.after config role c x.status.isOk
  | none => a

/-- The account of a role after everything that was said, the last exchange
first. -/
def ofPast (config : TokenConfig) (role : Role) : List Exchange → Account
  | [] => factory config role
  | x :: past => (ofPast config role past).next config role x

end Account

/-- **PIN and attempts of every role are those that the past gives.** -/
theorem account_run (config : TokenConfig) (reports : List Report) (role : Role) :
    ((Dialogue.start config).run reports).token.session.account role
      = Account.ofPast config role ((Dialogue.start config).run reports).past := by
  revert role
  refine Dialogue.start_induction (I := fun d => ∀ role,
    d.token.session.account role = Account.ofPast config role d.past) ?_ ?_ reports
  · intro role
    cases role <;> rfl
  · intro reports report haccount role
    obtain ⟨hconfig, hplug⟩ := Dialogue.fixed_run config reports
    obtain ⟨reply, -, hpast, ⟨hnone, -, htoken⟩ | ⟨c, answer, hc, heffect, hstatus⟩⟩ :=
      Dialogue.hear_cases hplug report
    · rw [htoken, haccount, hpast, Account.ofPast, Account.next, hnone]
    · rw [heffect.account_eq role, haccount, hconfig, hpast, Account.ofPast, Account.next, hc,
        hstatus]

/-! ## §2. Guesses. -/

/-- The PIN of a role that an exchange presented. -/
def Exchange.presents? (x : Exchange) (role : Role) : Option Secret :=
  x.command?.bind fun c => c.pinFor? role

namespace Account

variable {config : TokenConfig} {role : Role} {x : Exchange} {a : Account}

/-- A wrong PIN was presented while an attempt was left. -/
def guessesWrong (role : Role) (x : Exchange) (a : Account) : Bool :=
  (x.presents? role).any fun pin => decide (0 < a.attempts ∧ pin.bytes ≠ a.pin)

/-- The exchange gave the role all attempts: its right PIN was presented
while an attempt was left, or a command that refills it was done. -/
def Restored (role : Role) (x : Exchange) (a : Account) : Prop :=
  (∃ pin, x.presents? role = some pin ∧ a.accepts pin.bytes = true)
    ∨ x.Did fun c => c.id.refills role = true

/-- How many wrong guesses were looked at in the exchanges `recent`, after
those in `past`. -/
def wrongGuesses (config : TokenConfig) (role : Role) (past : List Exchange) :
    List Exchange → Nat
  | [] => 0
  | x :: recent =>
      (if guessesWrong role x (ofPast config role (recent ++ past)) then 1 else 0)
        + wrongGuesses config role past recent

/-- Unless it is refilled, an account has the attempts that the PIN that was
tried left it. -/
theorem attempts_after {c : Command} {done : Bool}
    (h : done = true → c.id.refills role = false) :
    (a.after config role c done).attempts
      = match c.pinFor? role with
        | some pin => (a.tried pin.bytes).attempts
        | none => a.attempts := by
  cases c <;> cases role <;> cases done <;> first | rfl | cases h rfl

/-- **Unless something restores them, attempts are spent one by one on wrong
guesses.** -/
theorem attempts_next (config : TokenConfig) (h : ¬ Restored role x a) :
    (a.next config role x).attempts + (if guessesWrong role x a then 1 else 0) = a.attempts := by
  unfold next guessesWrong Exchange.presents?
  cases hc : x.command? with
  | none => rfl
  | some c =>
    have hrefill : x.status.isOk = true → c.id.refills role = false := by
      intro hok
      refine Bool.eq_false_iff.mpr fun e => h (.inr ?_)
      exact (Exchange.did_iff hc).mpr ⟨of_decide_eq_true hok, e⟩
    dsimp only
    rw [attempts_after hrefill, Option.bind_some]
    cases hp : c.pinFor? role with
    | none => rfl
    | some pin =>
      dsimp only
      rw [Option.any_some]
      unfold tried
      -- none left, the right PIN, a wrong one
      by_cases h0 : a.attempts = 0
      · rw [if_pos h0, if_neg (by simp [h0]), Nat.add_zero]
      · rw [if_neg h0]
        by_cases hpin : pin.bytes = a.pin
        · have haccepts : a.accepts pin.bytes = true :=
            decide_eq_true ⟨Nat.pos_of_ne_zero h0, hpin⟩
          refine absurd (.inl ⟨pin, ?_, haccepts⟩) h
          show x.command?.bind _ = _
          rw [hc, Option.bind_some, hp]
        · rw [if_neg hpin, if_pos (decide_eq_true ⟨Nat.pos_of_ne_zero h0, hpin⟩)]
          show a.attempts - 1 + 1 = a.attempts
          omega

/-- **While nothing restores the attempts of a role, those that are left and
the wrong guesses add up to those that were there.** -/
theorem attempts_add_wrongGuesses (config : TokenConfig) (role : Role)
    (recent past : List Exchange)
    (h : ∀ later x older, recent = later ++ x :: older →
      ¬ Restored role x (ofPast config role (older ++ past))) :
    (ofPast config role (recent ++ past)).attempts + wrongGuesses config role past recent
      = (ofPast config role past).attempts := by
  induction recent with
  | nil => rfl
  | cons x recent ih =>
    have hx : ¬ Restored role x (ofPast config role (recent ++ past)) := h [] x recent rfl
    have hrecent := ih fun later y older e => h (x :: later) y older (by rw [e]; rfl)
    have hnext := attempts_next config hx
    rw [wrongGuesses, List.cons_append, ofPast]
    omega

/-- A role without attempts gets none as long as nothing refills it. -/
theorem attempts_ofPast_eq_zero (config : TokenConfig) (role : Role) {recent past : List Exchange}
    (h0 : (ofPast config role past).attempts = 0)
    (h : ∀ x ∈ recent, ¬ x.Did fun c => c.id.refills role = true) :
    (ofPast config role (recent ++ past)).attempts = 0 := by
  induction recent with
  | nil => exact h0
  | cons x recent ih =>
    obtain ⟨hx, hrecent⟩ := List.forall_mem_cons.mp h
    have h0 := ih hrecent
    have hnot : ¬ Restored role x (ofPast config role (recent ++ past)) := by
      rintro (⟨pin, -, haccepts⟩ | hdid)
      · have := (of_decide_eq_true haccepts).1
        omega
      · exact hx hdid
    have hnext := attempts_next config hnot
    rw [List.cons_append, ofPast]
    omega

theorem attempts_tried_le (h : a.attempts ≤ maxRetries) (pin : Bytes) :
    (a.tried pin).attempts ≤ maxRetries := by
  unfold tried
  split
  · exact h
  split
  · exact Nat.le_refl _
  · exact Nat.le_trans (Nat.sub_le _ _) h

theorem attempts_after_le (h : a.attempts ≤ maxRetries) (c : Command) (done : Bool) :
    (a.after config role c done).attempts ≤ maxRetries := by
  by_cases hrefill : done = true ∧ c.id.refills role = true
  · obtain ⟨rfl, hrefill⟩ := hrefill
    cases c <;> cases role <;>
      first | exact Nat.le_refl _ | exact Nat.zero_le _ | cases hrefill
  · rw [attempts_after fun hdone => Bool.eq_false_iff.mpr fun e => hrefill ⟨hdone, e⟩]
    split
    · exact attempts_tried_le h _
    · exact h

/-- **No account ever has more attempts than there are.** -/
theorem attempts_ofPast_le (config : TokenConfig) (role : Role) (past : List Exchange) :
    (ofPast config role past).attempts ≤ maxRetries := by
  induction past with
  | nil => cases role <;> first | exact Nat.le_refl _ | exact Nat.zero_le _
  | cons x past ih =>
    unfold ofPast next
    split
    · exact attempts_after_le ih _ _
    · exact ih

end Account

/-! ## §3. Locked roles. -/

namespace Dialogue

theorem retryCount_run (config : TokenConfig) (reports : List Report) (role : Role) :
    ((start config).run reports).token.session.retryCount role
      = (Account.ofPast config role ((start config).run reports).past).attempts := by
  rw [← Session.account_retryCount, account_run]

/-- A factory reset takes the admin's PIN, so a locked admin stays locked. -/
theorem admin_locked_hear {d : Dialogue} (hplug : d.token.pluggedIn = true)
    (h0 : d.token.session.retryCount .admin = 0) (report : Report) :
    (d.hear report).token.session.retryCount .admin = 0 := by
  rw [← Session.account_retryCount] at h0 ⊢
  obtain ⟨reply, -, -, ⟨-, -, htoken⟩ | ⟨c, answer, -, heffect, -⟩⟩ := hear_cases hplug report
  · rw [htoken]
    exact h0
  · -- no PIN of the admin is taken any more, so nothing that asks for it is done
    have hrefused : ∀ pin, c.check? = some (.admin, pin) → answer.status ≠ .ok := by
      intro pin hcheck hok
      have haccepts := (heffect.ne_wrongPassword_iff hcheck).mp (by rw [hok]; decide)
      have := (of_decide_eq_true haccepts).1
      omega
    have hrefill : answer.status.isOk = true → c.id.refills .admin = false := by
      intro hok
      cases c with
      | factoryReset pin => exact absurd (of_decide_eq_true hok) (hrefused pin rfl)
      | _ => rfl
    rw [heffect.account_eq .admin, Account.attempts_after hrefill]
    cases c.pinFor? .admin with
    | none => exact h0
    | some pin =>
      show (Account.tried _ _).attempts = 0
      rw [Account.tried, if_pos h0]
      exact h0

/-- **An admin lockout is permanent.** -/
theorem admin_locked_run {config : TokenConfig} {d : Dialogue} (h : d.Fixed config)
    (h0 : d.token.session.retryCount .admin = 0) (more : List Report) :
    (d.run more).token.session.retryCount .admin = 0 := by
  refine (run_induction
    (I := fun d => d.Fixed config ∧ d.token.session.retryCount .admin = 0) ⟨h, h0⟩ ?_ more).2
  rintro d report ⟨hfixed, h0⟩
  exact ⟨hfixed.hear report, admin_locked_hear hfixed.2 h0 report⟩

end Dialogue

/-- **Retries and lockouts, over every run.**  Whatever reports a token has
heard,

* the attempts of a role are those that the past gives, and at most three;
* the next report is replied to, a PIN in it is taken exactly when an attempt
  is left and it is the PIN that was last set, and a report without the PIN of
  a role that does not refill it leaves its attempts alone;
* in a stretch of the past in which nothing restored the attempts of a role,
  at most three wrong guesses were looked at;
* a locked admin stays locked, whatever is sent;
* a locked user stays locked until a command of the admin that unlocks or
  resets is done. -/
theorem retries_over_runs (config : TokenConfig) (reports : List Report) :
    let d := (Dialogue.start config).run reports
    (∀ role, d.token.session.retryCount role = (Account.ofPast config role d.past).attempts
        ∧ d.token.session.retryCount role ≤ 3)
      ∧ (∀ report, ∃ reply, d.token.send report = (.ok reply, (d.hear report).token)
          ∧ let x := Exchange.seen d.token.encoding report reply
            (d.hear report).past = x :: d.past
          ∧ (∀ role pin, x.presents? role = some pin →
              (x.status ≠ .wrongPassword
                ↔ (Account.ofPast config role d.past).accepts pin.bytes = true))
          ∧ (∀ role, x.presents? role = none → (¬ x.Did fun c => c.id.refills role = true) →
              (d.hear report).token.session.retryCount role
                = d.token.session.retryCount role))
      ∧ (∀ role recent past, d.past = recent ++ past →
          (∀ later x older, recent = later ++ x :: older →
            ¬ Account.Restored role x (Account.ofPast config role (older ++ past))) →
          Account.wrongGuesses config role past recent ≤ 3)
      ∧ (d.token.session.retryCount .admin = 0 →
          ∀ more, (d.run more).token.session.retryCount .admin = 0)
      ∧ (d.token.session.retryCount .user = 0 → ∀ more,
          (d.run more).token.session.retryCount .user ≠ 0 →
          ∃ recent, (d.run more).past = recent ++ d.past
            ∧ ∃ x ∈ recent, x.Did fun c => c.id = .unlockUserPassword ∨ c.id = .factoryReset) := by
  intro d
  have hfixed : d.Fixed config := Dialogue.fixed_run config reports
  have hcount := Dialogue.retryCount_run config reports
  refine ⟨fun role => ?_, fun report => ?_, ?_, ?_, ?_⟩
  · exact ⟨hcount role, hcount role ▸ Account.attempts_ofPast_le config role d.past⟩
  · have hnext := Dialogue.retryCount_run config (reports ++ [report])
    rw [Dialogue.run_append] at hnext
    obtain ⟨reply, hsend, hpast, h⟩ := Dialogue.hear_cases hfixed.2 report
    refine ⟨reply, hsend, hpast, ?_, ?_⟩
    · -- the verdict on a PIN that was presented
      intro role pin hpin
      rcases h with ⟨hnone, -, -⟩ | ⟨c, answer, hc, heffect, hstatus⟩
      · rw [Exchange.presents?, hnone] at hpin
        cases hpin
      · rw [Exchange.presents?, hc, Option.bind_some] at hpin
        rw [hstatus, ← account_run config reports role]
        exact heffect.ne_wrongPassword_iff (Command.check?_of_pinFor hpin)
    · -- without a PIN nothing is spent, and without a refill nothing is restored
      intro role hnone hrefill
      have hkept : ¬ Account.Restored role (.seen d.token.encoding report reply)
          (Account.ofPast config role d.past) := by
        rintro (⟨pin, hpin, -⟩ | hdid)
        · cases hnone.symm.trans hpin
        · exact hrefill hdid
      have hadd := Account.attempts_next config hkept
      have hright : Account.guessesWrong role (.seen d.token.encoding report reply)
          (Account.ofPast config role d.past) = false := by
        rw [Account.guessesWrong, hnone]
        rfl
      rw [hright] at hadd
      show ((Dialogue.start config).run reports |>.run [report]).token.session.retryCount role = _
      rw [hnext role, hcount role]
      show (Account.ofPast config role (d.hear report).past).attempts = _
      rw [hpast]
      exact hadd
  · -- at most three attempts were there to be spent
    intro role recent past _ h
    have hadd := Account.attempts_add_wrongGuesses config role recent past h
    have hle : _ ≤ 3 := Account.attempts_ofPast_le config role past
    omega
  · exact fun h0 more => Dialogue.admin_locked_run hfixed h0 more
  · intro h0 more hne
    obtain ⟨recent, hrecent⟩ := hfixed.exists_recent more
    refine ⟨recent, hrecent, ?_⟩
    -- without such a command the attempts would still be zero
    by_cases hdid : ∃ x ∈ recent, x.Did fun c => c.id.refills .user = true
    · obtain ⟨x, hx, hok, c, hc, hrefills⟩ := hdid
      refine ⟨x, hx, hok, c, hc, ?_⟩
      cases hid : c.id with
      | unlockUserPassword => exact .inl hid
      | factoryReset => exact .inr hid
      | _ => rw [hid] at hrefills; cases hrefills
    · have hmore := Dialogue.retryCount_run config (reports ++ more) .user
      rw [Dialogue.run_append] at hmore
      refine absurd (hmore.trans ?_) hne
      show (Account.ofPast config .user (d.run more).past).attempts = 0
      rw [hrecent]
      refine Account.attempts_ofPast_eq_zero config .user ?_ fun x hx h => hdid ⟨x, hx, h⟩
      exact (hcount .user).symm.trans h0

end OtpToken
