/-
  OtpToken.Proofs.Token.Account
  ─────────────────────────────
  **PINS, ATTEMPTS AND TEMPORARY PASSWORDS OF A ROLE.**

  What the commands do to a role, said once for both roles and all commands.
  An `Account` is the PIN of a role and the attempts that it has left;
  `Account.after` is what a command makes of it, and depends on the command
  and on whether it was done, on nothing else.  `Session.temp?` is the live
  temporary password of a role; only logins set it (`Effect.temp?_eq`).

      a command that presents the PIN of the role     costs or restores attempts
      a command that gives the role a new PIN         sets the PIN when it is done
      every other command                             leaves the account alone
-/
import OtpToken.Proofs.Secret
import OtpToken.Proofs.Token.Change

namespace OtpToken

/-! ## §1. Accounts. -/

/-- The PIN that a command presents for a role. -/
def Command.pinFor? (c : Command) (role : Role) : Option Secret :=
  (c.check?.filter fun x => x.1 = role).map Prod.snd

theorem Command.pinFor?_of_check {c : Command} {role role' : Role} {pin : Secret}
    (h : c.check? = some (role', pin)) :
    c.pinFor? role = if role' = role then some pin else none := by
  unfold pinFor?
  rw [h]
  by_cases hr : role' = role
  · rw [if_pos hr, Option.filter_some, if_pos (decide_eq_true hr)]
    rfl
  · rw [if_neg hr, Option.filter_some, if_neg fun e => hr (of_decide_eq_true e)]
    rfl

theorem Command.check?_of_pinFor {c : Command} {role : Role} {pin : Secret}
    (h : c.pinFor? role = some pin) : c.check? = some (role, pin) := by
  cases hc : c.check? with
  | none =>
    unfold pinFor? at h
    rw [hc] at h
    cases h
  | some x =>
    obtain ⟨role', pin'⟩ := x
    rw [pinFor?_of_check hc] at h
    split at h
    · next hr =>
      cases h
      rw [hr]
    · cases h

/-- The PIN of a role and the attempts that it has left. -/
structure Account where
  pin : Bytes
  attempts : Nat
  deriving DecidableEq

namespace Account

/-- The account of a role as it leaves the factory; nobody's is locked for
good. -/
def factory (config : TokenConfig) : Role → Account
  | .unauthenticated => ⟨[], 0⟩
  | .user => ⟨Utf8.encode config.userPin, maxRetries⟩
  | .admin => ⟨Utf8.encode config.adminPin, maxRetries⟩

/-- Whether a PIN is taken: there is an attempt left and it is the PIN. -/
def accepts (a : Account) (pin : Bytes) : Bool := decide (0 < a.attempts ∧ pin = a.pin)

/-- A PIN is tried: a right one restores all attempts, a wrong one costs one,
and with none left nothing happens. -/
def tried (a : Account) (pin : Bytes) : Account :=
  if a.attempts = 0 then a
  else if pin = a.pin then { a with attempts := maxRetries }
  else { a with attempts := a.attempts - 1 }

/-- The account of `role` after a command that was done or not. -/
def after (config : TokenConfig) (role : Role) (c : Command) (done : Bool) (a : Account) :
    Account :=
  let tried := match c.pinFor? role with
    | some pin => a.tried pin.bytes
    | none => a
  if !done then tried
  else match c with
    | .factoryReset _ => factory config role
    | .unlockUserPassword _ new => if role = .user then ⟨new.bytes, maxRetries⟩ else tried
    | .changeUserPin _ new => if role = .user then { tried with pin := new.bytes } else tried
    | .changeAdminPin _ new => if role = .admin then { tried with pin := new.bytes } else tried
    | _ => tried

variable {config : TokenConfig} {role role' : Role} {c : Command} {pin : Secret}

/-- A command without a PIN leaves every account alone. -/
theorem after_of_not_check (h : c.check? = none) (done : Bool) (a : Account) :
    a.after config role c done = a := by
  cases done <;> cases c <;> first | rfl | cases h

/-- A PIN that is tried counts for the role that has it, and the command that
tried it does no more as long as it is not done. -/
theorem after_false (h : c.check? = some (role', pin)) (a : Account) :
    a.after config role c false = if role' = role then a.tried pin.bytes else a := by
  unfold after
  rw [Command.pinFor?_of_check h]
  by_cases hr : role' = role
  · rw [if_pos hr, if_pos hr]
    rfl
  · rw [if_neg hr, if_neg hr]
    rfl

/-- A login that is done changes no more than the attempts. -/
theorem after_login {x : Role × Secret} (h : c.login? = some x) (a : Account) :
    a.after config role c true = a.after config role c false := by
  cases c <;> first | rfl | cases h

/-- A role that changes its PIN has tried the old one. -/
theorem after_newPin {old new : Secret} (hcheck : c.check? = some (role', old))
    (hnew : c.newPin? = some (role', new)) (a : Account) :
    a.after config role c true
      = if role' = role then { a.tried old.bytes with pin := new.bytes } else a := by
  cases c with
  | changeUserPin old' new' =>
    cases hcheck
    cases hnew
    cases role <;> rfl
  | changeAdminPin old' new' =>
    cases hcheck
    cases hnew
    cases role <;> rfl
  | unlockUserPassword adminPin new' =>
    cases hcheck
    cases hnew
  | _ => cases hnew

end Account

/-! ## §2. Accounts of a session. -/

/-- The account of a role in the state of that role. -/
def Credential.account (k : Credential) : Account := ⟨k.pin.bytes, k.retries.remaining⟩

namespace Credential

theorem accepts_account (k : Credential) (pin : Bytes) :
    k.account.accepts pin = k.accepts pin := by
  rw [Bool.eq_iff_iff, accepts_iff, Account.accepts, decide_eq_true_iff]
  exact and_congr Iff.rfl eq_comm

theorem account_tried (k : Credential) (pin : Bytes) :
    (k.tried pin).account = k.account.tried pin := by
  unfold tried Account.tried
  by_cases h : k.account.attempts = 0
  · have hlocked : k.retries.isLocked = true := decide_eq_true h
    rw [if_pos hlocked, if_pos h]
  · have hlocked : ¬ k.retries.isLocked = true := fun e => h (of_decide_eq_true e)
    rw [if_neg hlocked, if_neg h]
    by_cases hpin : pin = k.account.pin
    · rw [if_pos (Secret.agrees_iff.mpr hpin.symm), if_pos hpin]
      rfl
    · rw [if_neg fun e => hpin (Secret.agrees_iff.mp e).symm, if_neg hpin]
      rfl

theorem account_checked (k : Credential) (pin : Secret) (login : Option (Role × Secret)) :
    (k.checked pin login).account = k.account.tried pin.bytes := by
  rw [← account_tried]
  cases login with
  | none => rfl
  | some x => rfl

end Credential

namespace Session

variable {s : Session} {role role' : Role} {k k' : Credential}

/-- The account of a role; nobody has no PIN and no attempts. -/
def account (s : Session) (role : Role) : Account :=
  ((s.credential? role).map Credential.account).getD ⟨[], 0⟩

theorem account_of_credential (h : s.credential? role = some k) : s.account role = k.account := by
  rw [account, h]
  rfl

theorem credential?_update_self (h : s.credential? role = some k) :
    (s.update role k').credential? role = some k' := by
  cases role with
  | unauthenticated => cases h
  | user => rfl
  | admin => rfl

theorem credential?_update_of_ne (h : role' ≠ role) :
    (s.update role k').credential? role' = s.credential? role' := by
  cases role <;> cases role' <;> first | rfl | exact absurd rfl h

theorem account_invalidate (s : Session) (role role' : Role) :
    (s.invalidate role).account role' = s.account role' := by
  cases role <;> cases role' <;> rfl

theorem account_retryCount (s : Session) (role : Role) :
    (s.account role).attempts = s.retryCount role := by
  cases role <;> rfl

/-- What the state of one role becomes is the account of that role, and the
other role's account stays. -/
theorem account_update (h : s.credential? role = some k) (role' : Role) :
    (s.update role k').account role' = if role = role' then k'.account else s.account role' := by
  by_cases hr : role = role'
  · subst hr
    rw [if_pos rfl, account_of_credential (credential?_update_self h)]
  · rw [if_neg hr, account, credential?_update_of_ne fun e => hr e.symm]
    rfl

end Session

/-! ## §3. What commands make of an account. -/

namespace Token

variable {t : Token} {c : Command} {r : Answer × Token}

theorem check?_of_barred (h : t.allows c = false) : c.check? = none := by
  cases c <;> first | rfl | cases h

theorem check?_of_tells (h : c.id.tells = true) : c.check? = none := by
  cases c <;> first | rfl | cases h

theorem check?_of_usesSafe (h : c.id.usesSafe = true) : c.check? = none := by
  cases c <;> first | rfl | cases h

/-- A PIN that was tried, in a login or not, is all that an account notices
of a command that is not done. -/
theorem account_update_checked {role : Role} {pin : Secret} {k : Credential}
    (hcheck : c.check? = some (role, pin)) (hk : t.session.credential? role = some k)
    (login : Option (Role × Secret)) (role' : Role) :
    (t.session.update role (k.checked pin login)).account role'
      = (t.session.account role').after t.config role' c false := by
  rw [Session.account_update hk, Credential.account_checked, Account.after_false hcheck]
  by_cases hr : role = role'
  · subst hr
    rw [if_pos rfl, if_pos rfl, Session.account_of_credential hk]
  · rw [if_neg hr, if_neg hr]

namespace Effect

/-- **The account of a role after a command follows from the account before,
the command, and whether it was done.** -/
theorem account_eq (h : t.Effect c r) (role : Role) :
    r.2.session.account role
      = (t.session.account role).after t.config role c r.1.status.isOk := by
  have hadmin : t.session.credential? .admin = some t.session.admin := rfl
  have huser : t.session.credential? .user = some t.session.user := rfl
  cases h with
  -- a PIN was tried, and that is all
  | wrongPin hcheck hk _ => exact account_update_checked hcheck hk _ role
  | @failed c _ _ _ status hcheck _ hk _ hs =>
    have hdone : (Answer.status (.error status)).isOk = false :=
      decide_eq_false (of_mem_failures hs).1
    dsimp only
    rw [hdone]
    exact account_update_checked hcheck hk none role
  | loggedIn hcheck hlogin hk _ =>
    show _ = Account.after _ _ _ true _
    rw [Account.after_login hlogin]
    exact account_update_checked hcheck hk (some (role, _)) role
  | @safeOpened pin _ _ =>
    exact account_update_checked (c := .enableSafe pin) rfl huser none role
  | @keyDetected pin _ _ =>
    exact account_update_checked (c := .detectAes pin) rfl huser none role
  | @keyRenewed pin _ =>
    show (Session.invalidate _ _).account role = _
    rw [Session.account_invalidate]
    exact account_update_checked (c := .newAesKey pin) rfl hadmin none role
  -- a new PIN
  | @pinChanged c checked old new k hcheck hnew hk _ =>
    show (t.session.update _ _).account role = Account.after _ _ _ true _
    rw [Session.account_update hk, Account.after_newPin hcheck hnew]
    by_cases hr : checked = role
    · subst hr
      rw [if_pos rfl, if_pos rfl, Session.account_of_credential hk, ← Credential.account_tried]
      rfl
    · rw [if_neg hr, if_neg hr]
  | unlocked _ =>
    cases role with
    | unauthenticated => rfl
    | user => rfl
    | admin => exact Credential.account_tried _ _
  | reset _ => cases role <;> rfl
  -- nobody's PIN was tried
  | erased _ _ =>
    rw [Account.after_of_not_check rfl]
    exact Session.account_invalidate _ _ _
  | locked =>
    rw [Account.after_of_not_check rfl]
    exact Session.account_invalidate _ _ _
  | barred hbar => exact (Account.after_of_not_check (check?_of_barred hbar) _ _).symm
  | refused _ hcheck _ => exact (Account.after_of_not_check hcheck _ _).symm
  | told _ htells => exact (Account.after_of_not_check (check?_of_tells htells) _ _).symm
  | safeChanged _ huses => exact (Account.after_of_not_check (check?_of_usesSafe huses) _ _).symm
  | _ => exact (Account.after_of_not_check rfl _ _).symm

/-- **A PIN is taken exactly when an attempt is left and it is the PIN that
was last set.** -/
theorem ne_wrongPassword_iff {role : Role} {pin : Secret} (h : t.Effect c r)
    (hcheck : c.check? = some (role, pin)) :
    r.1.status ≠ .wrongPassword ↔ (t.session.account role).accepts pin.bytes = true := by
  -- the credential that was asked is that of the role whose PIN it is
  have haccount : ∀ {role' : Role} {pin' : Secret} {k : Credential},
      c.check? = some (role', pin') → t.session.credential? role' = some k →
      (t.session.account role).accepts pin.bytes = k.accepts pin'.bytes := by
    intro role' pin' k hcheck' hk
    cases hcheck.symm.trans hcheck'
    rw [Session.account_of_credential hk, Credential.accepts_account]
  have hadmin : t.session.credential? .admin = some t.session.admin := rfl
  have huser : t.session.credential? .user = some t.session.user := rfl
  cases h with
  -- a PIN was asked for: it was wrong, or it was right
  | wrongPin hcheck' hk hwrong =>
    rw [haccount hcheck' hk, hwrong]
    exact iff_of_false (fun h => h rfl) Bool.false_ne_true
  | failed hcheck' _ hk hright hs =>
    rw [haccount hcheck' hk, hright]
    exact iff_of_true (of_mem_failures hs).2.2.2 rfl
  | loggedIn hcheck' _ hk hright =>
    rw [haccount hcheck' hk, hright]
    exact iff_of_true Status.noConfusion rfl
  | pinChanged hcheck' _ hk hright =>
    rw [haccount hcheck' hk, hright]
    exact iff_of_true Status.noConfusion rfl
  | unlocked hright =>
    rw [haccount rfl hadmin, hright]
    exact iff_of_true Status.noConfusion rfl
  | reset hright =>
    rw [haccount rfl hadmin, hright]
    exact iff_of_true Status.noConfusion rfl
  | safeOpened hright _ =>
    rw [haccount rfl huser, hright]
    exact iff_of_true Status.noConfusion rfl
  | keyDetected hright =>
    rw [haccount rfl huser, hright]
    exact iff_of_true Status.noConfusion rfl
  | keyRenewed hright =>
    rw [haccount rfl hadmin, hright]
    exact iff_of_true Status.noConfusion rfl
  -- no PIN was asked for
  | barred hbar => cases (check?_of_barred hbar).symm.trans hcheck
  | refused _ hcheck' _ => cases hcheck'.symm.trans hcheck
  | told _ htells => cases (check?_of_tells htells).symm.trans hcheck
  | safeChanged _ huses => cases (check?_of_usesSafe huses).symm.trans hcheck
  | _ => cases hcheck

end Effect

end Token

/-! ## §4. Temporary passwords. -/

/-- The commands that end the session of a role when they are done. -/
def CommandId.ends : Role → CommandId → Bool
  | .admin, eraseSlot | .admin, newAesKey | .admin, factoryReset => true
  | .user, lockDevice | .user, unlockUserPassword | .user, factoryReset => true
  | _, _ => false

namespace Command

/-- The temporary password with which a command logs a role in. -/
def loginFor? (c : Command) (role : Role) : Option Secret :=
  (c.login?.filter fun x => x.1 = role).map Prod.snd

/-- The live temporary password of a role after a command that was done or
not. -/
def liveAfter (role : Role) (c : Command) (done : Bool) (live : Option Bytes) : Option Bytes :=
  match c.loginFor? role with
  | some temp => if done then some temp.bytes else none
  | none => if done && c.id.ends role then none else live

/-- A login is answered with the live temporary password of the role, and a
login that fails leaves none. -/
theorem liveAfter_of_login {c : Command} {role role' : Role} {temp : Secret}
    (h : c.login? = some (role', temp)) (done : Bool) (live : Option Bytes) :
    c.liveAfter role done live
      = if role' = role then (if done then some temp.bytes else none) else live := by
  cases c with
  | firstAuthenticate _ _ => cases h; cases role <;> cases done <;> rfl
  | userAuthenticate _ _ => cases h; cases role <;> cases done <;> rfl
  | _ => cases h

/-- Neither a login of the role nor the end of its session. -/
theorem liveAfter_of_not_login {c : Command} {role : Role} {done : Bool} (hlogin : c.login? = none)
    (hends : done = true → c.id.ends role = false) (live : Option Bytes) :
    c.liveAfter role done live = live := by
  unfold liveAfter loginFor?
  rw [hlogin]
  cases done with
  | false => rfl
  | true =>
    show (if c.id.ends role then none else live) = live
    rw [hends rfl]
    rfl

end Command

namespace Session

variable {s : Session} {role : Role} {k k' : Credential}

/-- The live temporary password of a role. -/
def temp? (s : Session) (role : Role) : Option Bytes :=
  ((s.credential? role).bind Credential.temp).map fun temp => temp.secret.bytes

/-- Who is logged in has a temporary password. -/
theorem isAuthenticated_eq (s : Session) (role : Role) :
    s.isAuthenticated role = (s.temp? role).isSome := by
  unfold isAuthenticated temp?
  rw [Option.isSome_map]

/-- **What authorises is the live temporary password, and it is not
empty.** -/
theorem admits_iff {presented : Bytes} :
    s.admits role presented = true ↔ presented ≠ [] ∧ s.temp? role = some presented := by
  unfold admits temp?
  cases (s.credential? role).bind Credential.temp with
  | none => simp
  | some temp =>
    show temp.admits presented = true ↔ _
    rw [TempPassword.admits_iff, Option.map_some, Option.some.injEq]

theorem temp?_update (h : s.credential? role = some k) (role' : Role) :
    (s.update role k').temp? role'
      = if role = role' then k'.temp.map fun temp => temp.secret.bytes else s.temp? role' := by
  by_cases hr : role = role'
  · subst hr
    rw [if_pos rfl, temp?, credential?_update_self h]
    rfl
  · rw [if_neg hr, temp?, credential?_update_of_ne fun e => hr e.symm]
    rfl

/-- A role that keeps its temporary password changes nobody's. -/
theorem temp?_update_of_eq (h : s.credential? role = some k) (htemp : k'.temp = k.temp)
    (role' : Role) : (s.update role k').temp? role' = s.temp? role' := by
  rw [temp?_update h, htemp]
  by_cases hr : role = role'
  · subst hr
    rw [if_pos rfl, temp?, h]
    rfl
  · rw [if_neg hr]

end Session

theorem Credential.temp_tried (k : Credential) (pin : Bytes) : (k.tried pin).temp = k.temp := by
  unfold tried
  split
  · rfl
  · rfl

namespace Token

variable {t : Token} {c : Command} {r : Answer × Token}

theorem ends_of_tells (h : c.id.tells = true) (role : Role) : c.id.ends role = false := by
  cases c <;> first | (cases role <;> rfl) | cases h

theorem ends_of_usesSafe (h : c.id.usesSafe = true) (role : Role) : c.id.ends role = false := by
  cases c <;> first | (cases role <;> rfl) | cases h

theorem login?_of_check (h : c.check? = none) : c.login? = none := by
  cases c <;> first | rfl | cases h

/-- A login presents the PIN of the role that logs in. -/
theorem role_of_login {role role' : Role} {pin temp : Secret}
    (hcheck : c.check? = some (role, pin)) (hlogin : c.login? = some (role', temp)) :
    role' = role := by
  cases c with
  | firstAuthenticate _ _ => cases hcheck; cases hlogin; rfl
  | userAuthenticate _ _ => cases hcheck; cases hlogin; rfl
  | _ => cases hlogin

/-- A login is all that shows of a PIN that was tried. -/
theorem temp?_update_checked {role' : Role} {pin : Secret} {k : Credential}
    (hcheck : c.check? = some (role', pin)) (hk : t.session.credential? role' = some k)
    (hlogin : k.accepts pin.bytes = true → c.login? ≠ none) (role : Role) :
    (t.session.update role' (k.checked pin c.login?)).temp? role
      = c.liveAfter role (k.accepts pin.bytes) (t.session.temp? role) := by
  cases hc : c.login? with
  | none =>
    rw [Command.liveAfter_of_not_login hc fun e => absurd hc (hlogin e)]
    exact Session.temp?_update_of_eq hk (Credential.temp_tried _ _) role
  | some x =>
    obtain ⟨role'', temp⟩ := x
    -- a login with the wrong PIN still drops the old temporary password
    obtain rfl := role_of_login hcheck hc
    rw [Command.liveAfter_of_login hc, Session.temp?_update hk]
    by_cases hr : role'' = role
    · rw [if_pos hr, if_pos hr]
      show Option.map _ (if k.accepts pin.bytes then some _ else none) = _
      cases k.accepts pin.bytes with
      | false => rfl
      | true => rfl
    · rw [if_neg hr, if_neg hr]

/-- A role that changes its PIN stays as logged in as it was. -/
theorem not_login_of_newPin {role' : Role} {old new : Secret}
    (hcheck : c.check? = some (role', old)) (hnew : c.newPin? = some (role', new)) :
    c.login? = none ∧ ∀ role, c.id.ends role = false := by
  cases c with
  | changeUserPin _ _ => exact ⟨rfl, fun role => by cases role <;> rfl⟩
  | changeAdminPin _ _ => exact ⟨rfl, fun role => by cases role <;> rfl⟩
  | unlockUserPassword _ _ => cases hcheck; cases hnew
  | _ => cases hnew

/-- **The live temporary password of a role after a command follows from the
one before, the command, and whether it was done.** -/
theorem Effect.temp?_eq (h : t.Effect c r) (role : Role) :
    r.2.session.temp? role
      = c.liveAfter role r.1.status.isOk (t.session.temp? role) := by
  have hadmin : t.session.credential? .admin = some t.session.admin := rfl
  have huser : t.session.credential? .user = some t.session.user := rfl
  have hoff : ∀ {status : Status}, status ≠ .ok → (Answer.status (.error status)).isOk = false :=
    fun h => decide_eq_false h
  cases h with
  -- logins
  | @loggedIn c role' pin temp k hcheck hlogin hk hright =>
    have h := temp?_update_checked hcheck hk (fun _ e => by rw [hlogin] at e; cases e) role
    rw [hlogin, hright] at h
    exact h
  | @wrongPin c role' pin k hcheck hk hwrong =>
    have h := temp?_update_checked hcheck hk (fun e => by rw [hwrong] at e; cases e) role
    rw [hwrong] at h
    exact h
  -- ends of sessions
  | erased _ _ => cases role <;> rfl
  | locked => cases role <;> rfl
  | reset _ => cases role <;> rfl
  | unlocked _ =>
    cases role with
    | unauthenticated => rfl
    | user => rfl
    | admin => exact congrArg (Option.map _) (Credential.temp_tried _ _)
  | keyRenewed _ =>
    cases role with
    | unauthenticated => rfl
    | user => rfl
    | admin => rfl
  -- a PIN that was right and ends no session
  | @failed c _ _ _ status hcheck hlogin hk _ hs =>
    dsimp only
    rw [hoff (of_mem_failures hs).1, Command.liveAfter_of_not_login hlogin (by simp)]
    exact Session.temp?_update_of_eq hk (Credential.temp_tried _ _) role
  | pinChanged hcheck hnew hk _ =>
    obtain ⟨hlogin, hends⟩ := not_login_of_newPin hcheck hnew
    rw [Command.liveAfter_of_not_login hlogin fun _ => hends role]
    refine Session.temp?_update_of_eq hk ?_ role
    exact Credential.temp_tried _ _
  | safeOpened _ _ =>
    rw [Command.liveAfter_of_not_login rfl fun _ => by cases role <;> rfl]
    exact Session.temp?_update_of_eq huser (Credential.temp_tried _ _) role
  | keyDetected _ =>
    rw [Command.liveAfter_of_not_login rfl fun _ => by cases role <;> rfl]
    exact Session.temp?_update_of_eq huser (Credential.temp_tried _ _) role
  -- no PIN
  | barred hbar =>
    exact (Command.liveAfter_of_not_login (login?_of_check (check?_of_barred hbar))
      (fun e => by cases e) _).symm
  | @refused c status _ hcheck hs =>
    dsimp only
    rw [hoff (Status.of_mem_refusals hs).1,
      Command.liveAfter_of_not_login (login?_of_check hcheck) (by simp)]
  | told _ htells =>
    exact (Command.liveAfter_of_not_login (login?_of_check (check?_of_tells htells))
      (fun _ => ends_of_tells htells role) _).symm
  | safeChanged _ huses =>
    exact (Command.liveAfter_of_not_login (login?_of_check (check?_of_usesSafe huses))
      (fun _ => ends_of_usesSafe huses role) _).symm
  | _ => exact (Command.liveAfter_of_not_login rfl (fun _ => by cases role <;> rfl) _).symm

end Token

/-! ## §5. Commands that store something. -/

/-- The commands of which slots are made. -/
def CommandId.stores : CommandId → Bool
  | sendOtpData | writeToSlot | setSafePrimary | setSafeLogin => true
  | _ => false

theorem Command.check?_of_stores {c : Command} (h : c.id.stores = true) : c.check? = none := by
  cases c <;> first | rfl | cases h

/-- **They leave PINs, attempts and temporary passwords alone**, however they
end. -/
theorem Token.Effect.session_of_stores {t : Token} {c : Command} {r : Answer × Token}
    (h : t.Effect c r) (hstores : c.id.stores = true) : r.2.session = t.session := by
  have hcheck := Command.check?_of_stores hstores
  cases h with
  | wrongPin hpin _ _ => cases hcheck.symm.trans hpin
  | failed hpin _ _ _ _ => cases hcheck.symm.trans hpin
  | loggedIn hpin _ _ _ => cases hcheck.symm.trans hpin
  | pinChanged hpin _ _ _ => cases hcheck.symm.trans hpin
  | erased _ _ => cases hstores
  | locked => cases hstores
  | unlocked _ => cases hstores
  | reset _ => cases hstores
  | safeOpened _ _ => cases hstores
  | keyDetected _ => cases hstores
  | keyRenewed _ => cases hstores
  | _ => rfl

end OtpToken
