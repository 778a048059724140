/-
  OtpToken.Proofs.Session
  ───────────────────────
  **WHEN A LOCKED ROLE IS STILL LOGGED IN.**

  Seven steps change a session.  Those that look at a PIN spend attempts alike, but
  only a login touches the live temporary password of the role: a wrong PIN in a
  login drops it, a wrong PIN anywhere else leaves it.

                          attempts                            temporary password
      login               spent or restored                   new, or dropped
      verifyPin           spent or restored                   kept
      changePin           spent or restored                   kept
      unlockUser          spent or restored (of the admin),   kept (of the admin),
                          restored (of the user)              dropped (of the user)
      invalidate          kept                                dropped
      reset               restored                            dropped

  Both can be read off the past (`temp?_run`, `retryCount_run`).  So a locked role is
  logged in only in one way: after its login the wrong PINs came by other steps.
-/
import OtpToken.Proofs.Token.Account

namespace OtpToken

/-! ## §1. Steps. -/

/-- The attempts that a role has at first. -/
def Role.attempts : Role → Nat
  | .unauthenticated => 0
  | .user | .admin => maxRetries

/-- What can be done with a session. -/
inductive Session.Step where
  | firstAuthenticate (pin : Bytes) (temp : Secret)
  | userAuthenticate (pin : Bytes) (temp : Secret)
  | verifyPin (role : Role) (pin : Bytes)
  | unlockUser (adminPin : Bytes) (new : Secret)
  | changePin (role : Role) (old : Bytes) (new : Secret)
  | invalidate (role : Role)
  | reset (adminPin userPin : Secret)

namespace Session

/-- A step with its verdict; two of the steps cannot fail. -/
def take (s : Session) : Step → Verdict × Session
  | .firstAuthenticate pin temp => s.login .admin pin temp
  | .userAuthenticate pin temp => s.login .user pin temp
  | .verifyPin role pin => s.verifyPin role pin
  | .unlockUser adminPin new => s.unlockUser adminPin new
  | .changePin role old new => s.changePin role old new
  | .invalidate role => (.ok (), s.invalidate role)
  | .reset adminPin userPin => (.ok (), .fresh adminPin userPin)

namespace Step

/-- The role whose PIN a step looks at. -/
def checks? : Step → Option Role
  | firstAuthenticate .. | unlockUser .. => some .admin
  | userAuthenticate .. => some .user
  | verifyPin role _ | changePin role _ _ => some role
  | invalidate _ | reset .. => none

/-- The role that a login is for, and the temporary password that it asks for. -/
def login? : Step → Option (Role × Secret)
  | firstAuthenticate _ temp => some (.admin, temp)
  | userAuthenticate _ temp => some (.user, temp)
  | _ => none

/-- The steps that give a role all attempts whatever its PIN, once they are done. -/
def refills (role : Role) : Step → Bool
  | unlockUser .. => role = .user
  | reset .. => true
  | _ => false

/-- The steps that log a role out, once they are done. -/
def closes (role : Role) : Step → Bool
  | unlockUser .. => role = .user
  | invalidate role' => role' = role
  | reset .. => true
  | _ => false

end Step

/-! ## §2. What the past says. -/

/-- A step that was taken, and its verdict. -/
structure Entry where
  step : Step
  verdict : Verdict

namespace Entry

/-- The step was done. -/
def done (x : Entry) : Bool := x.verdict.isOk

/-- A PIN was wrong, or the role was locked. -/
def wrong (x : Entry) : Bool :=
  match x.verdict with
  | .error .wrongPassword => true
  | _ => false

/-- The step was a login of the role, done or not. -/
def isLogin (role : Role) (x : Entry) : Bool := x.step.login?.any fun login => login.1 = role

/-- The temporary password that a login of the role has handed out. -/
def handedOut? (role : Role) (x : Entry) : Option Bytes :=
  if x.done then (x.step.login?.filter fun login => login.1 = role).map fun login => login.2.bytes
  else none

/-- Nothing is left of an earlier login of the role: it was logged in anew, or out. -/
def ends (role : Role) (x : Entry) : Bool := x.isLogin role || x.done && x.step.closes role

/-- The PIN of the role was looked at in vain. -/
def fails (role : Role) (x : Entry) : Bool := x.step.checks? = some role && x.wrong

/-- The role was given all attempts: its PIN was looked at and right, or a step that
refills it was done. -/
def restores (role : Role) (x : Entry) : Bool :=
  x.step.checks? = some role && !x.wrong || x.done && x.step.refills role

variable {role : Role} {x : Entry} {temp : Bytes}

theorem verdict_of_done (h : x.done = true) : x.verdict = .ok () := by
  unfold done at h
  cases hverdict : x.verdict with
  | ok u => rfl
  | error status =>
    rw [hverdict] at h
    cases h

theorem wrong_iff : x.wrong = true ↔ x.verdict = .error .wrongPassword := by
  unfold wrong
  split
  · next h => exact iff_of_true rfl h
  · next h => exact iff_of_false Bool.false_ne_true h

/-- Only a login that was done hands out anything. -/
theorem of_handedOut (h : x.handedOut? role = some temp) :
    x.isLogin role = true ∧ x.done = true := by
  unfold handedOut? at h
  by_cases hdone : x.done = true
  · rw [if_pos hdone] at h
    refine ⟨?_, hdone⟩
    unfold isLogin
    cases hlogin : x.step.login? with
    | none =>
      rw [hlogin] at h
      cases h
    | some login =>
      rw [hlogin] at h
      by_cases hrole : login.1 = role
      · exact decide_eq_true hrole
      · rw [Option.filter_some, if_neg fun e => hrole (of_decide_eq_true e)] at h
        cases h
  · rw [if_neg hdone] at h
    cases h

theorem ends_of_handedOut (h : x.handedOut? role = some temp) : x.ends role = true := by
  unfold ends
  rw [(of_handedOut h).1]
  rfl

/-- Only a role that has a PIN logs in. -/
theorem attempts_of_handedOut (h : x.handedOut? role = some temp) :
    role.attempts = maxRetries := by
  obtain ⟨hlogin, -⟩ := of_handedOut h
  cases role with
  | unauthenticated =>
    unfold isLogin at hlogin
    cases hstep : x.step with
    | _ =>
      rw [hstep] at hlogin
      cases hlogin
  | user => rfl
  | admin => rfl

/-- A login that was done has found the right PIN. -/
theorem restores_of_handedOut (h : x.handedOut? role = some temp) : x.restores role = true := by
  obtain ⟨hlogin, hdone⟩ := of_handedOut h
  have hverdict := verdict_of_done hdone
  obtain ⟨step, verdict⟩ := x
  subst hverdict
  cases step with
  | firstAuthenticate pin secret =>
    cases of_decide_eq_true hlogin
    rfl
  | userAuthenticate pin secret =>
    cases of_decide_eq_true hlogin
    rfl
  | _ => cases hlogin

end Entry

/-- What the last login of a role has handed out, unless something ended it since;
the last entry first. -/
def lastHandedOut? (role : Role) : List Entry → Option Bytes
  | [] => none
  | x :: past => if x.ends role then x.handedOut? role else lastHandedOut? role past

/-- How often the PIN of a role was looked at in vain since something gave the role all
attempts. -/
def wrongInARow (role : Role) : List Entry → Nat
  | [] => 0
  | x :: past =>
      if x.restores role then 0
      else wrongInARow role past + if x.fails role then 1 else 0

end Session

/-! ## §3. One step. -/

theorem Credential.remaining_tried (k : Credential) (pin : Bytes) :
    (k.tried pin).retries.remaining
      = if k.accepts pin then maxRetries else k.retries.remaining - 1 := by
  unfold tried accepts
  by_cases hlocked : k.retries.isLocked = true
  · have hnone : k.retries.remaining = 0 := of_decide_eq_true hlocked
    rw [hlocked, if_pos rfl, hnone]
    rfl
  · rw [Bool.eq_false_iff.mpr hlocked]
    cases k.pin.agrees pin with
    | false => rfl
    | true => rfl

namespace Session

variable {s : Session} {role : Role} {k k' : Credential}

/-- Every role begins with all attempts and logged out. -/
theorem fresh_role (adminPin userPin : Secret) :
    (fresh adminPin userPin).retryCount role = role.attempts
      ∧ (fresh adminPin userPin).temp? role = none := by
  cases role with
  | unauthenticated => exact ⟨rfl, rfl⟩
  | user => exact ⟨rfl, rfl⟩
  | admin => exact ⟨rfl, rfl⟩

theorem retryCount_update (h : s.credential? role = some k) (role' : Role) :
    (s.update role k').retryCount role'
      = if role = role' then k'.retries.remaining else s.retryCount role' := by
  rw [← account_retryCount, account_update h]
  by_cases hr : role = role'
  · rw [if_pos hr, if_pos hr]
    rfl
  · rw [if_neg hr, if_neg hr, account_retryCount]

theorem eq_unauthenticated (h : s.credential? role = none) : role = .unauthenticated := by
  cases role with
  | unauthenticated => rfl
  | user => cases h
  | admin => cases h

theorem exists_pinRule (h : s.credential? role = some k) :
    ∃ minimum failure, role.pinRule? = some (minimum, failure) ∧ failure ≠ .wrongPassword := by
  cases role with
  | unauthenticated => cases h
  | user => exact ⟨_, _, rfl, Status.noConfusion⟩
  | admin => exact ⟨_, _, rfl, Status.noConfusion⟩

/-- **All that a step can do**, with the verdict that goes with it. -/
inductive Took (s : Session) : Step → Verdict × Session → Prop
  | nobody {step : Step} (hchecks : step.checks? = some .unauthenticated)
      (hlogin : step.login? = none) : Took s step (.error .notAuthorized, s)
  | login {step : Step} {role : Role} {pin : Bytes} {temp : Secret} {k : Credential}
      (hchecks : step.checks? = some role) (hlogin : step.login? = some (role, temp))
      (hk : s.credential? role = some k) :
      Took s step (if k.accepts pin then .ok () else .error .wrongPassword,
        s.update role (k.loggedIn pin temp))
  /-- A PIN was tried outside a login, and perhaps replaced. -/
  | checked {step : Step} {role : Role} {pin : Bytes} {k : Credential} {verdict : Verdict}
      (new : Secret) (hchecks : step.checks? = some role) (hlogin : step.login? = none)
      (hk : s.credential? role = some k)
      (hverdict : verdict = .error .wrongPassword ↔ k.accepts pin = false)
      (hstays : verdict = .ok () → ∀ role', step.closes role' = false) :
      Took s step (verdict, s.update role { k.tried pin with pin := new })
  | unlocked {adminPin : Bytes} {new : Secret} (hright : s.admin.accepts adminPin = true) :
      Took s (.unlockUser adminPin new)
        (.ok (), { admin := s.admin.tried adminPin, user := .fresh new })
  | invalidated {role : Role} : Took s (.invalidate role) (.ok (), s.invalidate role)
  | reset {adminPin userPin : Secret} :
      Took s (.reset adminPin userPin) (.ok (), .fresh adminPin userPin)

theorem took_login {step : Step} {pin : Bytes} {temp : Secret}
    (hchecks : step.checks? = some role) (hlogin : step.login? = some (role, temp))
    (hk : s.credential? role = some k) : s.Took step (s.login role pin temp) := by
  unfold login
  rw [hk]
  exact .login hchecks hlogin hk

theorem took_verifyPin (s : Session) (role : Role) (pin : Bytes) :
    s.Took (.verifyPin role pin) (s.verifyPin role pin) := by
  unfold verifyPin
  cases hk : s.credential? role with
  | none =>
    obtain rfl := eq_unauthenticated hk
    exact .nobody rfl rfl
  | some k =>
    refine .checked (k.tried pin).pin rfl rfl hk ?_ fun _ _ => rfl
    cases k.accepts pin <;> simp

/-- A new PIN that is too short is refused only once the old one has counted. -/
theorem took_changePin (s : Session) (role : Role) (old : Bytes) (new : Secret) :
    s.Took (.changePin role old new) (s.changePin role old new) := by
  unfold changePin
  cases hk : s.credential? role with
  | none =>
    obtain rfl := eq_unauthenticated hk
    exact .nobody rfl rfl
  | some k =>
    obtain ⟨minimum, failure, hrule, hfailure⟩ := exists_pinRule hk
    rw [hrule]
    dsimp only
    cases hright : k.accepts old with
    | false => exact .checked (k.tried old).pin rfl rfl hk (by simp [hright]) nofun
    | true =>
      rw [if_pos rfl]
      by_cases hshort : new.length < minimum
      · rw [if_pos hshort]
        exact .checked (k.tried old).pin rfl rfl hk (by simp [hright, hfailure]) nofun
      · rw [if_neg hshort]
        exact .checked new rfl rfl hk (by simp [hright]) fun _ _ => rfl

theorem took_unlockUser (s : Session) (adminPin : Bytes) (new : Secret) :
    s.Took (.unlockUser adminPin new) (s.unlockUser adminPin new) := by
  have hk : s.credential? .admin = some s.admin := rfl
  have hverify : s.verifyPin .admin adminPin
      = (if s.admin.accepts adminPin then .ok () else .error .wrongPassword,
          s.update .admin (s.admin.tried adminPin)) := rfl
  unfold unlockUser
  rw [hverify]
  cases hright : s.admin.accepts adminPin with
  | false => exact .checked (s.admin.tried adminPin).pin rfl rfl hk (by simp [hright]) nofun
  | true =>
    rw [if_pos rfl]
    dsimp only
    by_cases hshort : new.length < minUserPinLength
    · rw [if_pos hshort]
      exact .checked (s.admin.tried adminPin).pin rfl rfl hk (by simp [hright]) nofun
    · rw [if_neg hshort]
      exact .unlocked hright

theorem take_took (s : Session) (step : Step) : s.Took step (s.take step) := by
  have hadmin : s.credential? .admin = some s.admin := rfl
  have huser : s.credential? .user = some s.user := rfl
  cases step with
  | firstAuthenticate pin temp => exact took_login rfl rfl hadmin
  | userAuthenticate pin temp => exact took_login rfl rfl huser
  | verifyPin role pin => exact took_verifyPin s role pin
  | unlockUser adminPin new => exact took_unlockUser s adminPin new
  | changePin role old new => exact took_changePin s role old new
  | invalidate role => exact .invalidated
  | reset adminPin userPin => exact .reset

/-! ### Temporary password and attempts after a step. -/

section Entry

variable {x : Entry} {role' : Role} {temp : Secret}

theorem Entry.ends_of_not_login (hlogin : x.step.login? = none)
    (hstays : x.verdict = .ok () → x.step.closes role = false) : x.ends role = false := by
  obtain ⟨step, verdict⟩ := x
  unfold ends isLogin
  rw [show step.login? = none from hlogin]
  cases verdict with
  | error status => rfl
  | ok u => exact hstays rfl

/-- A login ends what there was for its own role, and for no other. -/
theorem Entry.ends_of_login (hlogin : x.step.login? = some (role, temp)) :
    x.ends role' = decide (role = role') := by
  have hcloses : x.step.closes role' = false := by
    obtain ⟨step, verdict⟩ := x
    cases step <;> first | rfl | cases hlogin
  unfold ends isLogin
  rw [hlogin, hcloses, Bool.and_false, Bool.or_false]
  rfl

theorem Entry.handedOut?_of_login (hlogin : x.step.login? = some (role, temp)) :
    x.handedOut? role = if x.done then some temp.bytes else none := by
  unfold handedOut?
  rw [hlogin, Option.filter_some, if_pos (decide_eq_true rfl)]
  rfl

/-- A step that refills a role has logged it out as well. -/
theorem Step.refills_eq_false {step : Step} (h : step.closes role = false) :
    step.refills role = false := by
  cases step with
  | unlockUser adminPin new => exact h
  | reset adminPin userPin => cases h
  | _ => rfl

/-- The attempts of a role after a step that has looked at the PIN of one. -/
theorem retryCount_of_checks {pin : Bytes} (hchecks : x.step.checks? = some role)
    (hk : s.credential? role = some k) (hwrong : x.wrong = !k.accepts pin)
    (hstays : x.done = true → x.step.refills role' = false)
    (hretries : k'.retries = (k.tried pin).retries) :
    (s.update role k').retryCount role'
      = if x.restores role' then role'.attempts
        else s.retryCount role' - if x.fails role' then 1 else 0 := by
  have hrefills : (x.done && x.step.refills role') = false := by
    cases hdone : x.done with
    | false => rfl
    | true => exact hstays hdone
  unfold Entry.restores Entry.fails
  rw [retryCount_update hk, hchecks, hwrong, hrefills, Bool.or_false, Bool.not_not]
  by_cases hr : role = role'
  · subst hr
    have hattempts : role.attempts = maxRetries := by
      cases role <;> first | rfl | cases hk
    have hleft : s.retryCount role = k.retries.remaining := by
      unfold retryCount
      rw [hk]
    rw [if_pos rfl, hretries, Credential.remaining_tried, hattempts, hleft]
    cases k.accepts pin <;> simp
  · simp [hr]

end Entry

section Took

variable {step : Step} {r : Verdict × Session}

/-- **The live temporary password after a step**: what the step has handed out if it
ended what was there, and what was there else. -/
theorem Took.temp?_eq (h : s.Took step r) (role : Role) :
    r.2.temp? role
      = if Entry.ends role ⟨step, r.1⟩ then Entry.handedOut? role ⟨step, r.1⟩
        else s.temp? role := by
  cases h with
  | nobody hchecks hlogin =>
    rw [Entry.ends_of_not_login hlogin fun e => by cases e]
    rfl
  | @checked _ _ _ k _ new hchecks hlogin hk hverdict hstays =>
    rw [Entry.ends_of_not_login hlogin fun hok => hstays hok role, if_neg Bool.false_ne_true]
    refine temp?_update_of_eq hk ?_ role
    exact Credential.temp_tried k _
  | @login _ role' pin temp k hchecks hlogin hk =>
    rw [Entry.ends_of_login hlogin, temp?_update hk]
    by_cases hr : role' = role
    · subst hr
      rw [if_pos rfl, if_pos (decide_eq_true rfl), Entry.handedOut?_of_login hlogin]
      unfold Credential.loggedIn
      cases k.accepts pin with
      | false => rfl
      | true => rfl
    · rw [if_neg hr, if_neg fun e => hr (of_decide_eq_true e)]
  | unlocked hright =>
    cases role with
    | unauthenticated => rfl
    | user => rfl
    | admin => exact congrArg (Option.map _) (Credential.temp_tried _ _)
  | @invalidated role' =>
    cases role' <;> cases role <;> rfl
  | reset => cases role <;> rfl

/-- **The attempts of a role after a step**: all of them once more, or one less for a
PIN that was looked at in vain. -/
theorem Took.retryCount_eq (h : s.Took step r) (role : Role) :
    r.2.retryCount role
      = if Entry.restores role ⟨step, r.1⟩ then role.attempts
        else s.retryCount role - if Entry.fails role ⟨step, r.1⟩ then 1 else 0 := by
  cases h with
  | nobody hchecks hlogin =>
    unfold Entry.restores Entry.fails
    dsimp only
    rw [hchecks]
    cases role with
    | unauthenticated => rfl
    | user => rfl
    | admin => rfl
  | @checked _ role' pin k verdict new hchecks hlogin hk hverdict hstays =>
    refine retryCount_of_checks hchecks hk ?_ ?_ rfl
    · rw [Bool.eq_iff_iff, Entry.wrong_iff, Bool.not_eq_true']
      exact hverdict
    · intro hdone
      exact Step.refills_eq_false (hstays (Entry.verdict_of_done hdone) role)
  | @login _ role' pin temp k hchecks hlogin hk =>
    refine retryCount_of_checks hchecks hk ?_ (fun _ => ?_) rfl
    · cases k.accepts pin with
      | false => rfl
      | true => rfl
    · cases step <;> first | rfl | cases hlogin
  | @unlocked adminPin new hright =>
    cases role with
    | unauthenticated => rfl
    | user => rfl
    | admin =>
      show (s.admin.tried adminPin).retries.remaining = maxRetries
      rw [Credential.remaining_tried, if_pos hright]
  | @invalidated role' => cases role' <;> cases role <;> rfl
  | reset => cases role <;> rfl

end Took

/-! ## §4. Runs. -/

/-- A session with everything that was done to it, the last step first. -/
structure History where
  session : Session
  past : List Entry

namespace History

/-- A session of which nothing is recorded. -/
def start (adminPin userPin : Secret) : History := ⟨.fresh adminPin userPin, []⟩

/-- One more step. -/
def next (h : History) (step : Step) : History :=
  ⟨(h.session.take step).2, ⟨step, (h.session.take step).1⟩ :: h.past⟩

/-- Steps in a row. -/
def run (h : History) (steps : List Step) : History := steps.foldl next h

/-- What every step preserves holds after every run. -/
theorem run_induction {I : History → Prop} {h : History} (hstart : I h)
    (hnext : ∀ h step, I h → I (h.next step)) (steps : List Step) : I (h.run steps) := by
  induction steps generalizing h with
  | nil => exact hstart
  | cons step steps ih => exact ih (hnext h step hstart)

variable (adminPin userPin : Secret) (steps : List Step) (role : Role)

/-- **Who is logged in can be read off the past.** -/
theorem temp?_run : ((start adminPin userPin).run steps).session.temp? role
    = lastHandedOut? role ((start adminPin userPin).run steps).past := by
  refine run_induction (I := fun h => h.session.temp? role = lastHandedOut? role h.past)
    (fresh_role adminPin userPin).2 ?_ steps
  intro h step ih
  show (h.session.take step).2.temp? role = if _ then _ else _
  rw [(take_took h.session step).temp?_eq role, ih]

/-- **So can the attempts that are left.** -/
theorem retryCount_run : ((start adminPin userPin).run steps).session.retryCount role
    = role.attempts - wrongInARow role ((start adminPin userPin).run steps).past := by
  refine run_induction
    (I := fun h => h.session.retryCount role = role.attempts - wrongInARow role h.past)
    (fresh_role adminPin userPin).1 ?_ steps
  intro h step ih
  show (h.session.take step).2.retryCount role = role.attempts - if _ then _ else _
  rw [(take_took h.session step).retryCount_eq role, ih]
  split
  · rfl
  · exact Nat.sub_sub _ _ _

end History

/-- What was handed out last: no entry since has ended it. -/
theorem lastHandedOut?_eq_some_iff {role : Role} {past : List Entry} {temp : Bytes} :
    lastHandedOut? role past = some temp
      ↔ ∃ later x earlier, past = later ++ x :: earlier ∧ x.handedOut? role = some temp
          ∧ ∀ y ∈ later, y.ends role = false := by
  induction past with
  | nil =>
    refine iff_of_false nofun ?_
    rintro ⟨later, x, earlier, hsplit, -⟩
    cases later <;> cases hsplit
  | cons x past ih =>
    rw [lastHandedOut?]
    cases hends : x.ends role with
    | true =>
      rw [if_pos rfl]
      constructor
      · intro h
        exact ⟨[], x, past, rfl, h, nofun⟩
      · rintro ⟨later, y, earlier, hsplit, hhanded, hkept⟩
        cases later with
        | nil =>
          cases hsplit
          exact hhanded
        | cons z later =>
          cases hsplit
          cases hends.symm.trans (hkept x List.mem_cons_self)
    | false =>
      rw [if_neg Bool.false_ne_true, ih]
      constructor
      · rintro ⟨later, y, earlier, rfl, hhanded, hkept⟩
        exact ⟨x :: later, y, earlier, rfl, hhanded, List.forall_mem_cons.mpr ⟨hends, hkept⟩⟩
      · rintro ⟨later, y, earlier, hsplit, hhanded, hkept⟩
        cases later with
        | nil =>
          cases hsplit
          cases hends.symm.trans (Entry.ends_of_handedOut hhanded)
        | cons z later =>
          cases hsplit
          exact ⟨later, y, earlier, rfl, hhanded, (List.forall_mem_cons.mp hkept).2⟩

/-- What was in vain before all attempts came back does not count. -/
theorem wrongInARow_append {role : Role} {x : Entry} (h : x.restores role = true)
    (later earlier : List Entry) :
    wrongInARow role (later ++ x :: earlier) = wrongInARow role later := by
  induction later with
  | nil =>
    show (if _ then _ else _) = 0
    rw [if_pos h]
  | cons y later ih =>
    show (if _ then _ else wrongInARow role (later ++ x :: earlier) + _) = if _ then _ else _
    rw [ih]

/-- A login of a locked role is refused, and leaves it logged out and locked. -/
theorem take_login_of_locked {s : Session} {role : Role} {step : Step} {temp : Secret}
    (hlocked : s.retryCount role = 0) (hlogin : step.login? = some (role, temp)) :
    (s.take step).1 = .error .wrongPassword ∧ (s.take step).2.isAuthenticated role = false
      ∧ (s.take step).2.retryCount role = 0 := by
  obtain ⟨k, pin, hk, htake⟩ : ∃ k pin, s.credential? role = some k ∧ s.take step
      = (if k.accepts pin then .ok () else .error .wrongPassword,
          s.update role (k.loggedIn pin temp)) := by
    cases step with
    | firstAuthenticate pin temp =>
      cases hlogin
      exact ⟨s.admin, pin, rfl, rfl⟩
    | userAuthenticate pin temp =>
      cases hlogin
      exact ⟨s.user, pin, rfl, rfl⟩
    | _ => cases hlogin
  have hnone : k.retries.remaining = 0 := by
    unfold retryCount at hlocked
    rw [hk] at hlocked
    exact hlocked
  have hrefused : k.accepts pin = false := by
    unfold Credential.accepts RetryCounter.isLocked
    rw [hnone]
    rfl
  have hleft : (k.loggedIn pin temp).retries.remaining = 0 := by
    show (k.tried pin).retries.remaining = 0
    rw [Credential.remaining_tried, hrefused, hnone]
    rfl
  have hout : (k.loggedIn pin temp).temp = none := by
    unfold Credential.loggedIn
    rw [hrefused]
    rfl
  rw [htake, hrefused]
  refine ⟨rfl, ?_, ?_⟩
  · unfold isAuthenticated
    rw [credential?_update_self hk, Option.bind_some, hout]
    rfl
  · rw [retryCount_update hk, if_pos rfl, hleft]

theorem authorize_iff {s : Session} {role : Role} {presented : Bytes} :
    s.authorize role presented = .ok () ↔ presented ≠ [] ∧ s.temp? role = some presented := by
  rw [← admits_iff]
  unfold authorize
  split
  · next h => exact iff_of_true rfl h
  · next h => exact iff_of_false nofun h

/-- **Locked roles**, whatever was done to a session.

* A role is locked and logged in exactly if a login of it was done, nothing has ended
  that login since (every other login of the role would have), and since then its PIN
  was looked at in vain three times in a row: by steps that are no logins.
* What authorises is what such a login handed out, unless it is empty.
* The attempts that are left follow from how often the PIN was looked at in vain.
* A login of a locked role is refused, and leaves it logged out. -/
theorem locked_over_runs (adminPin userPin : Secret) (steps : List Step) (role : Role) :
    let h := (History.start adminPin userPin).run steps
    let s := h.session
    (s.retryCount role = 0 ∧ s.isAuthenticated role = true
        ↔ ∃ later x earlier temp, h.past = later ++ x :: earlier
            ∧ x.handedOut? role = some temp ∧ (∀ y ∈ later, y.ends role = false)
            ∧ maxRetries ≤ wrongInARow role later)
      ∧ (∀ presented, s.authorize role presented = .ok ()
          ↔ presented ≠ [] ∧ ∃ later x earlier, h.past = later ++ x :: earlier
              ∧ x.handedOut? role = some presented ∧ ∀ y ∈ later, y.ends role = false)
      ∧ s.retryCount role = role.attempts - wrongInARow role h.past
      ∧ (s.retryCount role = 0 → ∀ step temp, step.login? = some (role, temp) →
          (s.take step).1 = .error .wrongPassword
            ∧ (s.take step).2.isAuthenticated role = false
            ∧ (s.take step).2.retryCount role = 0) := by
  intro h s
  have htemp : s.temp? role = lastHandedOut? role h.past :=
    History.temp?_run adminPin userPin steps role
  have hcount : s.retryCount role = role.attempts - wrongInARow role h.past :=
    History.retryCount_run adminPin userPin steps role
  refine ⟨⟨?_, ?_⟩, fun presented => ?_, hcount, fun hlocked step temp hlogin => ?_⟩
  · rintro ⟨hlocked, hin⟩
    rw [isAuthenticated_eq] at hin
    obtain ⟨temp, hlive⟩ := Option.isSome_iff_exists.mp hin
    obtain ⟨later, x, earlier, hsplit, hhanded, hkept⟩ :=
      lastHandedOut?_eq_some_iff.mp (htemp.symm.trans hlive)
    refine ⟨later, x, earlier, temp, hsplit, hhanded, hkept, ?_⟩
    -- the login found the right PIN, so all attempts were spent after it
    have hsince := wrongInARow_append (Entry.restores_of_handedOut hhanded) later earlier
    have hall := Entry.attempts_of_handedOut hhanded
    rw [hsplit, hsince] at hcount
    omega
  · rintro ⟨later, x, earlier, temp, hsplit, hhanded, hkept, hwrong⟩
    have hsince := wrongInARow_append (Entry.restores_of_handedOut hhanded) later earlier
    have hall := Entry.attempts_of_handedOut hhanded
    rw [hsplit, hsince] at hcount
    have hlive : lastHandedOut? role h.past = some temp :=
      lastHandedOut?_eq_some_iff.mpr ⟨later, x, earlier, hsplit, hhanded, hkept⟩
    refine ⟨by omega, ?_⟩
    rw [isAuthenticated_eq, htemp, hlive]
    rfl
  · rw [authorize_iff, htemp, lastHandedOut?_eq_some_iff]
  · exact take_login_of_locked hlocked hlogin

/-- The admin has logged in, and then three wrong PINs of the admin were tried elsewhere. -/
def lockedOut : Session :=
  ((History.start (.ofText "12345678") (.ofText "123456")).run
    [.firstAuthenticate (Utf8.encode "12345678") (.ofText "temp"), .verifyPin .admin [0],
      .verifyPin .admin [0], .verifyPin .admin [0]]).session

/-- It is not true that a locked role is logged out: this admin has no attempt left and
is still logged in. -/
theorem not_all_locked_logged_out :
    ¬ ∀ (adminPin userPin : Secret) (steps : List Step) (role : Role),
        let s := ((History.start adminPin userPin).run steps).session
        s.retryCount role = 0 → s.isAuthenticated role = false := by
  intro h
  have hlocked : lockedOut.retryCount .admin = 0 := by decide +kernel
  have hin : lockedOut.isAuthenticated .admin = true := by decide +kernel
  unfold lockedOut at hlocked hin
  cases hin.symm.trans (h _ _ _ _ hlocked)

end Session

end OtpToken
