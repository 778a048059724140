/-
  OtpToken.Proofs.Client.Pins
  ───────────────────────────
  **A PIN THAT WAS TAKEN STAYS GOOD.**

  Nine calls present a PIN, in fields of three widths.  Three calls give a role
  a new PIN, in a field of 25 bytes:

      login, unlocking, a new PIN          25 bytes
      enabling the Password Safe           30 bytes
      factory reset, AES key, AES test     20 bytes

  The token keeps the PIN that a role was given last (`pin_run`).  So wherever
  there is room for it, it passes the check as long as the role has an attempt
  left (`World.last_pin_opens`).  A PIN of 21 to 25 bytes is taken by the calls
  that set it, and does not fit three of the calls that ask for it.

  How the token writes counters does not matter here, and the host may be wrong
  about it.
-/
import OtpToken.Proofs.Client.Single
import OtpToken.Proofs.Client.Transact
import OtpToken.Proofs.Token.Account

namespace OtpToken

/-! ## §1. What calls say about PINs. -/

namespace Call

/-- The PIN that a call presents, with the role whose PIN it should be. -/
def pin? : Call → Option (Role × Secret)
  | firstAuthenticate pin _ | unlockUserPassword pin _ | changeAdminPin pin _
  | factoryReset pin | newAesKey pin => some (.admin, pin)
  | userAuthenticate pin _ | changeUserPin pin _ | enableSafe pin | aesSupported pin =>
      some (.user, pin)
  | _ => none

/-- What a call with a PIN sends beside it: the temporary password of a login,
or a new PIN. -/
def companion? : Call → Option Secret
  | firstAuthenticate _ temp | userAuthenticate _ temp => some temp
  | unlockUserPassword _ new | changeAdminPin _ new | changeUserPin _ new => some new
  | _ => none

/-- The calls with the narrow field for a PIN. -/
def narrow : Call → Bool
  | factoryReset _ | newAesKey _ | aesSupported _ => true
  | _ => false

/-- The width of the field for the PIN that a call presents. -/
def pinWidth : Call → Nat
  | factoryReset _ | newAesKey _ | aesSupported _ => aesPinWidth
  | enableSafe _ => enablePinWidth
  | _ => credentialWidth

/-- The PIN that a call gives a role. -/
def newPin? (role : Role) : Call → Option Secret
  | changeAdminPin _ new => if role = .admin then some new else none
  | unlockUserPassword _ new | changeUserPin _ new => if role = .user then some new else none
  | _ => none

/-- Whether the roles have their first PINs again once the call is done. -/
def restores : Call → Bool
  | factoryReset _ => true
  | _ => false

/-- Only the narrow field is too small for a PIN that was taken. -/
theorem le_pinWidth {call : Call} {p : Secret} (htaken : p.length ≤ credentialWidth)
    (hroom : call.narrow = false ∨ p.length ≤ aesPinWidth) : p.length ≤ call.pinWidth := by
  have hwide : p.length ≤ enablePinWidth := Nat.le_trans htaken (by decide)
  cases call with
  | factoryReset pin => exact hroom.resolve_left Bool.noConfusion
  | newAesKey pin => exact hroom.resolve_left Bool.noConfusion
  | aesSupported pin => exact hroom.resolve_left Bool.noConfusion
  | enableSafe pin => exact hwide
  | _ => exact htaken

theorem pinWidth_of_narrow {call : Call} (h : call.narrow = true) :
    call.pinWidth = aesPinWidth := by
  cases call <;> first | rfl | cases h

end Call

/-- How an error names a PIN in the narrow field. -/
def Role.pinLabel : Role → String
  | .admin => "admin PIN"
  | _ => "user PIN"

/-- The PIN that a role was given last, unless the first PINs were restored
since. -/
def lastPin? (role : Role) (past : List Call) : Option Secret :=
  (past.takeWhile fun call => !call.restores).findSome? (Call.newPin? role)

section Past

variable {role : Role} {call : Call} {past : List Call}

theorem lastPin?_of_restores (h : call.restores = true) : lastPin? role (call :: past) = none := by
  unfold lastPin?
  rw [List.takeWhile_cons_of_neg (by rw [h]; exact Bool.noConfusion)]
  rfl

theorem lastPin?_cons (h : call.restores = false) :
    lastPin? role (call :: past) = (call.newPin? role <|> lastPin? role past) := by
  unfold lastPin?
  rw [List.takeWhile_cons_of_pos (by rw [h]; rfl), List.findSome?_cons]
  cases call.newPin? role with
  | none => rfl
  | some new => rfl

-- the last of two PINs, and the one that was given to the other role
example (old new other : Secret) :
    lastPin? .user [.changeAdminPin old other, .unlockUserPassword other new,
      .changeUserPin old old] = some new := rfl

end Past

/-! ## §2. PINs of accounts. -/

theorem Command.check?_norm (x : Command) :
    x.norm.check? = x.check?.map fun y => (y.1, y.2.untilNul) := by
  cases x with
  | sendOtpData temp kind chunk data => cases kind <;> rfl
  | _ => rfl

namespace Account

variable {config : TokenConfig} {role : Role} {x : Command} {pin : Secret} {a : Account}

theorem pin_tried (a : Account) (pin : Bytes) : (a.tried pin).pin = a.pin := by
  unfold tried
  split
  · rfl
  · split
    · rfl
    · rfl

theorem attempts_tried (h : a.accepts pin.bytes = true) :
    (a.tried pin.bytes).attempts = maxRetries := by
  obtain ⟨hleft, hpin⟩ := of_decide_eq_true h
  unfold tried
  rw [if_neg (Nat.ne_of_gt hleft), if_pos hpin]

/-- A command that is not done sets no PIN. -/
theorem pin_after_false (a : Account) : (a.after config role x false).pin = a.pin := by
  cases hcheck : x.check? with
  | none => rw [after_of_not_check hcheck]
  | some y =>
    obtain ⟨role', pin⟩ := y
    rw [after_false hcheck]
    split
    · exact pin_tried a pin.bytes
    · rfl

/-- A command that is done and gives no new PIN sets none. -/
theorem pin_after_plain (hnew : x.newPin? = none) (hreset : x.id ≠ .factoryReset) (a : Account) :
    (a.after config role x true).pin = a.pin := by
  have hsame : a.after config role x true = a.after config role x false := by
    cases x <;> first | rfl | exact absurd rfl hreset | cases hnew
  rw [hsame, pin_after_false]

/-- **Who presents the right PIN has all attempts again**, whatever comes of the
command. -/
theorem attempts_after_accepts (hcheck : x.check? = some (role, pin))
    (h : a.accepts pin.bytes = true) (done : Bool) :
    (a.after config role x done).attempts = maxRetries := by
  have htried := attempts_tried h
  cases done with
  | false =>
    rw [after_false hcheck, if_pos rfl]
    exact htried
  | true =>
    cases x with
    | firstAuthenticate pin temp => cases hcheck; exact htried
    | userAuthenticate pin temp => cases hcheck; exact htried
    | unlockUserPassword pin new => cases hcheck; exact htried
    | changeUserPin pin new => cases hcheck; exact htried
    | changeAdminPin pin new => cases hcheck; exact htried
    | newAesKey pin => cases hcheck; exact htried
    | enableSafe pin => cases hcheck; exact htried
    | detectAes pin => cases hcheck; exact htried
    -- the account is a new one
    | factoryReset pin => cases hcheck; rfl
    | _ => cases hcheck

end Account

namespace Call

variable {call : Call} {role : Role} {x : Command}

/-- What the command of a call, once it is done, makes of a PIN. -/
theorem pin_after {config : TokenConfig} (hx : call.command? = some x)
    (hrestores : call.restores = false) (a : Account) :
    (a.after config role x.norm true).pin
      = ((call.newPin? role).map fun new => new.untilNul.bytes).getD a.pin := by
  cases call with
  | changeAdminPin old new =>
    cases hx
    cases role <;> rfl
  | changeUserPin old new =>
    cases hx
    cases role <;> rfl
  | unlockUserPassword adminPin new =>
    cases hx
    cases role with
    | unauthenticated => rfl
    | user => rfl
    | admin => exact Account.pin_tried a _
  | factoryReset pin => cases hrestores
  | writeHotp index data counter temp => cases hx
  | writeTotp index data period temp => cases hx
  | writeSafe index name login password => cases hx
  -- no new PIN, in a command about a code slot
  | hotpCode index temp =>
    obtain ⟨number, -, rfl⟩ := Option.map_eq_some_iff.mp hx
    exact Account.pin_after_plain rfl CommandId.noConfusion a
  | totpCode index challenge lastTime lastInterval temp =>
    obtain ⟨number, -, rfl⟩ := Option.map_eq_some_iff.mp hx
    exact Account.pin_after_plain rfl CommandId.noConfusion a
  | readSlot kind index =>
    obtain ⟨number, -, rfl⟩ := Option.map_eq_some_iff.mp hx
    exact Account.pin_after_plain rfl CommandId.noConfusion a
  | slotName kind index =>
    obtain ⟨number, -, rfl⟩ := Option.map_eq_some_iff.mp hx
    exact Account.pin_after_plain rfl CommandId.noConfusion a
  | eraseSlot kind index temp =>
    obtain ⟨number, -, rfl⟩ := Option.map_eq_some_iff.mp hx
    exact Account.pin_after_plain rfl CommandId.noConfusion a
  -- no new PIN, in any other command
  | _ =>
    cases hx
    exact Account.pin_after_plain rfl CommandId.noConfusion a

/-- A new PIN that was sent is no longer than its field. -/
theorem length_newPin {new : Secret} {encoding : CounterEncoding} (hx : call.command? = some x)
    (hfits : x.Fits encoding) (hnew : call.newPin? role = some new) :
    new.length ≤ credentialWidth := by
  cases call with
  | changeAdminPin old new' =>
    obtain ⟨-, hnew⟩ := Option.ite_none_right_eq_some.mp hnew
    cases hx
    cases hnew
    exact hfits.1 _ (List.mem_cons_of_mem _ List.mem_cons_self)
  | changeUserPin old new' =>
    obtain ⟨-, hnew⟩ := Option.ite_none_right_eq_some.mp hnew
    cases hx
    cases hnew
    exact hfits.1 _ (List.mem_cons_of_mem _ List.mem_cons_self)
  | unlockUserPassword adminPin new' =>
    obtain ⟨-, hnew⟩ := Option.ite_none_right_eq_some.mp hnew
    cases hx
    cases hnew
    exact hfits.1 _ (List.mem_cons_of_mem _ List.mem_cons_self)
  | _ => cases hnew

end Call

/-! ## §3. What calls make of accounts. -/

namespace Call

variable {call : Call} {c c' : Client} {t : Token} {v : Value}

/-- A call of one command that was done has written that command out. -/
theorem fits_of_done {σ : Type} {line : Line σ} {s s' : σ} (hsingle : call.single = true)
    (h : call.perform line c s = (.ok v, c', s')) :
    ∃ x, call.command? = some x ∧ x.Fits c.capabilities.encoding := by
  obtain ⟨script, payload, after, hprepare, -, -, -⟩ := Client.of_perform_ok call.tidy h
  obtain ⟨cs, last, hscript, -, hlast⟩ := asks_command hsingle c script hprepare
  exact ⟨last, hlast, hscript.fits last List.mem_cons_self⟩

end Call

namespace Call

variable {call : Call} {c c' : Client} {t t' : Token} {role : Role} {v : Value} {why : Error}

/-- **A write leaves every account alone, done or not.** -/
theorem account_of_not_single (h : ¬ call.single = true) (c : Client) (t : Token) (role : Role) :
    (call.perform Token.line c t).2.2.session.account role = t.session.account role :=
  congrArg (Session.account · role) (session_of_not_single h c t)

/-- The account of a role after a call of one command that was done. -/
theorem account_of_done (hsingle : call.single = true)
    (h : call.perform Token.line c t = (.ok v, c', t')) (role : Role) :
    ∃ x, call.command? = some x
      ∧ t'.session.account role = (t.session.account role).after t.config role x.norm true := by
  cases performed_single hsingle h with
  | done hQ hall _ =>
    obtain ⟨rfl, hx⟩ := hQ
    exact ⟨_, hx, (Token.effect_of_ask_ok hall).account_eq role⟩

/-- **A call that is done sets the PIN that it gives, as it arrives, and no
other.** -/
theorem pin_of_done (hrestores : call.restores = false)
    (h : call.perform Token.line c t = (.ok v, c', t')) (role : Role) :
    (t'.session.account role).pin
      = ((call.newPin? role).map fun new => new.untilNul.bytes).getD
          (t.session.account role).pin := by
  by_cases hsingle : call.single = true
  · obtain ⟨x, hx, haccount⟩ := account_of_done hsingle h role
    rw [haccount, pin_after hx hrestores]
  · -- a write gives nobody a PIN
    have hnew : call.newPin? role = none := by
      cases call <;> first | rfl | exact absurd rfl hsingle
    have haccount := account_of_not_single hsingle c t role
    rw [h] at haccount
    rw [hnew]
    exact congrArg Account.pin haccount

/-- It was not longer than its field. -/
theorem length_of_done {new : Secret} (h : call.perform Token.line c t = (.ok v, c', t'))
    (hnew : call.newPin? role = some new) : new.length ≤ credentialWidth := by
  have hsingle : call.single = true := by
    cases call <;> first | rfl | cases hnew
  obtain ⟨x, hx, hfits⟩ := fits_of_done hsingle h
  exact length_newPin hx hfits hnew

/-- **A call that fails sets no PIN.** -/
theorem pin_of_error (h : call.perform Token.line c t = (.error why, c', t')) (role : Role) :
    (t'.session.account role).pin = (t.session.account role).pin := by
  by_cases hsingle : call.single = true
  · cases performed_single hsingle h with
    | unsent => rfl
    | failed hQ hall =>
      obtain ⟨rfl, -⟩ := hQ
      obtain ⟨status, heffect⟩ := Token.effect_of_ask_error hall
      have hdone : (Answer.status (.error status)).isOk = false :=
        decide_eq_false (heffect.status_of_error rfl).1
      have haccount := heffect.account_eq role
      dsimp only at haccount
      rw [haccount, hdone, Account.pin_after_false]
    | unread hQ hall hconclude =>
      obtain ⟨rfl, hx⟩ := hQ
      -- the details of a slot need no PIN
      obtain ⟨kind, index, rfl⟩ := eq_readSlot_of_unread hconclude
      obtain ⟨number, -, rfl⟩ := Option.map_eq_some_iff.mp hx
      have haccount := (Token.effect_of_ask_ok hall).account_eq role
      rw [Account.after_of_not_check rfl] at haccount
      exact congrArg Account.pin haccount
  · have haccount := account_of_not_single hsingle c t role
    rw [h] at haccount
    exact congrArg Account.pin haccount

end Call

/-! ## §4. Runs. -/

/-- The token has the PIN that the role was given last, and it was not longer
than the field in which it was given. -/
def World.KeepsPin (role : Role) (w : World) : Prop :=
  ∀ p, lastPin? role w.past = some p →
    (w.token.session.account role).pin = p.untilNul.bytes ∧ p.length ≤ credentialWidth

theorem World.KeepsPin.step {role : Role} {w : World} (h : w.KeepsPin role) (event : Event) :
    (w.step event).KeepsPin role := by
  cases event with
  | unplug => exact h
  | plugIn => exact h
  | call call =>
    rcases w.step_call call with ⟨why, client, token, hperform, hstep⟩ |
      ⟨v, client, token, hperform, hstep⟩
    · rw [hstep]
      intro p hp
      refine ⟨?_, (h p hp).2⟩
      exact (Call.pin_of_error hperform role).trans (h p hp).1
    · rw [hstep]
      intro p hp
      show (token.session.account role).pin = _ ∧ _
      have hp : lastPin? role (call :: w.past) = some p := hp
      cases hrestores : call.restores with
      | true =>
        rw [lastPin?_of_restores hrestores] at hp
        cases hp
      | false =>
        rw [lastPin?_cons hrestores] at hp
        rw [Call.pin_of_done hrestores hperform]
        cases hnew : call.newPin? role with
        | none =>
          rw [hnew] at hp
          exact h p hp
        | some new =>
          rw [hnew] at hp
          cases hp
          exact ⟨rfl, Call.length_of_done hperform hnew⟩

/-- **The token keeps the PIN that a role was given last**, whatever happens. -/
theorem World.pin_run {role : Role} {w : World} (h : w.past = []) (events : List Event) :
    (w.run events).KeepsPin role := by
  refine run_induction (I := World.KeepsPin role) ?_ (fun w event h => h.step event) events
  intro p hp
  rw [h] at hp
  cases hp

/-! ## §5. Calls with a PIN. -/

namespace Call

variable {call : Call} {role : Role} {p : Secret}

/-- A call with a PIN asks one command, which has the PIN in front of its
companion and nothing else. -/
theorem asks_pin (h : call.pin? = some (role, p)) :
    ∃ x label other, call.command? = some x ∧ x.check? = some (role, p)
      ∧ (call.narrow = true → label = role.pinLabel)
      ∧ (∀ c : Client, (call.operation.prepare c).1 = (c.request x).bind fun q => .ok ⟨[], q⟩)
      ∧ ∀ encoding, x.fields encoding = .secret label call.pinWidth p
          :: call.companion?.toList.map (.secret other credentialWidth) := by
  cases call with
  | firstAuthenticate pin temp =>
    cases h
    exact ⟨_, "PIN", "temporary password", rfl, rfl, Bool.noConfusion, fun _ => rfl, fun _ => rfl⟩
  | userAuthenticate pin temp =>
    cases h
    exact ⟨_, "PIN", "temporary password", rfl, rfl, Bool.noConfusion, fun _ => rfl, fun _ => rfl⟩
  | unlockUserPassword pin new =>
    cases h
    exact ⟨_, "admin PIN", "new user PIN", rfl, rfl, Bool.noConfusion, fun _ => rfl, fun _ => rfl⟩
  | changeAdminPin pin new =>
    cases h
    exact ⟨_, "old PIN", "new PIN", rfl, rfl, Bool.noConfusion, fun _ => rfl, fun _ => rfl⟩
  | changeUserPin pin new =>
    cases h
    exact ⟨_, "old PIN", "new PIN", rfl, rfl, Bool.noConfusion, fun _ => rfl, fun _ => rfl⟩
  -- no companion
  | enableSafe pin =>
    cases h
    exact ⟨_, "user PIN", "", rfl, rfl, Bool.noConfusion, fun _ => rfl, fun _ => rfl⟩
  | factoryReset pin =>
    cases h
    exact ⟨_, "admin PIN", "", rfl, rfl, fun _ => rfl, fun _ => rfl, fun _ => rfl⟩
  | newAesKey pin =>
    cases h
    exact ⟨_, "admin PIN", "", rfl, rfl, fun _ => rfl, fun _ => rfl, fun _ => rfl⟩
  | aesSupported pin =>
    cases h
    exact ⟨_, "user PIN", "", rfl, rfl, fun _ => rfl, fun _ => rfl, fun _ => rfl⟩
  | _ => cases h

/-- **A PIN that is too long for its field is refused on the host**, and nothing
is handed over. -/
theorem perform_of_long_pin {σ : Type} (h : call.pin? = some (role, p))
    (hlong : call.pinWidth < p.length) (line : Line σ) (c : Client) (s : σ) :
    ∃ label c', (call.narrow = true → label = role.pinLabel)
      ∧ call.perform line c s
        = (.error (.library (.tooLong label p.length call.pinWidth)), c', s) := by
  obtain ⟨x, label, other, -, -, hlabel, hprepare, hfields⟩ := asks_pin h
  have hrequest : x.toRequest c.capabilities.encoding
      = .error (.tooLong label p.length call.pinWidth) := by
    refine Command.toRequest_eq_error_iff.mpr ⟨.secret label call.pinWidth p, ?_, rfl⟩
    rw [hfields]
    exact List.find?_cons_of_pos (decide_eq_true hlong)
  have hrefused : (call.operation.prepare c).1
      = .error (.library (.tooLong label p.length call.pinWidth)) := by
    rw [hprepare]
    unfold Client.request
    rw [hrequest]
    rfl
  exact ⟨label, _, hlabel, Client.perform_of_refused call.tidy hrefused line s⟩

/-- **The ways in which a call ends whose PIN has room.** -/
inductive Presented (call : Call) (role : Role) (p : Secret) (t : Token) :
    Except Error Value → Token → Prop
  /-- Its companion is too long. -/
  | refused {companion : Secret} {label : String} (hcompanion : call.companion? = some companion)
      (hlong : credentialWidth < companion.length) :
      Presented call role p t
        (.error (.library (.tooLong label companion.length credentialWidth))) t
  | lost (hplug : t.pluggedIn = false) : Presented call role p t (.error (.line .disconnected)) t
  | failed {x : Command} {status : Status} {t' : Token}
      (hcheck : x.check? = some (role, p.untilNul)) (heffect : t.Effect x (.error status, t')) :
      Presented call role p t (.error (.device status)) t'
  | done {x : Command} {payload : Payload} {v : Value} {t' : Token}
      (hcheck : x.check? = some (role, p.untilNul)) (heffect : t.Effect x (.ok payload, t')) :
      Presented call role p t (.ok v) t'

theorem presented (h : call.pin? = some (role, p)) (hroom : p.length ≤ call.pinWidth) (c : Client)
    (t : Token) :
    call.Presented role p t (call.perform Token.line c t).1 (call.perform Token.line c t).2.2 := by
  obtain ⟨x, label, other, hx, hcheck, -, hprepare, hfields⟩ := asks_pin h
  have hcheck : x.norm.check? = some (role, p.untilNul) := by
    rw [x.check?_norm, hcheck]
    rfl
  unfold perform
  cases hrequest : c.request x with
  | error why =>
    -- what does not fit is the companion
    obtain ⟨refusal, hrefusal, rfl⟩ : ∃ refusal,
        x.toRequest c.capabilities.encoding = .error refusal ∧ why = .library refusal := by
      unfold Client.request at hrequest
      cases hq : x.toRequest c.capabilities.encoding with
      | error refusal =>
        rw [hq] at hrequest
        exact ⟨refusal, rfl, (Except.error.inj hrequest).symm⟩
      | ok q =>
        rw [hq] at hrequest
        cases hrequest
    obtain ⟨f, hfirst, rfl⟩ := Command.toRequest_eq_error_iff.mp hrefusal
    have hfits : ¬ (Field.secret label call.pinWidth p).tooLong = true :=
      Field.fits_iff_not_tooLong.mp hroom
    rw [hfields, List.find?_cons_of_neg hfits] at hfirst
    have hrefused : (call.operation.prepare c).1
        = .error (.library (.tooLong f.label f.bytes.length f.width)) := by
      rw [hprepare, hrequest]
      rfl
    rw [Client.perform_of_refused call.tidy hrefused]
    obtain ⟨companion, hcompanion, rfl⟩ := List.mem_map.mp (List.mem_of_find?_eq_some hfirst)
    have hlong := List.find?_some hfirst
    exact .refused (Option.mem_toList.mp hcompanion) (of_decide_eq_true hlong)
  | ok q =>
    have hprepared : (call.operation.prepare c).1 = .ok ⟨[], q⟩ := by
      rw [hprepare, hrequest]
      rfl
    rw [Client.perform_of_prepared call.tidy hprepared]
    by_cases hplug : t.pluggedIn = true
    · rw [(Script.mk [] q).run_alike hplug ⟨rfl, hrequest⟩ (alike_of_command? hx c t)]
      have heffect := t.effect_execute x.norm
      unfold Token.askAll Token.ask
      cases hr : t.execute x.norm with
      | mk answer t' =>
        rw [hr] at heffect
        cases answer with
        | error status => exact .failed hcheck heffect
        | ok payload =>
          have hreads : ¬ ∃ kind index, call = .readSlot kind index := by
            rintro ⟨kind, index, rfl⟩
            cases h
          obtain ⟨v, after, hconclude⟩ := reads_any hreads c payload
          show Presented call role p t (c.finish call.operation (.ok payload)).1 t'
          rw [Client.finish_of_read hconclude]
          exact .done hcheck heffect
    · have hplug := Bool.eq_false_iff.mpr hplug
      rw [Script.run_unplugged hplug]
      exact .lost hplug

end Call

/-- A command that fails although its PIN was right has one of four statuses. -/
theorem Token.Effect.failure_of_right_pin {t t' : Token} {x : Command} {status : Status}
    {role : Role} {pin : Secret} (h : t.Effect x (.error status, t'))
    (hcheck : x.check? = some (role, pin)) (hright : status ≠ .wrongPassword) :
    status ∈ failures := by
  cases h with
  | failed _ _ _ _ hstatus => exact hstatus
  | wrongPin _ _ _ => exact absurd rfl hright
  -- no PIN was asked for
  | barred hbar => cases (check?_of_barred hbar).symm.trans hcheck
  | refused _ hcheck' _ => cases hcheck'.symm.trans hcheck
  | unwritten _ _ => cases hcheck

/-! ## §6. The last PIN. -/

namespace World

/-- **The PIN that a role was given last opens everything that has room for
it.**  Take any host and any token through any calls, and let a call present the
PIN that its role was given last, with no factory reset since:

* in a narrow field a PIN of more than 20 bytes is refused on the host, by its
  length, and the token stays as it was;
* any other call is refused on the host only for what it sends beside the PIN;
* on a plugged-in token, with an attempt left and a companion that fits, the PIN
  passes: the role has all attempts again, and if the call fails then for what
  comes after the check. -/
theorem last_pin_opens (client : Client) (token : Token) (events : List Event) {call : Call}
    {role : Role} {p : Secret}
    (hlast : lastPin? role ((World.mk client token []).run events).past = some p)
    (hgiven : call.pin? = some (role, p)) :
    let w := (World.mk client token []).run events
    let r := call.perform Token.line w.client w.token
    p.length ≤ credentialWidth
      ∧ (call.narrow = true → aesPinWidth < p.length →
          r.1 = .error (.library (.tooLong role.pinLabel p.length aesPinWidth))
            ∧ r.2.2 = w.token)
      ∧ (call.narrow = false ∨ p.length ≤ aesPinWidth →
          (∀ why, r.1 = .error (.library why) → r.2.2 = w.token
            ∧ ∃ companion label, call.companion? = some companion
              ∧ credentialWidth < companion.length
              ∧ why = .tooLong label companion.length credentialWidth)
          ∧ (w.token.pluggedIn = true → w.token.session.retryCount role ≠ 0 →
              (∀ companion ∈ call.companion?, companion.length ≤ credentialWidth) →
              r.2.2.session.retryCount role = maxRetries
                ∧ ((∃ v, r.1 = .ok v)
                  ∨ ∃ status ∈ Token.failures, r.1 = .error (.device status)))) := by
  intro w r
  obtain ⟨hpin, htaken⟩ := World.pin_run rfl events p hlast
  have hpin : (w.token.session.account role).pin = p.untilNul.bytes := hpin
  refine ⟨htaken, ?_, ?_⟩
  · intro hnarrow hlong
    have hwidth := Call.pinWidth_of_narrow hnarrow
    obtain ⟨label, client', hlabel, hrefused⟩ := Call.perform_of_long_pin hgiven
      (by rw [hwidth]; exact hlong) Token.line w.client w.token
    rw [hlabel hnarrow, hwidth] at hrefused
    have hr : r = _ := hrefused
    rw [hr]
    exact ⟨rfl, rfl⟩
  · intro hroom
    have hpresented : call.Presented role p w.token r.1 r.2.2 :=
      Call.presented hgiven (Call.le_pinWidth htaken hroom) w.client w.token
    generalize r.1 = result, r.2.2 = token' at hpresented
    refine ⟨?_, ?_⟩
    · rintro why rfl
      cases hpresented with
      | refused hcompanion hlong => exact ⟨rfl, _, _, hcompanion, hlong, rfl⟩
    · intro hplug hleft hcompanions
      -- an attempt is left, and it is the PIN
      have haccepts : (w.token.session.account role).accepts p.untilNul.bytes = true := by
        refine decide_eq_true ⟨?_, hpin.symm⟩
        rw [Session.account_retryCount]
        exact Nat.pos_of_ne_zero hleft
      have hattempts : ∀ {x answer}, x.check? = some (role, p.untilNul) →
          w.token.Effect x (answer, token') → token'.session.retryCount role = maxRetries := by
        intro x answer hcheck heffect
        have haccount : token'.session.account role = _ := heffect.account_eq role
        rw [← Session.account_retryCount, haccount]
        exact Account.attempts_after_accepts hcheck haccepts _
      cases hpresented with
      | refused hcompanion hlong =>
        exact absurd (hcompanions _ hcompanion) (Nat.not_le_of_lt hlong)
      | lost hunplugged => cases hplug.symm.trans hunplugged
      | failed hcheck heffect =>
        have hright := (heffect.ne_wrongPassword_iff hcheck).mpr haccepts
        have hfailure := heffect.failure_of_right_pin hcheck hright
        exact ⟨hattempts hcheck heffect, .inr ⟨_, hfailure, rfl⟩⟩
      | done hcheck heffect => exact ⟨hattempts hcheck heffect, .inl ⟨_, rfl⟩⟩

/-- The admin of a token that leaves the factory has given itself a PIN of 24
bytes. -/
def longPin : Secret := .ofText "correct horse battery 24"

/-- The call that does it. -/
def changeToLongPin : Event := .call (.changeAdminPin (.ofText "12345678") longPin)

set_option maxRecDepth 20000 in
/-- It logs the admin in, and it is too long for a factory reset. -/
theorem last_pin_opens_long :
    let w := (World.mk (.fresh ⟨true, none⟩) (.fresh .factory) []).run [changeToLongPin]
    let login := (Call.firstAuthenticate longPin (.ofText "t")).perform Token.line w.client w.token
    let reset := (Call.factoryReset longPin).perform Token.line w.client w.token
    login.2.2.session.retryCount .admin = maxRetries
      ∧ reset.1 = .error (.library (.tooLong "admin PIN" longPin.length 20))
      ∧ reset.2.2 = w.token ∧ longPin.length = 24 := by
  have hlast : lastPin? .admin ((World.mk (.fresh ⟨true, none⟩) (.fresh .factory) []).run
      [changeToLongPin]).past = some longPin := by decide +kernel
  have hlogin : (Call.firstAuthenticate longPin (.ofText "t")).pin? = some (.admin, longPin) := rfl
  have hreset : (Call.factoryReset longPin).pin? = some (.admin, longPin) := rfl
  obtain ⟨-, -, hopens⟩ := last_pin_opens _ _ _ hlast hlogin
  obtain ⟨-, hrefuses, -⟩ := last_pin_opens _ _ _ hlast hreset
  obtain ⟨-, hopens⟩ := hopens (.inl rfl)
  have htemp : ∀ companion ∈ (Call.firstAuthenticate longPin (.ofText "t")).companion?,
      companion.length ≤ credentialWidth := by
    rintro _ ⟨⟩
    decide +kernel
  obtain ⟨hattempts, -⟩ := hopens (by decide +kernel) (by decide +kernel) htemp
  obtain ⟨hrefused, hsame⟩ := hrefuses rfl (by decide +kernel)
  exact ⟨hattempts, hrefused, hsame, by decide +kernel⟩

set_option maxRecDepth 20000 in
/-- **It is not true that a PIN that was taken is never refused on the host.**
The admin of a fresh token has a PIN of 24 bytes and all attempts, and cannot
reset the token with it. -/
theorem not_last_pin_opens_all :
    ¬ ∀ (config : TokenConfig) (verifyCrc : Bool) (start : World) (events : List Event)
        (call : Call) (role : Role) (p : Secret), connect config verifyCrc = .ok start →
      let w := start.run events
      lastPin? role w.past = some p → call.pin? = some (role, p) → call.companion? = none →
        w.token.pluggedIn = true → w.token.session.retryCount role ≠ 0 →
        ∀ why, (call.perform Token.line w.client w.token).1 ≠ .error (.library why) := by
  intro h
  have hrun : ∃ start ∈ (connect .factory true).toOption,
      let w := start.run [changeToLongPin]
      lastPin? .admin w.past = some longPin ∧ w.token.pluggedIn = true
        ∧ w.token.session.retryCount .admin ≠ 0 := by decide +kernel
  obtain ⟨start, hconnect, hlast, hplug, hleft⟩ := hrun
  have hgiven : (Call.factoryReset longPin).pin? = some (.admin, longPin) := rfl
  have hlong : (Call.factoryReset longPin).pinWidth < longPin.length := by decide +kernel
  obtain ⟨label, client, -, hrefused⟩ := Call.perform_of_long_pin hgiven hlong Token.line
    (start.run [changeToLongPin]).client (start.run [changeToLongPin]).token
  have hconnect : connect .factory true = .ok start := by
    cases hr : connect .factory true with
    | error why =>
      rw [hr] at hconnect
      cases hconnect
    | ok start' =>
      rw [hr] at hconnect
      cases hconnect
      rfl
  exact h _ _ start _ _ _ _ hconnect hlast hgiven rfl hplug hleft _ (congrArg Prod.fst hrefused)

end World

end OtpToken
