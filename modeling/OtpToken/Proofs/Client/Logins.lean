/-
  OtpToken.Proofs.Client.Logins
  ─────────────────────────────
  **ONLY THE LAST LOGIN OPENS ANYTHING.**

  A login gives a role a temporary password, and the token keeps it up to its
  first zero byte.  Six calls present one:

      admin     writeConfig, writeHotp, writeTotp, eraseSlot
      user      hotpCode, totpCode, while codes are protected

  Whatever happens after a login, the role has this temporary password or none
  (`World.temp_run`).  So a call that is sent is refused as `notAuthorized`
  exactly if the role is no longer logged in, or if what it presents is empty or
  not the same up to the first zero byte (`World.last_login_admits`).

  A write of a code slot presents its temporary password with every piece, and
  the first one decides (`Script.run_write_iff`): none of them changes who is
  logged in.
-/
import OtpToken.Proofs.Client.Asked
import OtpToken.Proofs.Token.Authority

namespace OtpToken

/-! ## §1. What calls say about temporary passwords. -/

namespace Call

/-- The temporary password that a call presents, with the role that should be
logged in with it. -/
def temp? : Call → Option (Role × Secret)
  | writeConfig _ temp | writeHotp _ _ _ temp | writeTotp _ _ _ temp | eraseSlot _ _ temp =>
      some (.admin, temp)
  | hotpCode _ temp | totpCode _ _ _ _ temp => some (.user, temp)
  | _ => none

/-- The temporary password with which a call logs a role in. -/
def login? (role : Role) : Call → Option Secret
  | firstAuthenticate _ temp => if role = .admin then some temp else none
  | userAuthenticate _ temp => if role = .user then some temp else none
  | _ => none

end Call

/-- The temporary password with which a role logged in last. -/
def lastLogin? (role : Role) (past : List Call) : Option Secret :=
  past.findSome? (Call.login? role)

theorem lastLogin?_cons {role : Role} {call : Call} {past : List Call} :
    lastLogin? role (call :: past) = (call.login? role <|> lastLogin? role past) := by
  unfold lastLogin?
  rw [List.findSome?_cons]
  cases call.login? role with
  | none => rfl
  | some temp => rfl

/-! ## §2. What commands say about them. -/

namespace Command

theorem loginFor?_norm (x : Command) (role : Role) :
    x.norm.loginFor? role = (x.loginFor? role).map Secret.untilNul := by
  cases x with
  | firstAuthenticate pin temp => cases role <;> rfl
  | userAuthenticate pin temp => cases role <;> rfl
  | sendOtpData temp kind chunk data => cases kind <;> rfl
  | _ => rfl

theorem adminTemp?_norm (x : Command) :
    x.norm.adminTemp? = x.adminTemp?.map Secret.untilNul := by
  cases x with
  | sendOtpData temp kind chunk data => cases kind <;> rfl
  | _ => rfl

/-- A request presents to the token what it was made to present, also where host
and token do not agree on how counters are written. -/
theorem adminTemp?_of_parse {x y : Command} {q : Request} {encoding encoding' : CounterEncoding}
    (hq : x.toRequest encoding = .ok q) (hparse : parse q encoding' = .ok y) :
    y.adminTemp? = x.adminTemp?.map Secret.untilNul := by
  rcases read_as hq hparse with rfl | ⟨hwrite, -⟩
  · exact x.adminTemp?_norm
  · cases x with
    | writeToSlot temp number counter flags tokenId =>
      rw [parse_write hq] at hparse
      split at hparse
      · cases hparse
        rfl
      · cases hparse
    | _ => cases hwrite

variable {x : Command} {role : Role}

/-- A command that fails sets no temporary password. -/
theorem liveAfter_false (x : Command) (role : Role) (live : Option Bytes) :
    x.liveAfter role false live = none ∨ x.liveAfter role false live = live := by
  unfold liveAfter
  split
  · exact .inl rfl
  · exact .inr rfl

/-- No command but a login sets one. -/
theorem liveAfter_of_none (h : x.loginFor? role = none) (done : Bool) (live : Option Bytes) :
    x.liveAfter role done live = none ∨ x.liveAfter role done live = live := by
  unfold liveAfter
  rw [h]
  dsimp only
  split
  · exact .inl rfl
  · exact .inr rfl

/-- A login that is done sets its own. -/
theorem liveAfter_of_some {temp : Secret} (h : x.loginFor? role = some temp)
    (live : Option Bytes) : x.liveAfter role true live = some temp.bytes := by
  unfold liveAfter
  rw [h]
  rfl

end Command

/-- The command of a call logs in whom the call logs in. -/
theorem Call.loginFor?_of_command? {call : Call} {x : Command} (hx : call.command? = some x)
    (role : Role) : x.loginFor? role = call.login? role := by
  cases call with
  | firstAuthenticate pin temp =>
    cases hx
    cases role <;> rfl
  | userAuthenticate pin temp =>
    cases hx
    cases role <;> rfl
  | writeHotp index data counter temp => cases hx
  | writeTotp index data period temp => cases hx
  | writeSafe index name login password => cases hx
  -- no login, in a command about a code slot
  | hotpCode index temp =>
    obtain ⟨number, -, rfl⟩ := Option.map_eq_some_iff.mp hx
    rfl
  | totpCode index challenge lastTime lastInterval temp =>
    obtain ⟨number, -, rfl⟩ := Option.map_eq_some_iff.mp hx
    rfl
  | readSlot kind index =>
    obtain ⟨number, -, rfl⟩ := Option.map_eq_some_iff.mp hx
    rfl
  | slotName kind index =>
    obtain ⟨number, -, rfl⟩ := Option.map_eq_some_iff.mp hx
    rfl
  | eraseSlot kind index temp =>
    obtain ⟨number, -, rfl⟩ := Option.map_eq_some_iff.mp hx
    rfl
  | _ =>
    cases hx
    rfl

/-! ## §3. Who is logged in after a call. -/

namespace Call

variable {call : Call} {c c' : Client} {t t' : Token} {v : Value} {why : Error} {role : Role}

/-- **A call that fails leaves a role its temporary password, or none.** -/
theorem temp_of_error (h : call.perform Token.line c t = (.error why, c', t')) (role : Role) :
    t'.session.temp? role = none ∨ t'.session.temp? role = t.session.temp? role := by
  by_cases hsingle : call.single = true
  · cases performed_single hsingle h with
    | unsent => exact .inr rfl
    | failed hQ hall =>
      obtain ⟨rfl, -⟩ := hQ
      obtain ⟨status, heffect⟩ := Token.effect_of_ask_error hall
      have hdone : (Answer.status (.error status)).isOk = false :=
        decide_eq_false (heffect.status_of_error rfl).1
      have htemp := heffect.temp?_eq role
      dsimp only at htemp
      rw [htemp, hdone]
      exact Command.liveAfter_false _ role _
    | unread hQ hall hconclude =>
      obtain ⟨rfl, hx⟩ := hQ
      -- nobody logs in by asking for the details of a slot
      obtain ⟨kind, index, rfl⟩ := eq_readSlot_of_unread hconclude
      have htemp := (Token.effect_of_ask_ok hall).temp?_eq role
      rw [htemp]
      refine Command.liveAfter_of_none ?_ _ _
      rw [Command.loginFor?_norm, loginFor?_of_command? hx]
      rfl
  · have hsession := session_of_not_single hsingle c t
    rw [h] at hsession
    exact .inr (congrArg (Session.temp? · role) hsession)

/-- **A login that is done gives its role the temporary password as it
arrives.** -/
theorem temp_of_login {given : Secret} (hlogin : call.login? role = some given)
    (h : call.perform Token.line c t = (.ok v, c', t')) :
    t'.session.temp? role = some given.untilNul.bytes := by
  have hsingle : call.single = true := by
    cases call <;> first | rfl | cases hlogin
  obtain ⟨x, payload, after, hx, hask, -⟩ := of_single_done hsingle h
  have htemp := (Token.effect_of_ask_ok hask).temp?_eq role
  rw [htemp]
  refine Command.liveAfter_of_some ?_ _
  rw [Command.loginFor?_norm, loginFor?_of_command? hx, hlogin]
  rfl

/-- Any other call that is done leaves the role its temporary password, or
none. -/
theorem temp_of_done (hlogin : call.login? role = none)
    (h : call.perform Token.line c t = (.ok v, c', t')) :
    t'.session.temp? role = none ∨ t'.session.temp? role = t.session.temp? role := by
  by_cases hsingle : call.single = true
  · obtain ⟨x, payload, after, hx, hask, -⟩ := of_single_done hsingle h
    have htemp := (Token.effect_of_ask_ok hask).temp?_eq role
    rw [htemp]
    refine Command.liveAfter_of_none ?_ _ _
    rw [Command.loginFor?_norm, loginFor?_of_command? hx, hlogin]
    rfl
  · have hsession := session_of_not_single hsingle c t
    rw [h] at hsession
    exact .inr (congrArg (Session.temp? · role) hsession)

end Call

/-- A role that is logged in is so with the temporary password of its last
login. -/
def World.KeepsTemp (role : Role) (w : World) : Prop :=
  ∀ given, lastLogin? role w.past = some given →
    w.token.session.temp? role = none ∨ w.token.session.temp? role = some given.untilNul.bytes

theorem World.KeepsTemp.step {role : Role} {w : World} (h : w.KeepsTemp role) (event : Event) :
    (w.step event).KeepsTemp role := by
  have hafter : ∀ {token : Token}, token.session.temp? role = none
      ∨ token.session.temp? role = w.token.session.temp? role →
      ∀ given, lastLogin? role w.past = some given →
        token.session.temp? role = none ∨ token.session.temp? role = some given.untilNul.bytes := by
    intro token htoken given hgiven
    rcases htoken with hnone | hsame
    · exact .inl hnone
    · rw [hsame]
      exact h given hgiven
  cases event with
  | unplug => exact h
  | plugIn => exact h
  | call call =>
    rcases w.step_call call with ⟨why, client, token, hperform, hstep⟩ |
      ⟨v, client, token, hperform, hstep⟩
    · rw [hstep]
      exact hafter (Call.temp_of_error hperform role)
    · rw [hstep]
      intro given hgiven
      have hgiven : lastLogin? role (call :: w.past) = some given := hgiven
      rw [lastLogin?_cons] at hgiven
      cases hlogin : call.login? role with
      | none =>
        rw [hlogin] at hgiven
        exact hafter (Call.temp_of_done hlogin hperform) given hgiven
      | some temp =>
        rw [hlogin] at hgiven
        cases hgiven
        exact .inr (Call.temp_of_login hlogin hperform)

/-- **A role that is logged in is so with the temporary password of its last
login**, whatever happens. -/
theorem World.temp_run {role : Role} {w : World} (h : w.past = []) (events : List Event) :
    (w.run events).KeepsTemp role := by
  refine run_induction (I := World.KeepsTemp role) ?_ (fun w event h => h.step event) events
  intro given hgiven
  rw [h] at hgiven
  cases hgiven

/-! ## §4. What a temporary password opens. -/

/-- **A script that no request lets end with a status does not end with it**; `I`
is what every request preserves. -/
theorem Script.run_ne_device {I : Token → Prop} {t : Token} {status : Status} (script : Script)
    (h : ∀ q ∈ script.requests, ∀ t : Token, I t →
      I (t.handle q).2 ∧ (t.handle q).1 ≠ .error status) (ht : I t) (verify : Bool) :
    (script.run Token.line verify t).1 ≠ .error (.device status) := by
  have hone : ∀ q ∈ script.requests, ∀ t : Token, I t →
      I (q.exchange Token.line verify t).2
        ∧ (q.exchange Token.line verify t).1 ≠ .error (.device status) := by
    intro q hq t ht
    by_cases hplug : t.pluggedIn = true
    · obtain ⟨hkept, hne⟩ := h q hq t ht
      rw [q.exchange_handle hplug]
      refine ⟨hkept, fun e => hne ?_⟩
      cases hr : (t.handle q).1 with
      | ok payload =>
        rw [hr] at e
        cases e
      | error told =>
        rw [hr] at e
        cases e
        rfl
    · rw [q.exchange_unplugged (Bool.eq_false_iff.mpr hplug)]
      exact ⟨ht, nofun⟩
  clear h
  unfold requests at hone
  unfold run
  generalize script.opening = qs at hone
  -- along the requests, with the token after those that were answered
  induction qs generalizing t with
  | nil => exact (hone script.final List.mem_cons_self t ht).2
  | cons q qs ih =>
    obtain ⟨hkept, hne⟩ := hone q List.mem_cons_self t ht
    rw [run.go]
    cases hr : q.exchange Token.line verify t with
    | mk answer t' =>
      rw [hr] at hkept hne
      cases answer with
      | error why => exact hne
      | ok payload => exact ih hkept fun q' hq' => hone q' (List.mem_cons_of_mem q hq')

section Write

variable {c : Client} {t : Token} {script : Script} {temp secret : Secret} {name tokenId : String}
  {number : UInt8} {counter : UInt64} {flags : SlotFlags}

/-- A request of a write that presents the live temporary password is not barred,
and leaves it live. -/
theorem Token.handle_of_admits {x : Command} {q : Request} {encoding : CounterEncoding}
    (hq : x.toRequest encoding = .ok q) (hstores : x.id.stores = true)
    (htemp : x.adminTemp? = some temp)
    (hadmits : t.session.admits .admin temp.untilNul.bytes = true) :
    (t.handle q).2.session = t.session ∧ (t.handle q).1 ≠ .error .notAuthorized := by
  unfold handle
  cases hparse : Command.parse q t.encoding with
  | error status =>
    refine ⟨rfl, fun e => ?_⟩
    cases e
    have hother : Status.notAuthorized ∉ unreadable := by decide
    exact hother (mem_unreadable hparse)
  | ok y =>
    have heffect := effect_execute t y
    have hpresents : y.adminTemp? = some temp.untilNul := by
      rw [Command.adminTemp?_of_parse hq hparse, htemp]
      rfl
    refine ⟨heffect.session_of_stores ?_, fun e => ?_⟩
    · rw [Command.id_of_parse hq hparse]
      exact hstores
    · refine heffect.ne_notAuthorized ((allows_of_adminTemp hpresents).trans hadmits) ?_
      rw [show (t.execute y).1 = _ from e]
      rfl

/-- The first piece of a write with another temporary password is barred. -/
theorem Token.ask_of_not_admits (hadmits : ¬ t.session.admits .admin temp.untilNul.bytes = true)
    {x : Command} (htemp : x.adminTemp? = some temp) :
    t.ask x = (.error (.device .notAuthorized), t) := by
  have hpresents : x.norm.adminTemp? = some temp.untilNul := by
    rw [x.adminTemp?_norm, htemp]
    rfl
  have hbar : t.allows x.norm = false := by
    rw [allows_of_adminTemp hpresents]
    exact Bool.eq_false_iff.mpr hadmits
  unfold ask
  rw [(effect_execute t x.norm).eq_of_barred hbar]
  rfl

/-- **A write of a code slot is not barred exactly if it presents the live
temporary password of the admin.** -/
theorem Script.run_write_iff (hplug : t.pluggedIn = true)
    (hasks : script.Asks c (Operation.stagingCommands temp name secret)
      (.writeToSlot temp number counter flags tokenId)) (verify : Bool) :
    (script.run Token.line verify t).1 ≠ .error (.device .notAuthorized)
      ↔ t.session.admits .admin temp.untilNul.bytes = true := by
  have hpieces : ∀ x ∈ Operation.stagingCommands temp name secret,
      x.id.stores = true ∧ x.adminTemp? = some temp ∧ x.WrittenAlike c t := by
    intro x hx
    rcases Operation.of_mem_stagingCommands hx with rfl | ⟨chunk, data, rfl⟩
    · exact ⟨rfl, rfl, Command.writtenAlike_of_ne CommandId.noConfusion c t⟩
    · exact ⟨rfl, rfl, Command.writtenAlike_of_ne CommandId.noConfusion c t⟩
  by_cases hadmits : t.session.admits .admin temp.untilNul.bytes = true
  · refine iff_of_true ?_ hadmits
    let I (t' : Token) := t'.session = t.session
    refine script.run_ne_device (I := I) (fun q hq t' ht' => ?_) rfl verify
    obtain ⟨x, hx, hrequest⟩ := hasks.exists_command hq
    have hx : x.id.stores = true ∧ x.adminTemp? = some temp := by
      rcases hx with hx | rfl
      · exact ⟨(hpieces x hx).1, (hpieces x hx).2.1⟩
      · exact ⟨rfl, rfl⟩
    have hadmits' : t'.session.admits .admin temp.untilNul.bytes = true := by
      rw [show t'.session = t.session from ht']
      exact hadmits
    obtain ⟨hsession, hne⟩ := Token.handle_of_admits hrequest hx.1 hx.2 hadmits'
    exact ⟨hsession.trans ht', hne⟩
  · refine iff_of_false (not_not_intro ?_) hadmits
    have hbarred : t.ask (.sendOtpData temp .name 0 (.ofText name)) = _ :=
      Token.ask_of_not_admits hadmits rfl
    have hfirst : ∃ rest, Operation.stagingCommands temp name secret
        = .sendOtpData temp .name 0 (.ofText name) :: rest := ⟨_, rfl⟩
    obtain ⟨rest, hfirst⟩ := hfirst
    rcases Script.run_opening hplug (fun x hx => (hpieces x hx).2.2) hasks.1 verify with
      ⟨why, t', hrun, hall⟩ | ⟨t₁, htaken, -⟩
    · have hwhy := hall (.writeToSlot temp number counter flags tokenId)
      rw [hfirst] at hwhy
      unfold Token.askAll at hwhy
      rw [hbarred] at hwhy
      rw [hrun]
      exact (congrArg Prod.fst hwhy).symm
    · rw [hfirst] at htaken
      obtain ⟨told, t', hask, -⟩ := Token.ask_of_taken_cons htaken
      cases hbarred.symm.trans hask

end Write

namespace Call

variable {call : Call} {c : Client} {t : Token} {role : Role} {u : Secret}

/-- The guard of a command is the temporary password that its call presents. -/
theorem allows_of_temp {x : Command} (hx : call.command? = some x)
    (h : call.temp? = some (role, u))
    (hprotects : role = .user → t.store.config.protectsCodes = true) :
    t.allows x.norm = t.session.admits role u.untilNul.bytes := by
  cases call with
  | writeConfig config temp =>
    cases hx
    cases h
    exact Token.allows_of_adminTemp rfl
  | eraseSlot kind index temp =>
    obtain ⟨number, -, rfl⟩ := Option.map_eq_some_iff.mp hx
    cases h
    exact Token.allows_of_adminTemp rfl
  | hotpCode index temp =>
    obtain ⟨number, -, rfl⟩ := Option.map_eq_some_iff.mp hx
    cases h
    exact Token.allows_getCode (hprotects rfl)
  | totpCode index challenge lastTime lastInterval temp =>
    obtain ⟨number, -, rfl⟩ := Option.map_eq_some_iff.mp hx
    cases h
    exact Token.allows_getCode (hprotects rfl)
  | writeHotp index data counter temp => cases hx
  | writeTotp index data period temp => cases hx
  | _ => cases h

/-- A write of a code slot that is sent is not barred exactly if it presents the live
temporary password of the admin. -/
theorem write_ne_notAuthorized_iff {kind : CodeKind} {index : UInt8} {data : SlotData}
    {moving : UInt64}
    (hasks : call.operation.Asks c (Operation.AsksWrite c kind index data moving u))
    (hplug : t.pluggedIn = true)
    (hsent : ∀ why, (call.perform Token.line c t).1 ≠ .error (.library why)) :
    (call.perform Token.line c t).1 ≠ .error (.device .notAuthorized)
      ↔ t.session.admits .admin u.untilNul.bytes = true := by
  unfold perform at hsent ⊢
  cases hprepare : (call.operation.prepare c).1 with
  | error why =>
    obtain ⟨refusal, rfl⟩ := call.refuses_on_host c why hprepare
    rw [Client.perform_of_refused call.tidy hprepare] at hsent
    exact absurd rfl (hsent refusal)
  | ok script =>
    obtain ⟨cs, last, hscript, number, secret, -, -, rfl, rfl⟩ := hasks script hprepare
    rw [Client.perform_of_prepared call.tidy hprepare, ne_eq, Client.finish_device_iff]
    exact Script.run_write_iff hplug hscript c.options.verifyCrc

/-- **A call that is sent is not barred exactly if it presents the live temporary
password of its role.** -/
theorem ne_notAuthorized_iff (h : call.temp? = some (role, u)) (hplug : t.pluggedIn = true)
    (hprotects : role = .user → t.store.config.protectsCodes = true)
    (hsent : ∀ why, (call.perform Token.line c t).1 ≠ .error (.library why)) :
    (call.perform Token.line c t).1 ≠ .error (.device .notAuthorized)
      ↔ t.session.admits role u.untilNul.bytes = true := by
  by_cases hsingle : call.single = true
  · obtain ⟨x, hx, hdevice⟩ := device_iff hsingle hplug hsent
    rw [ne_eq, hdevice _ Status.noConfusion, ← allows_of_temp hx h hprotects]
    exact (Token.effect_execute t x.norm).ne_notAuthorized_iff
  · cases call with
    | writeHotp index data counter temp =>
      cases h
      exact write_ne_notAuthorized_iff Operation.asks_writeSlot hplug hsent
    | writeTotp index data period temp =>
      cases h
      exact write_ne_notAuthorized_iff Operation.asks_writeSlot hplug hsent
    | writeSafe index name login password => cases h
    | _ => exact absurd rfl hsingle

end Call

/-- **Only the last login of a role opens anything.**  A call that is sent to a
plugged-in token presents a temporary password: it is barred unless the role is
logged in and the call presents, up to the first zero byte, what the role logged in
with last, and not nothing. -/
theorem World.last_login_admits {w : World} {role : Role} (h : w.KeepsTemp role) {given u : Secret}
    {call : Call} (hlast : lastLogin? role w.past = some given)
    (hcall : call.temp? = some (role, u)) (hplug : w.token.pluggedIn = true)
    (hprotects : role = .user → w.token.store.config.protectsCodes = true)
    (hsent : ∀ why, (call.perform Token.line w.client w.token).1 ≠ .error (.library why)) :
    (call.perform Token.line w.client w.token).1 ≠ .error (.device .notAuthorized)
      ↔ w.token.session.isAuthenticated role = true ∧ u.untilNul = given.untilNul
        ∧ u.untilNul.bytes ≠ [] := by
  rw [Call.ne_notAuthorized_iff hcall hplug hprotects hsent, Session.admits_iff,
    Session.isAuthenticated_eq]
  rcases h given hlast with hnone | hlive
  · rw [hnone]
    exact iff_of_false (fun e => nomatch e.2) (fun e => nomatch e.1)
  · rw [hlive]
    constructor
    · rintro ⟨hne, hsame⟩
      exact ⟨rfl, congrArg Secret.mk (Option.some.inj hsame).symm, hne⟩
    · rintro ⟨-, hsame, hne⟩
      exact ⟨hne, by rw [hsame]⟩

end OtpToken
