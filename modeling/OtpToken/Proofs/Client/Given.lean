/-
  OtpToken.Proofs.Client.Given
  ────────────────────────────
  **WHAT WAS GIVEN, UP TO ITS FIRST NUL.**

  Four kinds of things are given to a token:

      texts of code slots             read back (`World.ReadsCodes`)
      texts of the Password Safe      read back (`World.ReadsSafe`)
      PINs                            compared (`World.OpensPins`)
      temporary passwords             compared (`World.OpensTemps`)

  Each of the four properties says what holds right after the call that was done,
  and what holds as long as nothing else was given in its place.  Each has a
  parameter: what becomes of a text, or of a secret, before it is read or
  compared.

  All of them hold with everything cut at its first NUL, after every run
  (`World.given_up_to_nul`), and none of them holds exactly
  (`World.not_given_exactly`).
-/
import OtpToken.Proofs.Client.Logins
import OtpToken.Proofs.Client.Pins
import OtpToken.Proofs.Client.Texts

namespace OtpToken

/-- What a call answers. -/
def World.answer (w : World) (call : Call) : Except Error Value :=
  (call.perform Token.line w.client w.token).1

/-- A call that answers a value was done. -/
theorem World.done_of_answer {w : World} {call : Call} {v : Value} (h : w.answer call = .ok v) :
    ∃ client token, call.perform Token.line w.client w.token = (.ok v, client, token)
      ∧ w.step (.call call) = ⟨client, token, call :: w.past⟩ := by
  unfold answer at h
  rcases w.step_call call with ⟨why, client, token, hperform, -⟩ |
    ⟨v', client, token, hperform, hstep⟩
  · rw [hperform] at h
    cases h
  · rw [hperform] at h
    cases h
    exact ⟨client, token, hperform, hstep⟩

/-! ## §1. Texts. -/

namespace World

/-- **A code slot is read as it was written**, with each text as `text` makes it.
The counter is not spoken of. -/
structure ReadsCodes (text : String → String) (w : World) : Prop where
  /-- Right after a write its texts are read. -/
  next : ∀ {call kind index data moving v},
    call.write? kind index = some (data, moving) → w.answer call = .ok v →
      (∃ n, (w.step (.call call)).answer (.readSlot kind index)
        = .ok (.details ⟨text data.name, data.flags, text data.tokenId, n⟩))
      ∧ (w.step (.call call)).answer (.slotName kind index) = .ok (.text (text data.name))
  /-- Whatever is read later is what was written last. -/
  later : ∀ {kind index data moving v}, lastWrite? kind index w.past = some (data, moving) →
      (w.answer (.readSlot kind index) = .ok v →
        ∃ n, v = .details ⟨text data.name, data.flags, text data.tokenId, n⟩)
      ∧ (w.answer (.slotName kind index) = .ok v → v = .text (text data.name))

/-- **A Password Safe slot is read as it was written**, with each text as `text`
makes it. -/
structure ReadsSafe (text : String → String) (w : World) : Prop where
  /-- Right after a write its texts are read. -/
  next : ∀ {index name login password v},
    w.answer (.writeSafe index name login password) = .ok v →
      let after := w.step (.call (.writeSafe index name login password))
      after.answer (.safeName index) = .ok (.text (text name))
        ∧ after.answer (.safeLogin index) = .ok (.text (text login))
        ∧ after.answer (.safePassword index) = .ok (.text (text password))
  /-- Whatever is read later is what was written last. -/
  later : ∀ {index d v}, lastSafe? w.token.config.newKeyKeepsSafe index w.past = some d →
      (w.answer (.safeName index) = .ok v → v = .text (text d.name))
        ∧ (w.answer (.safeLogin index) = .ok v → v = .text (text d.login))
        ∧ (w.answer (.safePassword index) = .ok v → v = .text (text d.password))

theorem readsCodes_of_kept {w : World} (h : w.token.KeepsTexts w.past) :
    w.ReadsCodes Utf8.untilNul := by
  constructor
  · intro call kind index data moving v hwrite hdone
    obtain ⟨client, token, hperform, hstep⟩ := done_of_answer hdone
    obtain ⟨⟨n, after, hslot⟩, ⟨after', hname⟩⟩ := Call.read_after_write hwrite hperform
    rw [hstep]
    exact ⟨⟨n, congrArg Prod.fst hslot⟩, congrArg Prod.fst hname⟩
  · intro kind index data moving v hlast
    constructor
    · intro hread
      obtain ⟨client, token, hperform, -⟩ := done_of_answer hread
      obtain ⟨slot, n, hslot, rfl⟩ := Call.of_readSlot hperform
      rw [(h kind index slot hslot data moving hlast).cut_eq]
      exact ⟨n, rfl⟩
    · intro hread
      obtain ⟨client, token, hperform, -⟩ := done_of_answer hread
      obtain ⟨slot, hslot, rfl⟩ := Call.of_slotName hperform
      rw [(h kind index slot hslot data moving hlast).name, Utf8.untilNul_untilNul]

theorem KeepsSafe.reads {w : World} (h : w.KeepsSafe) : w.ReadsSafe Utf8.untilNul := by
  constructor
  · intro index name login password v hdone
    obtain ⟨client, token, hperform, hstep⟩ := done_of_answer hdone
    obtain ⟨⟨_, hname⟩, ⟨_, hlogin⟩, ⟨_, hpassword⟩⟩ := Call.read_after_writeSafe hperform
    rw [hstep]
    exact ⟨congrArg Prod.fst hname, congrArg Prod.fst hlogin, congrArg Prod.fst hpassword⟩
  · intro index d v hlast
    have hentry : w.token.store.safeAt index = d.entry := by
      unfold Store.safeAt
      rw [h index d hlast]
      rfl
    refine ⟨?_, ?_, ?_⟩
    · intro hread
      obtain ⟨client, token, hperform, -⟩ := done_of_answer hread
      rw [Call.eq_of_safeAnswer? rfl hperform, hentry]
      exact congrArg Value.text (Utf8.untilNul_untilNul d.name)
    · intro hread
      obtain ⟨client, token, hperform, -⟩ := done_of_answer hread
      rw [Call.eq_of_safeAnswer? rfl hperform, hentry]
      exact congrArg Value.text (Utf8.untilNul_untilNul d.login)
    · intro hread
      obtain ⟨client, token, hperform, -⟩ := done_of_answer hread
      rw [Call.eq_of_safeAnswer? rfl hperform, hentry, d.password_entry]

end World

/-! ## §2. PINs. -/

namespace World

/-- **A PIN opens what it was given for**, and no other PIN does, where those that
`secret` makes the same are one PIN. -/
structure OpensPins (secret : Secret → Secret) (w : World) : Prop where
  /-- A new PIN comes with all attempts. -/
  next : ∀ {call role new v}, call.newPin? role = some new → w.answer call = .ok v →
    (w.step (.call call)).token.session.retryCount role = maxRetries
  /-- With an attempt left, a call that is sent passes the check exactly with the PIN
  that its role was given last. -/
  later : ∀ {call role given pin}, lastPin? role w.past = some given →
    call.pin? = some (role, pin) → w.token.pluggedIn = true →
    w.token.session.retryCount role ≠ 0 →
    (∀ why, w.answer call ≠ .error (.library why)) →
      (w.answer call ≠ .error (.device .wrongPassword) ↔ secret pin = secret given)

end World

namespace Call

variable {call : Call} {c c' : Client} {t t' : Token} {role : Role} {new pin : Secret} {v : Value}

/-- **Whoever is given a new PIN has all attempts.** -/
theorem retryCount_of_newPin (hnew : call.newPin? role = some new)
    (h : call.perform Token.line c t = (.ok v, c', t')) :
    t'.session.retryCount role = maxRetries := by
  have hsingle : call.single = true := by
    cases call <;> first | rfl | cases hnew
  obtain ⟨x, payload, after, hx, hask, -⟩ := of_single_done hsingle h
  have heffect := Token.effect_of_ask_ok hask
  have haccount : t'.session.account role = _ := heffect.account_eq role
  -- who changes its own PIN has presented the right one
  have hchanges : ∀ {old}, x.norm.check? = some (role, old) →
      t'.session.retryCount role = maxRetries := by
    intro old hcheck
    have haccepts := (heffect.ne_wrongPassword_iff hcheck).mp Status.noConfusion
    rw [← Session.account_retryCount, haccount]
    exact Account.attempts_after_accepts hcheck haccepts _
  cases call with
  | changeAdminPin old given =>
    obtain ⟨rfl, -⟩ := Option.ite_none_right_eq_some.mp hnew
    cases hx
    exact hchanges rfl
  | changeUserPin old given =>
    obtain ⟨rfl, -⟩ := Option.ite_none_right_eq_some.mp hnew
    cases hx
    exact hchanges rfl
  | unlockUserPassword adminPin given =>
    -- the admin gives the user a new one, and the attempts with it
    obtain ⟨rfl, -⟩ := Option.ite_none_right_eq_some.mp hnew
    cases hx
    rw [← Session.account_retryCount, haccount]
    rfl
  | _ => cases hnew

/-- **A call that is sent passes the check exactly if it presents the PIN of its
role**, with an attempt left. -/
theorem ne_wrongPassword_iff (h : call.pin? = some (role, pin)) (hplug : t.pluggedIn = true)
    (hsent : ∀ why, (call.perform Token.line c t).1 ≠ .error (.library why)) :
    (call.perform Token.line c t).1 ≠ .error (.device .wrongPassword)
      ↔ (t.session.account role).accepts pin.untilNul.bytes = true := by
  have hsingle : call.single = true := by
    cases call <;> first | rfl | cases h
  obtain ⟨x, label, other, hx, hcheck, -⟩ := asks_pin h
  obtain ⟨x', hx', hdevice⟩ := device_iff hsingle hplug hsent
  cases hx.symm.trans hx'
  have hcheck' : x.norm.check? = some (role, pin.untilNul) := by
    rw [x.check?_norm, hcheck]
    rfl
  rw [ne_eq, hdevice _ Status.noConfusion]
  exact (Token.effect_execute t x.norm).ne_wrongPassword_iff hcheck'

end Call

theorem World.opensPins_of_kept {w : World} (h : ∀ role, w.KeepsPin role) :
    w.OpensPins Secret.untilNul := by
  constructor
  · intro call role new v hnew hdone
    obtain ⟨client, token, hperform, hstep⟩ := done_of_answer hdone
    rw [hstep]
    exact Call.retryCount_of_newPin hnew hperform
  · intro call role given pin hlast hcall hplug hleft hsent
    obtain ⟨hpin, -⟩ := h role given hlast
    refine (Call.ne_wrongPassword_iff hcall hplug hsent).trans ?_
    constructor
    · intro haccepts
      have hsame : pin.untilNul.bytes = _ := (of_decide_eq_true haccepts).2
      exact congrArg Secret.mk (hsame.trans hpin)
    · intro hsame
      refine decide_eq_true ⟨?_, ?_⟩
      · rw [Session.account_retryCount]
        exact Nat.pos_of_ne_zero hleft
      · rw [hpin, hsame]

/-! ## §3. Temporary passwords. -/

/-- **A temporary password opens what its role may do as long as the role is
logged in**, and no other opens it, where those that `secret` makes the same are
one.  Nothing opens it that is empty then. -/
structure World.OpensTemps (secret : Secret → Secret) (w : World) : Prop where
  /-- Who has logged in is logged in. -/
  next : ∀ {call role given v}, call.login? role = some given → w.answer call = .ok v →
    (w.step (.call call)).token.session.isAuthenticated role = true
  /-- A call that is sent is let through exactly with the temporary password of the
  last login.  Codes ask for one only while they are protected. -/
  later : ∀ {call role given temp}, lastLogin? role w.past = some given →
    call.temp? = some (role, temp) → w.token.pluggedIn = true →
    (role = .user → w.token.store.config.protectsCodes = true) →
    (∀ why, w.answer call ≠ .error (.library why)) →
      (w.answer call ≠ .error (.device .notAuthorized)
        ↔ w.token.session.isAuthenticated role = true ∧ secret temp = secret given
          ∧ (secret temp).bytes ≠ [])

theorem World.opensTemps_of_kept {w : World} (h : ∀ role, w.KeepsTemp role) :
    w.OpensTemps Secret.untilNul := by
  constructor
  · intro call role given v hlogin hdone
    obtain ⟨client, token, hperform, hstep⟩ := done_of_answer hdone
    rw [hstep, Session.isAuthenticated_eq, Call.temp_of_login hlogin hperform]
    rfl
  · intro call role given temp hlast hcall hplug hprotects hsent
    exact last_login_admits (h role) hlast hcall hplug hprotects hsent

/-! ## §4. Everything that is given. -/

namespace World

/-- **What is given to a token is kept up to its first NUL, and no less.**  Take any
host and any token through any calls, done or not, and through being unplugged.

* The texts of a slot that was written are read back, each up to its first NUL:
  right after the write, and until the slot is written again.
* A PIN that a role was given passes its check, and besides it exactly those that
  are the same up to the first NUL, until the role is given another one.
* A role that has logged in is let through with its temporary password, and besides
  it exactly with those that are the same up to the first NUL; with an empty one it
  never is. -/
theorem given_up_to_nul (client : Client) (token : Token) (events : List Event) :
    let w := (World.mk client token []).run events
    w.ReadsCodes Utf8.untilNul ∧ w.ReadsSafe Utf8.untilNul
      ∧ w.OpensPins Secret.untilNul ∧ w.OpensTemps Secret.untilNul :=
  ⟨readsCodes_of_kept (texts_run rfl events), (safe_run rfl events).reads,
    opensPins_of_kept fun _ => pin_run rfl events, opensTemps_of_kept fun _ => temp_run rfl events⟩

/-- Everything here has a NUL with more behind it: the temporary password of the
admin, the name of a code slot, the texts of a Password Safe slot, and the new PIN
of the user. -/
def cutShort : List Event :=
  [.call (.firstAuthenticate (.ofText "12345678") (.ofText "temp\x00one")),
    .call (.writeHotp 0 ⟨"mail\x00box", "3132333435363738393031323334353637383930", {}, ""⟩ 0
      (.ofText "temp\x00one")),
    .call (.enableSafe (.ofText "123456")),
    .call (.writeSafe 0 "bank\x00er" "alice\x00s" "pass\x00word"),
    .call (.changeUserPin (.ofText "123456") (.ofText "246810\x00x"))]

set_option maxRecDepth 20000 in
/-- **It is not true that things come back, or open, exactly as they were given**:
not one of the four properties holds so. -/
theorem not_given_exactly :
    ¬ ∀ (config : TokenConfig) (verifyCrc : Bool) (start : World) (events : List Event),
        connect config verifyCrc = .ok start →
      let w := start.run events
      w.ReadsCodes id ∨ w.ReadsSafe id ∨ w.OpensPins id ∨ w.OpensTemps id := by
  intro h
  let login : Call := .userAuthenticate (.ofText "246810") (.ofText "t")
  let erase : Call := .eraseSlot .hotp 0 (.ofText "temp")
  have hrun : ∃ start ∈ (connect .factory true).toOption,
      let w := start.run cutShort
      w.token.pluggedIn = true ∧ w.token.session.retryCount .user ≠ 0
        ∧ (w.answer (.slotName .hotp 0)).toOption = some (.text "mail")
        ∧ (w.answer (.safeName 0)).toOption = some (.text "bank")
        ∧ (w.answer login).toOption = some .nothing
        ∧ (w.answer erase).toOption = some .nothing
        ∧ (lastWrite? .hotp 0 w.past).map (fun x => x.1.name) = some "mail\x00box"
        ∧ (lastSafe? w.token.config.newKeyKeepsSafe 0 w.past).map SafeData.name
          = some "bank\x00er"
        ∧ lastPin? .user w.past = some (.ofText "246810\x00x")
        ∧ lastLogin? .admin w.past = some (.ofText "temp\x00one") := by
    decide +kernel
  obtain ⟨start, hconnect, hplug, hleft, hslot, hsafe, hlogin, herase, hwritten, hfiled, hpin,
    htemp⟩ := hrun
  have hlogin := ok_of_toOption hlogin
  have herase := ok_of_toOption herase
  rcases h _ _ start cutShort (ok_of_toOption hconnect) with hall | hall | hall | hall
  · obtain ⟨⟨data, moving⟩, hlast, hname⟩ := Option.map_eq_some_iff.mp hwritten
    have hread : Value.text "mail" = .text data.name := (hall.later hlast).2 (ok_of_toOption hslot)
    rw [show data.name = "mail\x00box" from hname] at hread
    exact absurd hread (by decide)
  · obtain ⟨d, hlast, hname⟩ := Option.map_eq_some_iff.mp hfiled
    have hread : Value.text "bank" = .text d.name := (hall.later hlast).1 (ok_of_toOption hsafe)
    rw [hname] at hread
    exact absurd hread (by decide)
  · have hpresents : login.pin? = some (.user, .ofText "246810") := rfl
    have hsent : ∀ why, (start.run cutShort).answer login ≠ .error (.library why) := by
      rw [hlogin]
      exact nofun
    have hright : (start.run cutShort).answer login ≠ .error (.device .wrongPassword) := by
      rw [hlogin]
      exact nofun
    exact absurd ((hall.later hpin hpresents hplug hleft hsent).mp hright) (by decide)
  · have hpresents : erase.temp? = some (.admin, .ofText "temp") := rfl
    have hsent : ∀ why, (start.run cutShort).answer erase ≠ .error (.library why) := by
      rw [herase]
      exact nofun
    have hlet : (start.run cutShort).answer erase ≠ .error (.device .notAuthorized) := by
      rw [herase]
      exact nofun
    have hsame := ((hall.later htemp hpresents hplug nofun hsent).mp hlet).2.1
    exact absurd hsame (by decide)

end World

end OtpToken
