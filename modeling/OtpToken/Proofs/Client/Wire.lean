/-
  OtpToken.Proofs.Client.Wire
  ───────────────────────────
  **THE LINE TO A TOKEN ADDS NOTHING AND LOSES NOTHING.**

  Between a host and a plugged-in token stand reports, checksums, echoes and
  status bytes.  `exchange_line` takes all of it away: a request for a command
  is answered as the token answers the command itself (`Token.ask`), and a
  script is a list of commands asked one after the other (`run_line`).

  On an unplugged token nothing happens at all.
-/
import OtpToken.Client.Operation
import OtpToken.Proofs.Token.Dialogue

namespace OtpToken

/-! ## §1. Steps that succeed. -/

theorem exists_of_bind_ok {ε α β : Type} {x : Except ε α} {next : α → Except ε β} {b : β}
    (h : x >>= next = .ok b) : ∃ a, x = .ok a ∧ next a = .ok b := by
  cases x with
  | error e => cases h
  | ok a => exact ⟨a, rfl, h⟩

theorem ok_of_toOption {ε α : Type} {x : Except ε α} {a : α} (h : x.toOption = some a) :
    x = .ok a := by
  cases x with
  | error e => cases h
  | ok a' =>
    cases h
    rfl

theorem of_mapError_ok {ε ε' α : Type} {x : Except ε α} {f : ε → ε'} {a : α}
    (h : x.mapError f = .ok a) : x = .ok a := by
  cases x with
  | error e => cases h
  | ok a' =>
    cases h
    rfl

/-! ## §2. Asking a token. -/

namespace Token

/-- The answer to a command as the host tells it, and the token after it. -/
def ask (t : Token) (c : Command) : Except Error Payload × Token :=
  ((t.execute c.norm).1.mapError .device, (t.execute c.norm).2)

/-- Commands asked one after the other, up to the first that is refused, and
one more after them. -/
def askAll (t : Token) (last : Command) : List Command → Except Error Payload × Token
  | [] => t.ask last
  | c :: cs =>
      match t.ask c with
      | (.error why, t) => (.error why, t)
      | (.ok _, t) => t.askAll last cs

/-- The token after commands that were all done, if they were. -/
def taken? (t : Token) : List Command → Option Token
  | [] => some t
  | c :: cs =>
      match t.ask c with
      | (.error _, _) => none
      | (.ok _, t) => t.taken? cs

/-- What was done ended with the last command, on the token that had taken the
others. -/
theorem taken_of_askAll_ok {t t' : Token} {last : Command} {cs : List Command} {payload : Payload}
    (h : t.askAll last cs = (.ok payload, t')) :
    ∃ t₁, t.taken? cs = some t₁ ∧ t₁.ask last = (.ok payload, t') := by
  induction cs generalizing t with
  | nil => exact ⟨t, rfl, h⟩
  | cons c cs ih =>
    unfold askAll at h
    unfold taken?
    cases hask : t.ask c with
    | mk answer t₁ =>
      rw [hask] at h
      cases answer with
      | error why => cases h
      | ok told => exact ih h

end Token

/-! ## §3. One exchange. -/

/-- The payload in what came back for a request, or how the exchange
failed. -/
def Request.judge (q : Request) (verify : Bool) : Except LineError Report → Except Error Payload
  | .error why => .error (.line why)
  | .ok r => q.accept verify r

/-- **An exchange is a report that is handed over, and a look at what comes
back.** -/
theorem Request.exchange_eq {σ : Type} (q : Request) (line : Line σ) (verify : Bool) (s : σ) :
    q.exchange line verify s
      = (q.judge verify (line.send s q.toReport).1, (line.send s q.toReport).2) := by
  unfold exchange judge
  cases line.send s q.toReport with
  | mk back s' =>
    cases back with
    | error why => rfl
    | ok r => rfl

/-- **A host makes of the reply to its request what the token answered.** -/
theorem Request.accept_respond (q : Request) {answer : Answer} (verify : Bool)
    (h : ∀ status, answer = .error status → status ≠ .ok ∧ status ≠ .busy) :
    q.accept verify (Token.respond q answer).toReport = answer.mapError .device := by
  have hstate : (Token.respond q answer).state ≠ .busy := by
    cases answer <;> exact DeviceState.noConfusion
  unfold accept
  rw [Response.ofReport_toReport]
  dsimp only
  rw [if_neg hstate, if_neg fun e => e (Token.command_respond q answer),
    if_neg fun e => e (Token.requestCrc_respond q answer)]
  -- the frame is sound, so only the status byte is left to look at
  cases answer with
  | ok payload => rfl
  | error status =>
    obtain ⟨hok, hbusy⟩ := h status rfl
    show (if Status.ofByte status.toByte = .ok then _ else Except.error
      (Error.device (Status.ofByte status.toByte))) = _
    rw [Status.ofByte_toByte status hbusy, if_neg hok]
    rfl

/-- A plugged-in token handles a request, whatever is in it. -/
theorem Token.send_toReport {t : Token} (hplug : t.pluggedIn = true) (q : Request) :
    Token.line.send t q.toReport = (.ok (Token.respond q (t.handle q).1).toReport, (t.handle q).2) := by
  show t.send q.toReport = _
  rw [Token.send_of_plugged hplug, Request.ofReport_toReport]

/-- A request for a command is handled like the command. -/
theorem Token.handle_request {t : Token} {c : Command} {q : Request}
    (hq : c.toRequest t.encoding = .ok q) : t.handle q = t.execute c.norm := by
  unfold Token.handle
  rw [Command.parse_toRequest hq]

/-- Nothing comes through to an unplugged token, and nothing back. -/
theorem Token.send_of_unplugged {t : Token} (hplug : t.pluggedIn = false) (r : Report) :
    Token.line.send t r = (.error .disconnected, t) := by
  show t.send r = _
  unfold Token.send
  rw [hplug]
  rfl

/-- A request is refused with a status that a host takes for a refusal. -/
theorem Token.status_of_handle {t : Token} {q : Request} {status : Status}
    (h : (t.handle q).1 = .error status) : status ≠ .ok ∧ status ≠ .busy := by
  unfold Token.handle at h
  cases hparse : Command.parse q t.encoding with
  | error status' =>
    rw [hparse] at h
    cases h
    have hnone : ∀ s ∈ Token.unreadable, s ≠ .ok ∧ s ≠ .busy := by decide
    exact hnone _ (Token.mem_unreadable hparse)
  | ok c =>
    rw [hparse] at h
    exact (Token.effect_execute t c).status_of_error h

/-- **An exchange with a plugged-in token gives what the token makes of the
request.** -/
theorem Request.exchange_handle {t : Token} (hplug : t.pluggedIn = true) (q : Request)
    (verify : Bool) :
    q.exchange Token.line verify t = ((t.handle q).1.mapError .device, (t.handle q).2) := by
  rw [q.exchange_eq, Token.send_toReport hplug]
  show (q.accept verify _, _) = _
  rw [q.accept_respond verify fun status => Token.status_of_handle]

/-- **A request for a command is answered like the command.** -/
theorem Request.exchange_line {t : Token} {c : Command} {q : Request} (hplug : t.pluggedIn = true)
    (hq : c.toRequest t.encoding = .ok q) (verify : Bool) :
    q.exchange Token.line verify t = t.ask c := by
  rw [q.exchange_handle hplug, Token.handle_request hq]
  rfl

theorem Request.exchange_unplugged {t : Token} (hplug : t.pluggedIn = false) (q : Request)
    (verify : Bool) : q.exchange Token.line verify t = (.error (.line .disconnected), t) := by
  rw [q.exchange_eq, Token.send_of_unplugged hplug]
  rfl

/-! ## §4. Scripts. -/

/-- The script asks these commands, the last one at the end. -/
def Script.Asks (script : Script) (c : Client) (cs : List Command) (last : Command) : Prop :=
  cs.mapM c.request = .ok script.opening ∧ c.request last = .ok script.final

theorem Client.toRequest_of_request {c : Client} {command : Command} {q : Request}
    (h : c.request command = .ok q) : command.toRequest c.capabilities.encoding = .ok q :=
  of_mapError_ok h

/-- Requests for a list of commands are requests for each of them. -/
theorem Client.of_mapM_request {c : Client} {command : Command} {cs : List Command}
    {qs : List Request} (h : (command :: cs).mapM c.request = .ok qs) :
    ∃ q rest, c.request command = .ok q ∧ cs.mapM c.request = .ok rest ∧ qs = q :: rest := by
  rw [List.mapM_cons] at h
  obtain ⟨q, hq, h⟩ := exists_of_bind_ok h
  obtain ⟨rest, hrest, h⟩ := exists_of_bind_ok h
  cases h
  exact ⟨q, rest, hq, hrest, rfl⟩

namespace Token

theorem ask_config (t : Token) (c : Command) : (t.ask c).2.config = t.config :=
  (effect_execute t c.norm).config_eq

theorem ask_pluggedIn (t : Token) (c : Command) : (t.ask c).2.pluggedIn = t.pluggedIn :=
  (effect_execute t c.norm).pluggedIn_eq

end Token

/-- The host writes a command in the same way as this token would. -/
def Command.WrittenAlike (x : Command) (c : Client) (t : Token) : Prop :=
  x.toRequest c.capabilities.encoding = x.toRequest t.encoding

/-- Only a write is written in more than one way. -/
theorem Command.writtenAlike_of_ne {x : Command} (h : x.id ≠ .writeToSlot) (c : Client) (t : Token) :
    x.WrittenAlike c t := x.toRequest_of_not_write h _ _

/-- **The requests before the last one of a script** are commands asked one after
the other: one of them is refused, or all are taken and the last request is left
to the token. -/
theorem Script.run_opening {c : Client} {t : Token} {script : Script} {cs : List Command}
    (hplug : t.pluggedIn = true) (halike : ∀ x ∈ cs, x.WrittenAlike c t)
    (h : cs.mapM c.request = .ok script.opening) (verify : Bool) :
    (∃ why t', script.run Token.line verify t = (.error why, t')
        ∧ ∀ last, t.askAll last cs = (.error why, t'))
      ∨ ∃ t₁, t.taken? cs = some t₁ ∧ t₁.pluggedIn = true ∧ t₁.config = t.config
        ∧ (∀ last, t.askAll last cs = t₁.ask last)
        ∧ script.run Token.line verify t = script.final.exchange Token.line verify t₁ := by
  show (∃ why t', Script.run.go script Token.line verify script.opening t = (.error why, t') ∧ _)
    ∨ ∃ t₁, _ ∧ _ ∧ _ ∧ _ ∧ Script.run.go script Token.line verify script.opening t = _
  generalize script.opening = qs at h
  -- along the commands, with the token after those already asked
  induction cs generalizing t qs with
  | nil =>
    cases h
    exact .inr ⟨t, rfl, hplug, rfl, fun _ => rfl, rfl⟩
  | cons x cs ih =>
    obtain ⟨q, rest, hq, hrest, rfl⟩ := Client.of_mapM_request h
    have hq := Client.toRequest_of_request hq
    rw [halike x List.mem_cons_self] at hq
    -- the token after the first command has the same settings
    have hplug' := t.ask_pluggedIn x
    have hconfig' := t.ask_config x
    unfold run.go Token.taken? Token.askAll
    rw [Request.exchange_line hplug hq]
    cases hask : t.ask x with
    | mk answer t' =>
      rw [hask] at hplug' hconfig'
      cases answer with
      | error why => exact .inl ⟨why, t', rfl, fun _ => rfl⟩
      | ok payload =>
        have halike' : ∀ y ∈ cs, y.WrittenAlike c t' := by
          intro y hy
          have hy := halike y (List.mem_cons_of_mem x hy)
          unfold Command.WrittenAlike Token.encoding at hy ⊢
          rw [Token.capabilities_eq hconfig']
          exact hy
        rcases ih (hplug'.trans hplug) halike' rest hrest with
          hrefused | ⟨t₁, htaken, hplug₁, hconfig₁, hlast⟩
        · exact .inl hrefused
        · exact .inr ⟨t₁, htaken, hplug₁, hconfig₁.trans hconfig', hlast⟩

/-- **A script asks its commands one after the other**, if the token reads them as
the host has written them. -/
theorem Script.run_alike {c : Client} {t : Token} {script : Script} {cs : List Command}
    {last : Command} (hplug : t.pluggedIn = true) (h : script.Asks c cs last)
    (halike : ∀ x ∈ last :: cs, x.WrittenAlike c t) (verify : Bool) :
    script.run Token.line verify t = t.askAll last cs := by
  obtain ⟨hopening, hfinal⟩ := h
  rcases Script.run_opening hplug (fun x hx => halike x (List.mem_cons_of_mem last hx)) hopening
    verify with ⟨why, t', hrun, hall⟩ | ⟨t₁, -, hplug₁, hconfig₁, hall, hrun⟩
  · rw [hrun, hall]
  · have hq := Client.toRequest_of_request hfinal
    have hlast : last.WrittenAlike c t := halike last List.mem_cons_self
    unfold Command.WrittenAlike Token.encoding at hlast
    rw [hlast, ← Token.capabilities_eq hconfig₁] at hq
    rw [hrun, hall]
    exact Request.exchange_line hplug₁ hq verify

/-- So it does if host and token write counters in the same way. -/
theorem Script.run_line {c : Client} {t : Token} {script : Script} {cs : List Command}
    {last : Command} (hplug : t.pluggedIn = true) (he : c.capabilities.encoding = t.encoding)
    (h : script.Asks c cs last) (verify : Bool) :
    script.run Token.line verify t = t.askAll last cs :=
  script.run_alike hplug h (fun x _ => congrArg x.toRequest he) verify

/-- On an unplugged token a script fails at its first request. -/
theorem Script.run_unplugged {t : Token} (hplug : t.pluggedIn = false) (script : Script)
    (verify : Bool) : script.run Token.line verify t = (.error (.line .disconnected), t) := by
  unfold run
  cases script.opening with
  | nil => exact Request.exchange_unplugged hplug _ verify
  | cons q qs =>
    unfold run.go
    rw [Request.exchange_unplugged hplug]

end OtpToken
