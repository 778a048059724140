/-
  OtpToken.Proofs.Client.Transact
  ───────────────────────────────
  **ONE COMMAND THROUGH THE LINE.**

  `Client.transact` is one command sent by a host, with the payload of its
  answer.  On a line to a plugged-in token it comes to what the token makes of
  the command itself (`transact_line`): layout and parser, the checksums of
  both directions, the echoes and the status byte take away nothing, add
  nothing and never fail on their own.
-/
import OtpToken.Proofs.Client.Wire
import OtpToken.Proofs.Command.Domain

namespace OtpToken

variable {σ α : Type}

/-! ## §1. One command. -/

namespace Client

/-- One command over a line: the payload of its answer. -/
def transact (c : Client) (line : Line σ) (command : Command) (s : σ) :
    Except Error Payload × σ :=
  match c.request command with
  | .error why => (.error why, s)
  | .ok q => q.exchange line c.options.verifyCrc s

end Client

/-! ## §2. Exactly what fits is sent. -/

/-- What has a request fits. -/
theorem Client.fits_of_request {c : Client} {x : Command} {q : Request}
    (h : c.request x = .ok q) : x.Fits c.capabilities.encoding :=
  Command.forall_fits_iff.mp
    ((Command.toRequest_isOk_iff x _).mp ⟨q, Client.toRequest_of_request h⟩)

theorem Client.fits_of_mapM_request {c : Client} {cs : List Command} {qs : List Request}
    (h : cs.mapM c.request = .ok qs) : ∀ x ∈ cs, x.Fits c.capabilities.encoding := by
  induction cs generalizing qs with
  | nil => exact nofun
  | cons x cs ih =>
    obtain ⟨q, rest, hq, hrest, -⟩ := of_mapM_request h
    exact List.forall_mem_cons.mpr ⟨fits_of_request hq, ih hrest⟩

/-- **Every command that is asked fits its fields.** -/
theorem Script.Asks.fits {script : Script} {c : Client} {cs : List Command} {last : Command}
    (h : script.Asks c cs last) : ∀ x ∈ last :: cs, x.Fits c.capabilities.encoding :=
  List.forall_mem_cons.mpr ⟨Client.fits_of_request h.2, Client.fits_of_mapM_request h.1⟩

namespace Client

/-- What does not fit is refused on the host. -/
theorem transact_of_not_fits {c : Client} {command : Command}
    (h : ¬ command.Fits c.capabilities.encoding) (line : Line σ) (s : σ) :
    ∃ why, c.transact line command s = (.error (.library why), s) := by
  unfold transact request
  cases hq : command.toRequest c.capabilities.encoding with
  | error why => exact ⟨why, rfl⟩
  | ok q =>
    have hfits := (Command.toRequest_isOk_iff command c.capabilities.encoding).mp ⟨q, hq⟩
    exact absurd (Command.forall_fits_iff.mp hfits) h

/-- What fits is asked of the token, with nothing between. -/
theorem transact_of_fits {c : Client} {t : Token} {command : Command}
    (hplug : t.pluggedIn = true) (he : c.capabilities.encoding = t.encoding)
    (h : command.Fits t.encoding) : c.transact Token.line command t = t.ask command := by
  obtain ⟨q, hq⟩ := (Command.toRequest_isOk_iff command t.encoding).mpr
    (Command.forall_fits_iff.mpr h)
  have hrequest : c.request command = .ok q := by
    unfold request
    rw [he, hq]
    rfl
  unfold transact
  rw [hrequest]
  exact Request.exchange_line hplug hq c.options.verifyCrc

end Client

/-- What a token answers is no failure of the line. -/
theorem Token.ask_ne_line (t : Token) (command : Command) (why : LineError) :
    (t.ask command).1 ≠ .error (.line why) := by
  show (t.execute command.norm).1.mapError Error.device ≠ _
  cases (t.execute command.norm).1 with
  | ok payload => exact nofun
  | error status => exact nofun

/-! ## §3. The line is transparent. -/

namespace Client

/-- **Between a host and a plugged-in token stands nothing.**  A command that
does not fit is refused on the host and the token stays as it was.  Any other
command ends as it ends on the token, with the same payload or the same
status, and leaves the token as it leaves it there.  The line itself never
fails. -/
theorem transact_line {c : Client} {t : Token} (hplug : t.pluggedIn = true)
    (he : c.capabilities.encoding = t.encoding) (command : Command) :
    (¬ command.Fits t.encoding →
        ∃ why, c.transact Token.line command t = (.error (.library why), t))
      ∧ (command.Fits t.encoding →
          c.transact Token.line command t = match t.execute command.norm with
            | (.ok payload, t') => (.ok payload, t')
            | (.error status, t') => (.error (.device status), t'))
      ∧ ∀ why, (c.transact Token.line command t).1 ≠ .error (.line why) := by
  have hunfit : ¬ command.Fits t.encoding →
      ∃ why, c.transact Token.line command t = (.error (.library why), t) := by
    intro h
    rw [← he] at h
    exact transact_of_not_fits h Token.line t
  refine ⟨hunfit, ?_, ?_⟩
  · intro h
    rw [transact_of_fits hplug he h]
    -- the status is told as it is
    show ((t.execute command.norm).1.mapError Error.device, (t.execute command.norm).2) = _
    cases t.execute command.norm with
    | mk answer t' =>
      cases answer with
      | ok payload => rfl
      | error status => rfl
  · intro why
    by_cases h : command.Fits t.encoding
    · rw [transact_of_fits hplug he h]
      exact t.ask_ne_line command why
    · obtain ⟨refusal, hrefusal⟩ := hunfit h
      rw [hrefusal]
      exact nofun

/-- A PIN with another byte after its terminator, for a token that writes
counters as digits: it fits, and it is the right PIN. -/
theorem transact_line_terminated_pin :
    (Token.fresh { TokenConfig.factory with firmware := ⟨0, 6⟩ }).pluggedIn = true
      ∧ (Token.fresh { TokenConfig.factory with firmware := ⟨0, 6⟩ }).encoding = .ascii
      ∧ (Command.firstAuthenticate ⟨Utf8.encode "12345678" ++ [0, 57]⟩ (.ofText "temp")).Fits .ascii
      ∧ (transact { fresh ⟨true, none⟩ with capabilities := .detect ⟨0, 6⟩ } Token.line
          (.firstAuthenticate ⟨Utf8.encode "12345678" ++ [0, 57]⟩ (.ofText "temp"))
          (.fresh { TokenConfig.factory with firmware := ⟨0, 6⟩ })).1 = .ok .empty := by
  refine ⟨rfl, rfl, by decide, ?_⟩
  rw [(transact_line rfl rfl _).2.1 (by decide)]
  rfl

end Client

end OtpToken
