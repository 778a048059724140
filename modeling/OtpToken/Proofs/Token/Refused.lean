/-
  OtpToken.Proofs.Token.Refused
  ─────────────────────────────
  **WHAT A REFUSED REPORT LEAVES BEHIND.**

  A command can fail after part of its work: staged data was taken, a PIN was
  tried, a slot was looked up.  `Token.Spared` says what may be left of that:

      slots, config register, clock, Password Safe, AES key   as before
      attempts and temporary password of the role             if its PIN was tried
      staged data                                             gone after an authorised write

  A report in which no command can be read changes nothing at all
  (`send_of_unreadable`).
-/
import OtpToken.Proofs.Token.Codes
import OtpToken.Proofs.Token.Dialogue

namespace OtpToken

/-! ## §1. One role. -/

/-- At most the attempts and the live temporary password of a role differ. -/
def Session.DiffersAt (s s' : Session) (role : Role) : Prop :=
  ∃ k retries temp, s.credential? role = some k ∧ s' = s.update role { k with retries, temp }

namespace Credential

/-- Trying a PIN touches the attempts only. -/
theorem exists_tried (k : Credential) (pin : Bytes) :
    ∃ retries, k.tried pin = { k with retries } := by
  unfold tried
  split
  · exact ⟨k.retries, rfl⟩
  · exact ⟨_, rfl⟩

/-- A login touches the live temporary password besides. -/
theorem exists_checked (k : Credential) (pin : Secret) (login? : Option (Role × Secret)) :
    ∃ retries temp, k.checked pin login? = { k with retries, temp } := by
  obtain ⟨retries, htried⟩ := k.exists_tried pin.bytes
  cases login? with
  | none => exact ⟨retries, k.temp, htried⟩
  | some login =>
    refine ⟨retries, if k.accepts pin.bytes then some ⟨login.2⟩ else none, ?_⟩
    show k.loggedIn pin.bytes login.2 = _
    rw [loggedIn, htried]

end Credential

/-! ## §2. One command. -/

namespace Token

/-- **What a refused command may have changed.** -/
structure Spared (t : Token) (command? : Option Command) (t' : Token) : Prop where
  config : t'.config = t.config
  pluggedIn : t'.pluggedIn = t.pluggedIn
  /-- Code slots with their counters, Password Safe and config register. -/
  store : t'.store = t.store
  /-- The clock, whether the Password Safe is enabled and whether the AES key
  is valid. -/
  switches : t'.switches = t.switches
  session : t'.session = t.session
    ∨ ∃ c ∈ command?, ∃ role pin, c.check? = some (role, pin)
        ∧ t.session.DiffersAt t'.session role
  staged : t'.staged = t.staged
    ∨ t'.staged = .empty ∧ ∃ c ∈ command?, c.id = .writeToSlot
        ∧ ∃ temp, c.adminTemp? = some temp ∧ t.session.admits .admin temp.bytes = true

variable {t t' : Token} {c : Command}

theorem Spared.refl (t : Token) (command? : Option Command) : t.Spared command? t where
  config := rfl
  pluggedIn := rfl
  store := rfl
  switches := rfl
  session := .inl rfl
  staged := .inl rfl

namespace Effect

/-- Only a command that presents a PIN is refused with another session, and
only the role of the PIN is another then. -/
theorem session_of_refused {status : Status} (h : t.Effect c (.error status, t')) :
    t'.session = t.session
      ∨ ∃ role pin, c.check? = some (role, pin) ∧ t.session.DiffersAt t'.session role := by
  cases h with
  | @wrongPin _ role pin k hcheck hk _ =>
    obtain ⟨retries, temp, hchecked⟩ := k.exists_checked pin c.login?
    refine .inr ⟨role, pin, hcheck, k, retries, temp, hk, ?_⟩
    show t.session.update role _ = _
    rw [hchecked]
  | @failed _ role pin k _ hcheck _ hk _ _ =>
    obtain ⟨retries, htried⟩ := k.exists_tried pin.bytes
    refine .inr ⟨role, pin, hcheck, k, retries, k.temp, hk, ?_⟩
    show t.session.update role _ = _
    rw [htried]
  | _ => exact .inl rfl

/-- Only an authorised write is refused with other staged data, and nothing is
staged then. -/
theorem staged_of_refused {status : Status} (h : t.Effect c (.error status, t')) :
    t'.staged = t.staged
      ∨ t'.staged = .empty ∧ c.id = .writeToSlot
          ∧ ∃ temp, c.adminTemp? = some temp ∧ t.session.admits .admin temp.bytes = true := by
  cases h with
  | unwritten hpass _ => exact .inr ⟨rfl, rfl, _, rfl, hpass⟩
  | _ => exact .inl rfl

/-- **A refused command leaves alone what it should leave alone.** -/
theorem spared_of_refused {status : Status} (h : t.Effect c (.error status, t')) :
    t.Spared (some c) t' where
  config := h.config_eq
  pluggedIn := h.pluggedIn_eq
  store := h.store_of_refused
  switches := by
    have hok : Answer.status (.error status) ≠ .ok := (h.status_of_error rfl).1
    exact h.switches_eq.trans (if_neg hok)
  session := by
    rcases h.session_of_refused with hsame | ⟨role, pin, hcheck, hdiffers⟩
    · exact .inl hsame
    · exact .inr ⟨c, rfl, role, pin, hcheck, hdiffers⟩
  staged := by
    rcases h.staged_of_refused with hsame | ⟨hempty, hwrite, temp, htemp, hpass⟩
    · exact .inl hsame
    · exact .inr ⟨hempty, c, rfl, hwrite, temp, htemp, hpass⟩

end Effect

end Token

/-! ## §3. One report. -/

/-- No command can be read in a report: its checksum is wrong, its byte is that
of no command, or the fields of the command cannot be read. -/
def Command.Unreadable (encoding : CounterEncoding) (r : Report) : Prop :=
  r.storedCrc ≠ r.computedCrc
    ∨ ∃ q, Request.ofReport r = .ok q
        ∧ (CommandId.ofByte? q.command = none
          ∨ ∃ id why, CommandId.ofByte? q.command = some id
              ∧ (read encoding id).decode q.payload.bytes = .error why)

theorem Command.unreadable_iff {encoding : CounterEncoding} {r : Report} :
    Unreadable encoding r ↔ ofReport? encoding r = none := by
  unfold Unreadable ofReport? Request.ofReport
  by_cases hcrc : r.storedCrc = r.computedCrc
  · simp only [if_pos hcrc]
    generalize (⟨r.byte 1, r.slice 2 59 _⟩ : Request) = q
    unfold parse
    cases hid : CommandId.ofByte? q.command with
    | none => simp [hid, Except.toOption]
    | some id =>
      cases hread : (read encoding id).decode q.payload.bytes with
      | error why => simp [hid, hread, Except.toOption]
      | ok c => simp [hcrc, hid, hread, Except.toOption]
  · simp [hcrc]

namespace Token

variable {t : Token} {report : Report}

/-- **A refused report changes nothing that it should not.** -/
theorem refused_spares (t : Token) (report : Report) :
    let t' := (t.send report).2
    (t.pluggedIn = false → t.send report = (.error .disconnected, t))
      ∧ (t.pluggedIn = true → ∃ p : Response, t.send report = (.ok p.toReport, t')
          ∧ (p.status ≠ Status.toByte .ok →
              t.Spared (Command.ofReport? t.encoding report) t')
          ∧ (Command.Unreadable t.encoding report →
              p.status ≠ Status.toByte .ok ∧ t' = t)) := by
  refine ⟨fun hplug => ?_, fun hplug => ?_⟩
  · unfold send
    rw [hplug]
    rfl
  · rw [Command.unreadable_iff]
    cases hc : Command.ofReport? t.encoding report with
    | none =>
      obtain ⟨p, status, hsend, hstatus, hbyte⟩ := send_of_no_command hplug hc
      have hok : ∀ s ∈ unreadable, s.toByte ≠ Status.toByte .ok := by decide
      rw [hsend]
      refine ⟨p, rfl, fun _ => .refl t none, fun _ => ⟨?_, rfl⟩⟩
      rw [hbyte]
      exact hok status hstatus
    | some c =>
      obtain ⟨q, hsend⟩ := send_of_command hplug hc
      rw [hsend]
      refine ⟨respond q (t.execute c).1, rfl, fun hstatus => ?_, fun h => nomatch h⟩
      have heffect := effect_execute t c
      cases hr : t.execute c with
      | mk answer t' =>
        rw [hr] at heffect hstatus
        cases answer with
        | ok payload => exact absurd rfl hstatus
        | error status => exact heffect.spared_of_refused

end Token

end OtpToken
