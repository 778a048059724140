/-
  OtpToken.Proofs.Client.Operation
  ────────────────────────────────
  **EVERYTHING THAT AN OPERATION CAN COME TO.**

  `Client.Performed` lists the ways in which an operation on a token can end,
  each with what the token was asked; `performed` says that the list is
  complete.  What an operation asks at all is said once for each call
  (`Call.Asks`, `Call.asks`): nearly all of them ask only commands that spare
  code slots and the clock, and the seven others open with such commands.

  From here on no operation is opened again.
-/
import OtpToken.Proofs.Client.Tidy
import OtpToken.Proofs.Client.Wire
import OtpToken.Proofs.Token.Codes

namespace OtpToken

variable {α : Type}

/-! ## §1. Effects of what was asked. -/

namespace Token

variable {t t' : Token} {c last : Command} {cs : List Command} {payload : Payload} {why : Error}

theorem effect_of_ask_ok (h : t.ask c = (.ok payload, t')) : t.Effect c.norm (.ok payload, t') := by
  have heffect : t.Effect c.norm (t.execute c.norm) := effect_execute t c.norm
  unfold ask at h
  cases hr : t.execute c.norm with
  | mk answer t'' =>
    rw [hr] at h heffect
    cases answer with
    | ok payload' =>
      cases h
      exact heffect
    | error status => cases h

theorem effect_of_ask_error (h : t.ask c = (.error why, t')) :
    ∃ status, t.Effect c.norm (.error status, t') := by
  have heffect : t.Effect c.norm (t.execute c.norm) := effect_execute t c.norm
  unfold ask at h
  cases hr : t.execute c.norm with
  | mk answer t'' =>
    rw [hr] at h heffect
    cases answer with
    | ok payload' => cases h
    | error status =>
      cases h
      exact ⟨status, heffect⟩

/-- A command that is asked and spares code slots and the clock. -/
theorem same_of_ask (h : c.id.spares = true) (t : Token) : t.SameCodes (t.ask c).2 := by
  refine (effect_execute t c.norm).same_of_spares ?_
  rw [Command.id_norm]
  exact h

theorem config_of_askAll {answer : Except Error Payload} (h : t.askAll last cs = (answer, t')) :
    t'.config = t.config := by
  induction cs generalizing t with
  | nil => exact congrArg (fun r => r.2.config) h ▸ t.ask_config last
  | cons c cs ih =>
    have hconfig := t.ask_config c
    unfold askAll at h
    cases hask : t.ask c with
    | mk told t₁ =>
      rw [hask] at h hconfig
      cases told with
      | error why =>
        cases h
        exact hconfig
      | ok payload => exact (ih h).trans hconfig

/-- **After commands that spare code slots and the clock, either one of them
was refused or the last command is asked**, and until then code slots and
clock are the same. -/
theorem askAll_cases (last : Command) (h : ∀ c ∈ cs, c.id.spares = true) (t : Token) :
    ∃ t₁, t.SameCodes t₁ ∧ t₁.config = t.config
      ∧ ((∃ why, t.askAll last cs = (.error why, t₁)) ∨ t.askAll last cs = t₁.ask last) := by
  induction cs generalizing t with
  | nil => exact ⟨t, .refl t, rfl, .inr rfl⟩
  | cons c cs ih =>
    have hsame := same_of_ask (h c List.mem_cons_self) t
    have hconfig := t.ask_config c
    unfold askAll
    cases hask : t.ask c with
    | mk answer t₁ =>
      rw [hask] at hsame hconfig
      cases answer with
      | error why => exact ⟨t₁, hsame, hconfig, .inl ⟨why, rfl⟩⟩
      | ok payload =>
        obtain ⟨t₂, hsame', hconfig', hlast⟩ := ih (fun x hx => h x (List.mem_cons_of_mem c hx)) t₁
        exact ⟨t₂, hsame.trans hsame', hconfig'.trans hconfig, hlast⟩

/-- What was refused leaves code slots and the clock alone. -/
theorem same_of_askAll_error (h : ∀ c ∈ cs, c.id.spares = true)
    (hall : t.askAll last cs = (.error why, t')) : t.SameCodes t' := by
  obtain ⟨t₁, hsame, -, ⟨why', hrefused⟩ | hlast⟩ := askAll_cases last h t
  · cases hall.symm.trans hrefused
    exact hsame
  · obtain ⟨status, heffect⟩ := effect_of_ask_error (hlast.symm.trans hall)
    exact hsame.trans heffect.same_of_refused

/-- What was done ends with the effect of the last command. -/
theorem effect_of_askAll_ok (h : ∀ c ∈ cs, c.id.spares = true)
    (hall : t.askAll last cs = (.ok payload, t')) :
    ∃ t₁, t.SameCodes t₁ ∧ t₁.config = t.config ∧ t₁.Effect last.norm (.ok payload, t') := by
  obtain ⟨t₁, hsame, hconfig, ⟨why', hrefused⟩ | hlast⟩ := askAll_cases last h t
  · cases hall.symm.trans hrefused
  · exact ⟨t₁, hsame, hconfig, effect_of_ask_ok (hlast.symm.trans hall)⟩

end Token

/-! ## §2. How an operation can end. -/

/-- Every script of the operation asks commands with the property `Q`: the
commands of its opening, and its last one. -/
def Operation.Asks (op : Operation α) (c : Client) (Q : List Command → Command → Prop) : Prop :=
  ∀ script, (op.prepare c).1 = .ok script → ∃ cs last, script.Asks c cs last ∧ Q cs last

namespace Client

section Perform

variable {σ : Type} {c : Client} {op : Operation α}

/-- What an operation gives once its requests are answered, and the host
afterwards. -/
def finish (c : Client) (op : Operation α) (answer : Except Error Payload) :
    Except Error α × Client :=
  match answer with
  | .error why => (.error why, { c with lastStatus := why.status })
  | .ok payload =>
      match op.conclude c payload with
      | (.error e, c) => (.error (.ofDecode e), { c with lastStatus := (Error.ofDecode e).status })
      | (.ok a, c) => (.ok a, { c with lastStatus := .ok })

theorem finish_error (why : Error) :
    c.finish op (.error why) = (.error why, { c with lastStatus := why.status }) := rfl

theorem finish_of_unread {payload : Payload} {e : DecodeError}
    (h : op.conclude c payload = (.error e, c)) :
    c.finish op (.ok payload)
      = (.error (.ofDecode e), { c with lastStatus := (Error.ofDecode e).status }) := by
  unfold finish
  simp only [h]

theorem finish_of_read {payload : Payload} {a : α} {after : Client}
    (h : op.conclude c payload = (.ok a, after)) :
    c.finish op (.ok payload) = (.ok a, { after with lastStatus := .ok }) := by
  unfold finish
  simp only [h]

/-- **A whole operation**, whatever its halves do to the host. -/
theorem perform_eq (c : Client) (line : Line σ) (op : Operation α) (s : σ) :
    c.perform line op s = match op.prepare c with
      | (.error why, c) => (.error why, { c with lastStatus := why.status }, s)
      | (.ok script, c) =>
          ((c.finish op (script.run line c.options.verifyCrc s).1).1,
            (c.finish op (script.run line c.options.verifyCrc s).1).2,
            (script.run line c.options.verifyCrc s).2) := by
  unfold perform attempt
  obtain ⟨why | script, c⟩ := op.prepare c
  · rfl
  · dsimp only
    obtain ⟨why | payload, s⟩ := script.run line c.options.verifyCrc s
    · rfl
    · unfold finish
      cases hconclude : op.conclude c payload with
      | mk result after =>
        simp only [hconclude]
        cases result with
        | error e => rfl
        | ok a => rfl

theorem perform_of_refused (hop : op.Tidy) {why : Error} (h : (op.prepare c).1 = .error why)
    (line : Line σ) (s : σ) :
    c.perform line op s = (.error why, { c with lastStatus := why.status }, s) := by
  rw [perform_eq, hop.prepare_eq h]

theorem perform_of_prepared (hop : op.Tidy) {script : Script}
    (h : (op.prepare c).1 = .ok script) (line : Line σ) (s : σ) :
    c.perform line op s
      = ((c.finish op (script.run line c.options.verifyCrc s).1).1,
          (c.finish op (script.run line c.options.verifyCrc s).1).2,
          (script.run line c.options.verifyCrc s).2) := by
  rw [perform_eq, hop.prepare_eq h]

/-- An operation that was done has run its script, and its value was read in the
last payload. -/
theorem of_perform_ok (hop : op.Tidy) {line : Line σ} {s s' : σ} {a : α} {c' : Client}
    (h : c.perform line op s = (.ok a, c', s')) :
    ∃ script payload after, (op.prepare c).1 = .ok script
      ∧ script.run line c.options.verifyCrc s = (.ok payload, s')
      ∧ op.conclude c payload = (.ok a, after) ∧ c' = { after with lastStatus := .ok } := by
  cases hprepare : (op.prepare c).1 with
  | error why =>
    rw [perform_of_refused hop hprepare] at h
    cases h
  | ok script =>
    rw [perform_of_prepared hop hprepare] at h
    cases hrun : script.run line c.options.verifyCrc s with
    | mk answer s₁ =>
      rw [hrun] at h
      cases answer with
      | error why =>
        rw [finish_error] at h
        cases h
      | ok payload =>
        rcases (hop.conclude c payload).ends with ⟨e, hconclude⟩ | ⟨a', after, hconclude⟩
        · rw [finish_of_unread hconclude] at h
          cases h
        · rw [finish_of_read hconclude] at h
          cases h
          exact ⟨script, payload, after, rfl, hrun, hconclude, rfl⟩

end Perform

/-- **The ways in which an operation can end**: its value, the host and the
token afterwards. -/
inductive Performed (c : Client) (t : Token) (op : Operation α)
    (Q : List Command → Command → Prop) : Except Error α × Client × Token → Prop
  /-- Refused on the host, or nothing came through. -/
  | unsent {why : Error} : Performed c t op Q (.error why, { c with lastStatus := why.status }, t)
  /-- A command was refused. -/
  | failed {cs : List Command} {last : Command} {why : Error} {t' : Token} (hQ : Q cs last)
      (hall : t.askAll last cs = (.error why, t')) :
      Performed c t op Q (.error why, { c with lastStatus := why.status }, t')
  /-- Every command was done, and the last payload could not be read. -/
  | unread {cs : List Command} {last : Command} {payload : Payload} {e : DecodeError} {t' : Token}
      (hQ : Q cs last) (hall : t.askAll last cs = (.ok payload, t'))
      (hconclude : op.conclude c payload = (.error e, c)) :
      Performed c t op Q
        (.error (.ofDecode e), { c with lastStatus := (Error.ofDecode e).status }, t')
  /-- Every command was done, and the last payload was read. -/
  | done {cs : List Command} {last : Command} {payload : Payload} {a : α} {after : Client}
      {t' : Token} (hQ : Q cs last) (hall : t.askAll last cs = (.ok payload, t'))
      (hconclude : op.conclude c payload = (.ok a, after)) :
      Performed c t op Q (.ok a, { after with lastStatus := .ok }, t')

/-- A tidy operation ends in one of these ways if its scripts ask commands of the
token. -/
theorem performed_of_run {c : Client} {t : Token} {op : Operation α}
    {Q : List Command → Command → Prop} (hop : op.Tidy)
    (hrun : ∀ script, (op.prepare c).1 = .ok script → t.pluggedIn = true → ∃ cs last, Q cs last
      ∧ script.run Token.line c.options.verifyCrc t = t.askAll last cs) :
    c.Performed t op Q (c.perform Token.line op t) := by
  cases hprepare : (op.prepare c).1 with
  | error why =>
    rw [perform_of_refused hop hprepare]
    exact .unsent
  | ok script =>
    rw [perform_of_prepared hop hprepare]
    by_cases hplug : t.pluggedIn = true
    · obtain ⟨cs, last, hQ, hasked⟩ := hrun script hprepare hplug
      rw [hasked]
      cases hall : t.askAll last cs with
      | mk answer t' =>
        cases answer with
        | error why => exact .failed hQ hall
        | ok payload =>
          rcases (hop.conclude c payload).ends with ⟨e, hconclude⟩ | ⟨a, after, hconclude⟩
          · rw [finish_of_unread hconclude]
            exact .unread hQ hall hconclude
          · rw [finish_of_read hconclude]
            exact .done hQ hall hconclude
    · -- nothing came through
      rw [script.run_unplugged (Bool.eq_false_iff.mpr hplug)]
      exact .unsent

/-- **A tidy operation ends in one of these ways.** -/
theorem performed {c : Client} {t : Token} {op : Operation α}
    {Q : List Command → Command → Prop} (hop : op.Tidy) (hasks : op.Asks c Q)
    (he : c.capabilities.encoding = t.encoding) :
    c.Performed t op Q (c.perform Token.line op t) := by
  refine performed_of_run hop fun script hprepare hplug => ?_
  obtain ⟨cs, last, hscript, hQ⟩ := hasks script hprepare
  exact ⟨cs, last, hQ, script.run_line hplug he hscript c.options.verifyCrc⟩

end Client

end OtpToken
