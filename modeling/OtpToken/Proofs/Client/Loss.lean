/-
  OtpToken.Proofs.Client.Loss
  ───────────────────────────
  **A LINE THAT LOSES REPORTS.**

  A request is lost before the token has heard of it, or its response is lost
  after the token has done it.  The host sees the same in both cases: its
  exchange has failed.

  `Token.askUnder` is one command asked over such a line and `askAllUnder` a
  list of them; `Script.run_losing` says that a faulty line whose faults are
  losses comes to no more than this.  After a list of commands the token has
  either been stopped on the way, or all but the last were done and the
  outcome is that of the last (`askAllUnder_cases`).
-/
import OtpToken.Line.Fault
import OtpToken.Proofs.Client.Operation

namespace OtpToken

variable {α : Type}

/-! ## §1. Losses. -/

/-- What is lost of an exchange, and what the host is told instead. -/
inductive Loss where
  /-- The request does not arrive. -/
  | request (why : LineError)
  /-- The request is done, and its response does not arrive. -/
  | response (why : LineError)
  deriving DecidableEq

namespace Loss

/-- The fault of a line with this loss. -/
def fault : Loss → Fault
  | request why => .fail why false
  | response why => .fail why true

/-- The faults of a line with these losses, one entry for each report. -/
def faults (losses : List (Option Loss)) : List (Option Fault) := losses.map (Option.map fault)

end Loss

/-! ## §2. Asking over a line with losses. -/

namespace Token

/-- A command asked over a line, where `loss` is what is lost of it. -/
def askUnder (t : Token) (c : Command) (loss : Option Loss) : Except Error Payload × Token :=
  match t.pluggedIn, loss with
  | _, some (.request why) => (.error (.line why), t)
  | false, _ => (.error (.line .disconnected), t)
  | true, some (.response why) => (.error (.line why), (t.ask c).2)
  | true, none => t.ask c

/-- Commands asked one after the other over a line, up to the first that
fails, and one more after them; with what is still to be lost. -/
def askAllUnder (t : Token) (last : Command) :
    List Command → List (Option Loss) → Except Error Payload × Token × List (Option Loss)
  | [], losses =>
      let (answer, t) := t.askUnder last losses.head?.join
      (answer, t, losses.tail)
  | c :: cs, losses =>
      match t.askUnder c losses.head?.join with
      | (.error why, t) => (.error why, t, losses.tail)
      | (.ok _, t) => t.askAllUnder last cs losses.tail

/-- **The three ways of a command over a line**: it does not arrive, it is
asked, or it is asked and its response is lost. -/
theorem askUnder_cases (t : Token) (c : Command) (loss : Option Loss) :
    (∃ why, t.askUnder c loss = (.error (.line why), t)
        ∧ (t.pluggedIn = true → loss = some (.request why)))
      ∨ (t.pluggedIn = true ∧ loss = none ∧ t.askUnder c loss = t.ask c)
      ∨ ∃ why, loss = some (.response why)
          ∧ t.askUnder c loss = (.error (.line why), (t.ask c).2) := by
  unfold askUnder
  split
  · next why => exact .inl ⟨why, rfl, fun _ => rfl⟩
  · next hplug _ => exact .inl ⟨_, rfl, fun h => Bool.noConfusion (hplug.symm.trans h)⟩
  · next why _ => exact .inr (.inr ⟨why, rfl, rfl⟩)
  · next hplug => exact .inr (.inl ⟨hplug, rfl, rfl⟩)

/-- What holds of a token that was not asked, and of one that was, holds after
asking over a line. -/
theorem askUnder_rule {P : Token → Prop} {t : Token} {c : Command} (h : P t) (hask : P (t.ask c).2)
    (loss : Option Loss) : P (t.askUnder c loss).2 := by
  rcases t.askUnder_cases c loss with ⟨why, hunder, -⟩ | ⟨-, -, hunder⟩ | ⟨why, -, hunder⟩
  · rw [hunder]
    exact h
  · rw [hunder]
    exact hask
  · rw [hunder]
    exact hask

theorem askUnder_config (t : Token) (c : Command) (loss : Option Loss) :
    (t.askUnder c loss).2.config = t.config :=
  askUnder_rule (P := fun t' => t'.config = t.config) rfl (t.ask_config c) loss

/-- **After commands over a line, either one of them has failed or all were
done**, and then the outcome is that of the last.  What they all preserve
holds until then. -/
theorem askAllUnder_cases {P : Token → Prop} {t : Token} {cs : List Command} (h : P t)
    (hstep : ∀ c ∈ cs, ∀ t, P t → P (t.ask c).2) (last : Command) (losses : List (Option Loss)) :
    (∃ why t' rest, t.askAllUnder last cs losses = (.error why, t', rest) ∧ P t')
      ∨ ∃ t₁ rest, t.taken? cs = some t₁ ∧ P t₁
          ∧ t.askAllUnder last cs losses
            = ((t₁.askUnder last losses[cs.length]?.join).1,
                (t₁.askUnder last losses[cs.length]?.join).2, rest) := by
  induction cs generalizing t losses with
  | nil =>
    rw [List.length_nil, ← List.head?_eq_getElem?]
    exact .inr ⟨t, losses.tail, rfl, h, rfl⟩
  | cons c cs ih =>
    have hnext : P (t.ask c).2 := hstep c List.mem_cons_self t h
    unfold askAllUnder taken?
    rcases t.askUnder_cases c losses.head?.join with
      ⟨why, hunder, -⟩ | ⟨-, -, hunder⟩ | ⟨why, -, hunder⟩
    · rw [hunder]
      exact .inl ⟨_, _, _, rfl, h⟩
    · rw [hunder]
      cases hask : t.ask c with
      | mk answer t' =>
        rw [hask] at hnext
        cases answer with
        | error why => exact .inl ⟨_, _, _, rfl, hnext⟩
        | ok payload =>
          -- one command and one entry of the list less
          have hrest := ih hnext (fun x hx => hstep x (List.mem_cons_of_mem c hx)) losses.tail
          rw [List.getElem?_tail] at hrest
          exact hrest
    · rw [hunder]
      exact .inl ⟨_, _, _, rfl, hnext⟩

end Token

/-! ## §3. Faulty lines. -/

namespace Request

variable {σ : Type} (q : Request) (line : Line σ) (verify : Bool) (s : σ)

/-- A report that no fault is meant for goes through. -/
theorem exchange_faulty_nil {queue : List (Option Fault)} (h : queue.head?.join = none) :
    q.exchange line.faulty verify (s, queue)
      = ((q.exchange line verify s).1, (q.exchange line verify s).2, queue.tail) := by
  have hsend : line.faulty.send (s, queue) q.toReport
      = ((line.send s q.toReport).1, (line.send s q.toReport).2, queue.tail) := by
    unfold Line.faulty
    cases queue with
    | nil => rfl
    | cons entry queue =>
      cases entry with
      | none => rfl
      | some fault => cases h
  rw [q.exchange_eq, q.exchange_eq, hsend]

/-- Of a report whose response is lost, only a failure of the line itself is
told. -/
theorem exchange_lost_response (why : LineError) (queue : List (Option Fault)) :
    q.exchange line.faulty verify (s, some (.fail why true) :: queue)
      = (match (line.send s q.toReport).1 with
          | .error e => .error (.line e)
          | .ok _ => .error (.line why), (line.send s q.toReport).2, queue) := by
  have hsend : line.faulty.send (s, some (.fail why true) :: queue) q.toReport
      = ((line.send s q.toReport).1.bind fun _ => .error why, (line.send s q.toReport).2, queue) :=
    rfl
  rw [q.exchange_eq, hsend]
  cases (line.send s q.toReport).1 with
  | error e => rfl
  | ok r => rfl

variable {q} {t : Token} {c : Command}

/-- **A request over a line with losses is answered like the command.** -/
theorem exchange_losing (hq : c.toRequest t.encoding = .ok q) (losses : List (Option Loss)) :
    q.exchange Token.line.faulty verify (t, Loss.faults losses)
      = ((t.askUnder c losses.head?.join).1, (t.askUnder c losses.head?.join).2,
          Loss.faults losses.tail) := by
  have hthrough : q.exchange Token.line verify t = t.askUnder c none := by
    unfold Token.askUnder
    cases hplug : t.pluggedIn with
    | false => exact q.exchange_unplugged hplug verify
    | true => exact q.exchange_line hplug hq verify
  have hlost : ∀ why, q.exchange Token.line.faulty verify
      (t, some (.fail why true) :: Loss.faults losses.tail)
        = ((t.askUnder c (some (.response why))).1, (t.askUnder c (some (.response why))).2,
            Loss.faults losses.tail) := by
    intro why
    rw [exchange_lost_response]
    unfold Token.askUnder
    cases hplug : t.pluggedIn with
    | false => rw [Token.send_of_unplugged hplug]
    | true =>
      rw [Token.send_toReport hplug, Token.handle_request hq]
      rfl
  cases losses with
  | nil =>
    rw [q.exchange_faulty_nil Token.line verify t rfl, hthrough]
    rfl
  | cons loss losses =>
    match loss with
    | none =>
      rw [q.exchange_faulty_nil Token.line verify t rfl, hthrough]
      rfl
    | some (.request why) =>
      show (Except.error (Error.line why), t, Loss.faults losses) = _
      unfold Token.askUnder
      rfl
    | some (.response why) => exact hlost why

end Request

/-- The token reads these commands as the host writes them. -/
def Client.Writes (c : Client) (encoding : CounterEncoding) (commands : List Command) : Prop :=
  ∀ x ∈ commands, x.toRequest c.capabilities.encoding = x.toRequest encoding

/-- **A script asks its commands one after the other, over a line with losses
too.** -/
theorem Script.run_losing {c : Client} {t : Token} {script : Script} {cs : List Command}
    {last : Command} (hwrites : c.Writes t.encoding (last :: cs)) (h : script.Asks c cs last)
    (verify : Bool) (losses : List (Option Loss)) :
    script.run Token.line.faulty verify (t, Loss.faults losses)
      = ((t.askAllUnder last cs losses).1, (t.askAllUnder last cs losses).2.1,
          Loss.faults (t.askAllUnder last cs losses).2.2) := by
  obtain ⟨hopening, hfinal⟩ := h
  have hlast : last.toRequest t.encoding = .ok script.final :=
    (hwrites last List.mem_cons_self).symm.trans (Client.toRequest_of_request hfinal)
  have hcs : ∀ x ∈ cs, x.toRequest c.capabilities.encoding = x.toRequest t.encoding :=
    fun x hx => hwrites x (List.mem_cons_of_mem last hx)
  show Script.run.go script Token.line.faulty verify script.opening (t, Loss.faults losses) = _
  clear hwrites hfinal
  generalize script.opening = qs at hopening
  -- along the commands, as on a line without losses
  induction cs generalizing t qs losses with
  | nil =>
    cases hopening
    exact Request.exchange_losing verify hlast losses
  | cons command cs ih =>
    obtain ⟨q, rest, hq, hrest, rfl⟩ := Client.of_mapM_request hopening
    have hread : command.toRequest t.encoding = .ok q :=
      (hcs command List.mem_cons_self).symm.trans (Client.toRequest_of_request hq)
    unfold run.go Token.askAllUnder
    rw [Request.exchange_losing verify hread losses]
    -- the token after the first command writes counters as before
    have hencoding : (t.askUnder command losses.head?.join).2.encoding = t.encoding := by
      have hconfig := t.askUnder_config command losses.head?.join
      exact congrArg Capabilities.encoding (Token.capabilities_eq hconfig)
    cases hunder : t.askUnder command losses.head?.join with
    | mk answer t' =>
      rw [hunder] at hencoding
      cases answer with
      | error why => rfl
      | ok payload =>
        refine ih losses.tail ?_ ?_ rest hrest
        · rw [hencoding]
          exact hlast
        · rw [hencoding]
          exact fun x hx => hcs x (List.mem_cons_of_mem command hx)

/-! ## §4. Operations. -/

namespace Client

variable {c : Client} {op : Operation α}

/-- **An operation over a line with losses** asks its commands one after the
other and finishes with the last answer. -/
theorem perform_losing {t : Token} {script : Script} {cs : List Command} {last : Command}
    (hop : op.Tidy) (hprepare : (op.prepare c).1 = .ok script) (hasks : script.Asks c cs last)
    (hwrites : c.Writes t.encoding (last :: cs)) (losses : List (Option Loss)) :
    c.perform Token.line.faulty op (t, Loss.faults losses)
      = ((c.finish op (t.askAllUnder last cs losses).1).1,
          (c.finish op (t.askAllUnder last cs losses).1).2,
          (t.askAllUnder last cs losses).2.1, Loss.faults (t.askAllUnder last cs losses).2.2) := by
  rw [perform_of_prepared hop hprepare, Script.run_losing hwrites hasks]

end Client

/-- A script has as many requests before its last one as commands. -/
theorem Script.Asks.length_opening {c : Client} {script : Script} {cs : List Command}
    {last : Command} (h : script.Asks c cs last) : script.opening.length = cs.length := by
  obtain ⟨hopening, -⟩ := h
  generalize script.opening = qs at hopening ⊢
  induction cs generalizing qs with
  | nil =>
    cases hopening
    rfl
  | cons command cs ih =>
    obtain ⟨q, rest, -, hrest, rfl⟩ := Client.of_mapM_request hopening
    rw [List.length_cons, List.length_cons, ih rest hrest]

end OtpToken
