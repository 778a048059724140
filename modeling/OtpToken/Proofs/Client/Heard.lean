/-
  OtpToken.Proofs.Client.Heard
  ────────────────────────────
  **WHAT A TOKEN HEARS OF A HOST.**

  Over a line with losses a token hears some of the requests that a call has
  made, in their order (`Call.exists_heard`).  So a dialogue goes on by
  reports that are known, and what holds of every dialogue holds of one with a
  host.  The token alone goes on as it would with nobody writing down what was
  said (`Dialogue.line_shows`).
-/
import OtpToken.Proofs.Client.Call
import OtpToken.Proofs.Client.Loss
import OtpToken.Proofs.Token.Dialogue

namespace OtpToken

/-! ## §1. Lines that show less. -/

namespace Line

variable {σ τ α : Type} {line : Line σ} {line' : Line τ} {f : σ → τ}

/-- Whoever sees of a line only what `f` shows sees the other line. -/
def Shows (line : Line σ) (f : σ → τ) (line' : Line τ) : Prop :=
  ∀ s r, line'.send (f s) r = ((line.send s r).1, f (line.send s r).2)

/-- Faults come between both in the same way. -/
theorem Shows.faulty (h : line.Shows f line') :
    line.faulty.Shows (fun s => (f s.1, s.2)) line'.faulty := by
  rintro ⟨s, queue⟩ r
  match queue with
  | [] =>
    show ((line'.send (f s) r).1, (line'.send (f s) r).2, _) = _
    rw [h]
    rfl
  | none :: queue =>
    show ((line'.send (f s) r).1, (line'.send (f s) r).2, _) = _
    rw [h]
    rfl
  | some fault :: queue =>
    have hfault : fault.send line' (f s) r
        = ((fault.send line s r).1, f (fault.send line s r).2) := by
      unfold Fault.send
      cases fault with
      | fail why executed =>
        cases executed with
        | false => rfl
        | true =>
          show ((line'.send (f s) r).1.bind fun _ => .error why, (line'.send (f s) r).2) = _
          rw [h]
          rfl
      | changeRequest flip => exact h s _
      | changeResponse flip =>
        show ((line'.send (f s) r).1.map flip.apply, (line'.send (f s) r).2) = _
        rw [h]
      | editResponse edit =>
        show ((line'.send (f s) r).1.map edit.apply, (line'.send (f s) r).2) = _
        rw [h]
      | reply report => rfl
    show ((fault.send line' (f s) r).1, (fault.send line' (f s) r).2, _) = _
    rw [hfault]
    rfl

/-- Every exchange comes to the same on both lines. -/
def SameExchanges (line : Line σ) (f : σ → τ) (line' : Line τ) (verify : Bool) : Prop :=
  ∀ (q : Request) s, q.exchange line' verify (f s)
    = ((q.exchange line verify s).1, f (q.exchange line verify s).2)

theorem Shows.sameExchanges (h : line.Shows f line') (verify : Bool) :
    line.SameExchanges f line' verify := by
  intro q s
  rw [q.exchange_eq, q.exchange_eq, h]

theorem SameExchanges.run {verify : Bool} (h : line.SameExchanges f line' verify) (script : Script)
    (s : σ) :
    script.run line' verify (f s)
      = ((script.run line verify s).1, f (script.run line verify s).2) := by
  unfold Script.run
  generalize script.opening = qs
  induction qs generalizing s with
  | nil => exact h script.final s
  | cons q qs ih =>
    unfold Script.run.go
    rw [h]
    cases q.exchange line verify s with
    | mk answer s' =>
      cases answer with
      | error why => rfl
      | ok payload => exact ih s'

/-- **An operation comes to the same where every exchange does.** -/
theorem SameExchanges.perform {c : Client} {op : Operation α}
    (h : line.SameExchanges f line' (op.prepare c).2.options.verifyCrc) (s : σ) :
    c.perform line' op (f s)
      = ((c.perform line op s).1, (c.perform line op s).2.1, f (c.perform line op s).2.2) := by
  rw [Client.perform_eq, Client.perform_eq]
  generalize op.prepare c = r at h
  obtain ⟨why | script, c'⟩ := r
  · rfl
  · dsimp only
    rw [h.run]

/-- **An operation goes on both lines in the same way.** -/
theorem Shows.perform (h : line.Shows f line') (c : Client) (op : Operation α) (s : σ) :
    c.perform line' op (f s)
      = ((c.perform line op s).1, (c.perform line op s).2.1, f (c.perform line op s).2.2) :=
  (h.sameExchanges _).perform s

end Line

/-! ## §2. Dialogues over a line. -/

namespace Dialogue

/-- A line to the token of a dialogue. -/
def line : Line Dialogue := ⟨fun d r => ((d.token.send r).1, d.hear r)⟩

/-- Of a dialogue, the token alone goes on as it would by itself. -/
theorem line_shows : line.Shows token Token.line := by
  intro d r
  show d.token.send r = ((d.token.send r).1, (d.hear r).token)
  unfold hear
  cases d.token.send r with
  | mk answer token =>
    cases answer with
    | error why => rfl
    | ok reply => rfl

end Dialogue

/-- Of a report over a line with losses, the other end hears or does not
hear. -/
theorem Line.state_of_losing {σ : Type} (line : Line σ) (s : σ) (losses : List (Option Loss))
    (r : Report) :
    (line.faulty.send (s, Loss.faults losses) r).2 = (s, Loss.faults losses.tail)
      ∨ (line.faulty.send (s, Loss.faults losses) r).2
          = ((line.send s r).2, Loss.faults losses.tail) := by
  match losses with
  | [] => exact .inr rfl
  | none :: losses => exact .inr rfl
  | some (.request why) :: losses => exact .inl rfl
  | some (.response why) :: losses => exact .inr rfl

/-- **Over a line with losses a token hears some of the requests of a script**,
in their order. -/
theorem Script.exists_heard (script : Script) (verify : Bool) (d : Dialogue)
    (losses : List (Option Loss)) :
    ∃ (heard : List Request) (rest : List (Option Loss)), heard.Sublist script.requests
      ∧ (script.run Dialogue.line.faulty verify (d, Loss.faults losses)).2
          = (d.run (heard.map Request.toReport), Loss.faults rest) := by
  unfold run requests
  -- one request: it is heard or not
  have hone : ∀ (q : Request) (d : Dialogue) (losses : List (Option Loss)),
      ∃ heard : List Request, heard.Sublist [q]
        ∧ (q.exchange Dialogue.line.faulty verify (d, Loss.faults losses)).2
            = (d.run (heard.map Request.toReport), Loss.faults losses.tail) := by
    intro q d losses
    rw [q.exchange_eq]
    rcases Dialogue.line.state_of_losing d losses q.toReport with hlost | hheard
    · exact ⟨[], List.nil_sublist _, hlost⟩
    · exact ⟨[q], .refl _, hheard⟩
  generalize script.opening = qs
  induction qs generalizing d losses with
  | nil =>
    obtain ⟨heard, hheard, hstate⟩ := hone script.final d losses
    exact ⟨heard, losses.tail, hheard, hstate⟩
  | cons q qs ih =>
    obtain ⟨first, hfirst, hstate⟩ := hone q d losses
    unfold run.go
    cases hr : q.exchange Dialogue.line.faulty verify (d, Loss.faults losses) with
    | mk answer s =>
      rw [hr] at hstate
      subst hstate
      cases answer with
      | error why =>
        refine ⟨first, losses.tail, ?_, rfl⟩
        exact hfirst.trans (List.singleton_sublist.mpr List.mem_cons_self)
      | ok payload =>
        obtain ⟨heard, rest, hheard, hstate⟩ :=
          ih (d.run (first.map Request.toReport)) losses.tail
        refine ⟨first ++ heard, rest, hfirst.append hheard, ?_⟩
        rw [List.map_append, Dialogue.run_append]
        exact hstate

/-- Every request of a script asks one of its commands. -/
theorem Script.Asks.exists_command {c : Client} {script : Script} {cs : List Command}
    {last : Command} {q : Request} (h : script.Asks c cs last) (hq : q ∈ script.requests) :
    ∃ x, (x ∈ cs ∨ x = last) ∧ x.toRequest c.capabilities.encoding = .ok q := by
  obtain ⟨hopening, hfinal⟩ := h
  rcases List.mem_append.mp hq with hq | hq
  · clear hfinal
    generalize script.opening = qs at hopening hq
    induction cs generalizing qs with
    | nil =>
      cases hopening
      cases hq
    | cons x cs ih =>
      obtain ⟨q', rest, hq', hrest, rfl⟩ := Client.of_mapM_request hopening
      rcases List.mem_cons.mp hq with rfl | hq
      · exact ⟨x, .inl List.mem_cons_self, Client.toRequest_of_request hq'⟩
      · obtain ⟨y, hy, hrequest⟩ := ih rest hrest hq
        exact ⟨y, hy.imp_left (List.mem_cons_of_mem x), hrequest⟩
  · cases List.mem_singleton.mp hq
    exact ⟨last, .inr rfl, Client.toRequest_of_request hfinal⟩

/-- **Over a line with losses a token hears some of the requests of a call.** -/
theorem Call.exists_heard (call : Call) (c : Client) (d : Dialogue) (losses : List (Option Loss)) :
    ∃ heard : List Request,
      (∀ q ∈ heard, ∃ cs last x, call.Asks c cs last ∧ (x ∈ cs ∨ x = last)
        ∧ x.toRequest c.capabilities.encoding = .ok q)
      ∧ (call.perform Dialogue.line.faulty c (d, Loss.faults losses)).2.2.1
          = d.run (heard.map Request.toReport) := by
  unfold perform
  cases hprepare : (call.operation.prepare c).1 with
  | error why =>
    rw [Client.perform_of_refused call.tidy hprepare]
    exact ⟨[], nofun, rfl⟩
  | ok script =>
    obtain ⟨cs, last, hscript, hasks⟩ := call.asks c script hprepare
    obtain ⟨heard, rest, hsub, hstate⟩ := script.exists_heard c.options.verifyCrc d losses
    rw [Client.perform_of_prepared call.tidy hprepare, hstate]
    refine ⟨heard, fun q hq => ?_, rfl⟩
    obtain ⟨x, hx, hrequest⟩ := hscript.exists_command (hsub.subset hq)
    exact ⟨cs, last, x, hasks, hx, hrequest⟩

end OtpToken
