/-
  OtpToken.Proofs.Client.Latch
  ────────────────────────────
  **A CALL THAT FAILS LEAVES ONLY ITS STATUS BEHIND.**

  Nothing is assumed of the line here: whatever is at its other end may answer
  anything, or fail in any way.  A failure has one of three causes, and none of
  them has the status of a success (`Honest`): a refusal on the host, a failure
  of the line, and a status that the token told, which a host only ever reports
  if it is not `ok`.

  So the status that a host keeps says whether its last call was done
  (`honest_attempt`).  That a call that was not done has changed nothing else is
  a matter of what every single operation does, and when (`Call.tidy`): each of
  them learns only behind its last step that can fail.
-/
import OtpToken.Proofs.Client.Refusal
import OtpToken.Proofs.Client.Trace

namespace OtpToken

variable {σ α : Type}

/-! ## §1. Failures that do not look like successes. -/

/-- A failure is not told with the status of a success. -/
def Honest (x : Except Error α) : Prop := ∀ why, x = .error why → why.status ≠ .ok

theorem honest_error {why : Error} (h : why.status ≠ .ok) :
    Honest (.error why : Except Error α) := by
  intro why' hwhy
  cases hwhy
  exact h

theorem LibraryError.status_ne_ok (why : LibraryError) : why.status ≠ .ok := by
  cases why <;> exact Status.noConfusion

theorem LineError.status_ne_ok (why : LineError) : why.status ≠ .ok := by
  cases why <;> exact Status.noConfusion

/-- Of the statuses in responses a host reports only those that are no
success. -/
theorem Request.honest_judge (q : Request) (verify : Bool) (back : Except LineError Report) :
    Honest (q.judge verify back) := by
  intro why h
  cases Request.Judged.of_judge h with
  | @lost why => exact why.status_ne_ok
  | @unreadable r why hread => exact why.status_ne_ok
  | busy => exact Status.noConfusion
  | misplaced => exact Status.noConfusion
  | stale => exact Status.noConfusion
  | refused hread hstate hcommand hcrc hstatus => exact hstatus

namespace Operation

/-- If the operation is refused on the host, then not with the status of a
success. -/
def RefusesHonestly (op : Operation α) : Prop := ∀ c, Honest (op.prepare c).1

end Operation

/-- **No call is refused with the status of a success.** -/
theorem Call.refusesHonestly (call : Call) : call.operation.RefusesHonestly := by
  intro c why hwhy
  obtain ⟨refusal, rfl⟩ := call.refuses_on_host c why hwhy
  exact refusal.status_ne_ok

/-! ## §2. Every call on every line. -/

/-- No request fails with the status of a success, so no script does. -/
theorem Script.honest_run (script : Script) (line : Line σ) (verify : Bool) (s : σ) :
    Honest (script.run line verify s).1 := by
  unfold run
  generalize script.opening = qs
  induction qs generalizing s with
  | nil =>
    rw [run.go, Request.exchange_eq]
    exact script.final.honest_judge verify _
  | cons q qs ih =>
    have hjudge := q.honest_judge verify (line.send s q.toReport).1
    rw [run.go, Request.exchange_eq]
    cases hanswer : q.judge verify (line.send s q.toReport).1 with
    | error why =>
      rw [hanswer] at hjudge
      exact hjudge
    | ok payload => exact ih (line.send s q.toReport).2

/-- Nor does an operation that is not refused so on the host. -/
theorem Client.honest_attempt {op : Operation α} (h : op.RefusesHonestly) (c : Client)
    (line : Line σ) (s : σ) : Honest (c.attempt line op s).1 := by
  have hrefused := h c
  unfold attempt
  generalize op.prepare c = ready at hrefused ⊢
  obtain ⟨why | script, c'⟩ := ready
  · exact honest_error (hrefused why rfl)
  · have hrun := script.honest_run line c'.options.verifyCrc s
    dsimp only
    generalize script.run line c'.options.verifyCrc s = answered at hrun ⊢
    obtain ⟨why | payload, s'⟩ := answered
    · exact honest_error (hrun why rfl)
    · dsimp only
      cases (op.conclude c' payload).1 with
      | error e => exact honest_error Status.noConfusion
      | ok a => exact nofun

/-- **The two ways of a tidy operation on any line**: it is done, and its status
is `ok`; or it fails with another status, and the host has kept only that. -/
theorem Client.perform_cases {op : Operation α} (hop : op.Tidy) (h : op.RefusesHonestly)
    (c : Client) (line : Line σ) (s : σ) :
    (∃ a, (c.perform line op s).1 = .ok a ∧ (c.perform line op s).2.1.lastStatus = .ok)
      ∨ ∃ why, (c.perform line op s).1 = .error why ∧ why.status ≠ .ok
          ∧ (c.perform line op s).2.1 = { c with lastStatus := why.status } := by
  have hatomic := hop.atomic_attempt c line s
  have hhonest := honest_attempt h c line s
  unfold perform
  generalize c.attempt line op s = r at hatomic hhonest ⊢
  obtain ⟨why | a, after, s'⟩ := r
  · have hsame : after = c := hatomic why rfl
    rw [hsame]
    exact .inr ⟨why, rfl, hhonest why rfl, rfl⟩
  · exact .inl ⟨a, rfl, rfl⟩

/-- A call that fails leaves what the host knows as it was, and whether it
takes the Password Safe to be enabled. -/
theorem Call.view_of_error {call : Call} {line : Line σ} {c c' : Client} {s s' : σ} {why : Error}
    (h : call.perform line c s = (.error why, c', s')) :
    c'.known = c.known ∧ c'.safeEnabled = c.safeEnabled := by
  have hcases := Client.perform_cases call.tidy call.refusesHonestly c line s
  have hends : c.perform line call.operation s = (.error why, c', s') := h
  rw [hends] at hcases
  rcases hcases with ⟨v, hv, -⟩ | ⟨why', -, -, hafter⟩
  · cases hv
  · have hc : c' = { c with lastStatus := why'.status } := hafter
    rw [hc]
    exact ⟨rfl, rfl⟩

/-- **A call that fails leaves only its status behind**, whatever is at the
other end of the line.  The host knows what it knew before, goes by the same
capabilities, and takes the Password Safe to be enabled if it did before; only
the status of the failure is new, and that is never `ok`.  A call that is done
has status `ok`.  So the status that is kept is `ok` exactly if the last call
was done, and it is the status of the outcome, whatever stands in place of a
value. -/
theorem Call.failure_leaves_only_status (call : Call) (line : Line σ) (c : Client) (s : σ) :
    let result := (call.perform line c s).1
    let after := (call.perform line c s).2.1
    (∀ why, result = .error why →
        after = { c with lastStatus := why.status } ∧ why.status ≠ .ok)
      ∧ (∀ v, result = .ok v → after.lastStatus = .ok)
      ∧ (after.lastStatus = .ok ↔ ∃ v, result = .ok v)
      ∧ ∀ blank, (Outcome.ofResult blank result).status = after.lastStatus := by
  intro result after
  have hcases : (∃ v, result = .ok v ∧ after.lastStatus = .ok)
      ∨ ∃ why, result = .error why ∧ why.status ≠ .ok
          ∧ after = { c with lastStatus := why.status } :=
    Client.perform_cases call.tidy call.refusesHonestly c line s
  rcases hcases with ⟨v, hv, hstatus⟩ | ⟨why, hwhy, hne, hafter⟩
  · rw [hv]
    exact ⟨nofun, fun _ _ => hstatus, ⟨fun _ => ⟨v, rfl⟩, fun _ => hstatus⟩, fun _ => hstatus.symm⟩
  · rw [hwhy, hafter]
    refine ⟨?_, nofun, ⟨fun h => absurd h hne, nofun⟩, fun _ => rfl⟩
    intro why' h
    cases h
    exact ⟨rfl, hne⟩

end OtpToken
