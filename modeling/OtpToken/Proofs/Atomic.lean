/-
  OtpToken.Proofs.Atomic
  ──────────────────────
  **STEPS THAT ARE DONE OR CHANGE NOTHING.**

  A code slot is written, a piece of a secret is staged, a response is read:
  each of these steps gives a result together with the state that it leaves,
  however it ends.  It is atomic if the state that it leaves with an error is
  the state that it began with.

  Whether a step is atomic depends on what it does before its last check.  It
  has to be shown of each of them; what follows from it is the same for all.
-/

namespace OtpToken

variable {ε α β σ : Type}

/-- A step that fails has left `s` behind. -/
def Atomic (s : σ) (step : Except ε α × σ) : Prop := ∀ e, step.1 = .error e → step.2 = s

namespace Atomic

variable {s : σ} {step : Except ε α × σ}

theorem of_error (e : ε) (s : σ) : Atomic s ((.error e, s) : Except ε α × σ) := fun _ _ => rfl

theorem of_ok (a : α) (s after : σ) : Atomic s ((.ok a, after) : Except ε α × σ) := nofun

theorem eq_of_error (h : Atomic s step) {e : ε} (he : step.1 = .error e) : step = (.error e, s) :=
  Prod.ext he (h e he)

/-- An atomic step is done, or it has changed nothing. -/
theorem ends (h : Atomic s step) :
    (∃ e, step = (.error e, s)) ∨ ∃ a after, step = (.ok a, after) := by
  cases hr : step.1 with
  | error e => exact .inl ⟨e, h.eq_of_error hr⟩
  | ok a => exact .inr ⟨a, step.2, Prod.ext hr rfl⟩

/-- So is the step with another value. -/
theorem map (h : Atomic s step) (f : α → β) : Atomic s (step.1.map f, step.2) := by
  rcases h.ends with ⟨e, rfl⟩ | ⟨a, after, rfl⟩
  · exact of_error e s
  · exact of_ok (f a) s after

end Atomic

end OtpToken
