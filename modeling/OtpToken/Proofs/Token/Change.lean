/-
  OtpToken.Proofs.Token.Change
  ────────────────────────────
  **WHAT A COMMAND CHANGES, AND WHAT IT LEAVES ALONE.**

  One theorem for each part of a token, each by cases on `Token.Effect`.
  `Answer.status` is how the command ended.  A command that a guard bars is
  answered `notAuthorized` and changes nothing (`Effect.eq_of_barred`), and
  no other command is answered so (`Effect.ne_notAuthorized`).
-/
import OtpToken.Proofs.Token.Effect

namespace OtpToken

/-! ## §1. How a command ended. -/

/-- The status of an answer. -/
def Answer.status : Answer → Status
  | .ok _ => .ok
  | .error status => status

theorem Status.of_mem_refusals {status : Status} (h : status ∈ refusals) :
    status ≠ ok ∧ status ≠ busy ∧ status ≠ notAuthorized := by
  have key : ∀ s ∈ refusals, s ≠ ok ∧ s ≠ busy ∧ s ≠ notAuthorized := by decide
  exact key status h

theorem Token.of_mem_failures {status : Status} (h : status ∈ failures) :
    status ≠ .ok ∧ status ≠ .busy ∧ status ≠ .notAuthorized ∧ status ≠ .wrongPassword := by
  have key : ∀ s ∈ failures, s ≠ .ok ∧ s ≠ .busy ∧ s ≠ .notAuthorized ∧ s ≠ .wrongPassword := by
    decide
  exact key status h

/-- The parts of a token that a command sets to a value of its own. -/
structure Switches where
  safeEnabled : Bool
  keyValid : Bool
  clock : UInt64

/-- The switches as a token has them. -/
def Token.switches (t : Token) : Switches := ⟨t.safeEnabled, t.keyValid, t.clock⟩

namespace Command

/-- The switches after a command that was done. -/
def turn (c : Command) (s : Switches) : Switches :=
  match c with
  | enableSafe _ => { s with safeEnabled := true }
  | lockDevice => { s with safeEnabled := false }
  | factoryReset _ => { s with safeEnabled := false, keyValid := false }
  | newAesKey _ => { s with safeEnabled := false, keyValid := true }
  | setTime _ time => { s with clock := time }
  | _ => s

variable {c : Command} {x : Role × Secret}

theorem turn_of_tells (h : c.id.tells = true) (s : Switches) : c.turn s = s := by
  cases c <;> first | rfl | cases h

theorem turn_of_usesSafe (h : c.id.usesSafe = true) (s : Switches) : c.turn s = s := by
  cases c <;> first | rfl | cases h

theorem turn_of_login (h : c.login? = some x) (s : Switches) : c.turn s = s := by
  cases c <;> first | rfl | cases h

theorem turn_of_newPin (h : c.newPin? = some x) (s : Switches) : c.turn s = s := by
  cases c <;> first | rfl | cases h

end Command

/-- One HOTP counter has moved on. -/
def CodeTable.CountedOn (before after : CodeTable CodeSlot) : Prop :=
  ∃ index slot, before.get? .hotp index = some (some slot)
    ∧ after = before.set .hotp index (some { slot with
        details := { slot.details with counter := slot.details.counter + 1 } })

/-! ## §2. Statuses. -/

namespace Token

variable {t : Token} {c : Command} {r : Answer × Token}

theorem capabilities_eq {t t' : Token} (h : t'.config = t.config) :
    t'.capabilities = t.capabilities := by
  unfold capabilities
  rw [h]

/-- A guard that costs nothing does not stand before a command with a PIN. -/
theorem allows_of_check {role : Role} {pin : Secret} (h : c.check? = some (role, pin)) :
    t.allows c = true := by
  cases c <;> first | rfl | cases h

namespace Effect

theorem config_eq (h : t.Effect c r) : r.2.config = t.config := by
  cases h <;> rfl

theorem pluggedIn_eq (h : t.Effect c r) : r.2.pluggedIn = t.pluggedIn := by
  cases h <;> rfl

/-- No refusal is told with the status of a success or of a busy token. -/
theorem status_of_error {status : Status} (h : t.Effect c r) (hr : r.1 = .error status) :
    status ≠ .ok ∧ status ≠ .busy := by
  cases h with
  | barred _ => cases hr; decide
  | wrongPin _ _ _ => cases hr; decide
  | refused _ _ hs =>
    cases hr
    exact ⟨(Status.of_mem_refusals hs).1, (Status.of_mem_refusals hs).2.1⟩
  | unwritten _ hs =>
    cases hr
    exact ⟨(Status.of_mem_refusals hs).1, (Status.of_mem_refusals hs).2.1⟩
  | failed _ _ _ _ hs =>
    cases hr
    exact ⟨(of_mem_failures hs).1, (of_mem_failures hs).2.1⟩
  | _ => cases hr

/-! ## §3. Guards. -/

/-- **A command that a guard bars is refused and changes nothing.** -/
theorem eq_of_barred (h : t.Effect c r) (hbar : t.allows c = false) :
    r = (.error .notAuthorized, t) := by
  cases h with
  | barred _ => rfl
  -- every other way needs the guard to have let the command pass
  | refused hpass _ _ => cases hbar.symm.trans hpass
  | told hpass _ => cases hbar.symm.trans hpass
  | staged hpass _ => cases hbar.symm.trans hpass
  | unwritten hpass _ => cases hbar.symm.trans hpass
  | written hpass _ _ _ _ _ => cases hbar.symm.trans hpass
  | erased hpass _ => cases hbar.symm.trans hpass
  | configured hpass => cases hbar.symm.trans hpass
  | counted hpass _ _ _ _ _ => cases hbar.symm.trans hpass
  | timed hpass _ _ _ _ _ => cases hbar.symm.trans hpass
  | safeChanged hpass _ => cases hbar.symm.trans hpass
  | wrongPin hcheck _ _ => cases hbar.symm.trans (allows_of_check hcheck)
  | failed hcheck _ _ _ _ => cases hbar.symm.trans (allows_of_check hcheck)
  | loggedIn hcheck _ _ _ => cases hbar.symm.trans (allows_of_check hcheck)
  | pinChanged hcheck _ _ _ => cases hbar.symm.trans (allows_of_check hcheck)
  | _ => cases hbar

/-- **A command that no guard bars is never answered `notAuthorized`.** -/
theorem ne_notAuthorized (h : t.Effect c r) (hpass : t.allows c = true) :
    r.1.status ≠ .notAuthorized := by
  cases h with
  | barred hbar => cases hbar.symm.trans hpass
  | refused _ _ hs => exact (Status.of_mem_refusals hs).2.2
  | unwritten _ hs => exact (Status.of_mem_refusals hs).2.2
  | failed _ _ _ _ hs => exact (of_mem_failures hs).2.2.1
  | _ => exact Status.noConfusion

/-- So the status tells whether a guard has barred a command. -/
theorem ne_notAuthorized_iff (h : t.Effect c r) :
    r.1.status ≠ .notAuthorized ↔ t.allows c = true := by
  refine ⟨fun hstatus => ?_, h.ne_notAuthorized⟩
  by_cases hpass : t.allows c = true
  · exact hpass
  · rw [h.eq_of_barred (Bool.eq_false_iff.mpr hpass)] at hstatus
    exact absurd rfl hstatus

/-- A command that was done was not barred. -/
theorem allows_of_ok (h : t.Effect c r) (hok : r.1.status = .ok) : t.allows c = true := by
  refine h.ne_notAuthorized_iff.mp ?_
  rw [hok]
  exact Status.noConfusion

/-! ## §4. Code slots and the config register. -/

/-- **Code slots and the config register change by a code that was given,
by a command of the admin, or by a reset, and only when it is done.** -/
theorem codes_config (h : t.Effect c r) :
    (r.2.store.codes = t.store.codes ∧ r.2.store.config = t.store.config)
      ∨ r.1.status = .ok
        ∧ ((c.id = .getCode ∧ t.store.codes.CountedOn r.2.store.codes
              ∧ r.2.store.config = t.store.config)
          ∨ (∃ temp, c.adminTemp? = some temp ∧ t.session.admits .admin temp.bytes = true)
          ∨ c.id = .factoryReset) := by
  cases h with
  | written hpass _ _ _ _ _ => exact .inr ⟨rfl, .inr (.inl ⟨_, rfl, hpass⟩)⟩
  | erased hpass _ => exact .inr ⟨rfl, .inr (.inl ⟨_, rfl, hpass⟩)⟩
  | configured hpass => exact .inr ⟨rfl, .inr (.inl ⟨_, rfl, hpass⟩)⟩
  | counted _ _ hslot _ _ _ => exact .inr ⟨rfl, .inl ⟨rfl, ⟨_, _, hslot, rfl⟩, rfl⟩⟩
  | reset _ => exact .inr ⟨rfl, .inr (.inr rfl)⟩
  | keyRenewed _ =>
    -- clearing the Password Safe keeps both
    refine .inl ?_
    show (ite _ _ _ : Store).codes = _ ∧ (ite _ _ _ : Store).config = _
    split
    · exact ⟨rfl, rfl⟩
    · exact ⟨rfl, rfl⟩
  | _ => exact .inl ⟨rfl, rfl⟩

/-! ## §5. The Password Safe. -/

/-- **The contents of the Password Safe change by a command that uses it
while it is enabled, by a reset or by a new AES key, and only when it is
done.** -/
theorem safe_eq (h : t.Effect c r) :
    r.2.store.safe = t.store.safe
      ∨ r.1.status = .ok
        ∧ ((c.id.usesSafe = true ∧ t.allows c = true) ∨ c.id = .factoryReset
          ∨ c.id = .newAesKey) := by
  cases h with
  | safeChanged hpass huses => exact .inr ⟨rfl, .inl ⟨huses, hpass⟩⟩
  | reset _ => exact .inr ⟨rfl, .inr (.inl rfl)⟩
  | keyRenewed _ => exact .inr ⟨rfl, .inr (.inr rfl)⟩
  | _ => exact .inl rfl

/-- The Password Safe opens only to the user's PIN and with a valid key. -/
theorem of_safeOpened {userPin : Secret} (h : t.Effect (.enableSafe userPin) r)
    (hok : r.1.status = .ok) :
    t.session.user.accepts userPin.bytes = true ∧ t.keyValid = true := by
  cases h with
  | safeOpened hright hkey => exact ⟨hright, hkey⟩
  | barred _ => cases hok
  | wrongPin _ _ _ => cases hok
  | refused _ hcheck _ => cases hcheck
  | failed _ _ _ _ hs => exact absurd hok (of_mem_failures hs).1
  | told _ htells => cases htells
  | safeChanged _ huses => cases huses
  | loggedIn _ hlogin _ _ => cases hlogin
  | pinChanged _ hnew _ _ => cases hnew

/-! ## §6. Switches. -/

/-- **Only five commands turn a switch, and only when they are done.** -/
theorem switches_eq (h : t.Effect c r) :
    r.2.switches = if r.1.status = .ok then c.turn t.switches else t.switches := by
  cases h with
  | refused _ _ hs => exact (if_neg (Status.of_mem_refusals hs).1).symm
  | unwritten _ hs => exact (if_neg (Status.of_mem_refusals hs).1).symm
  | failed _ _ _ _ hs => exact (if_neg (of_mem_failures hs).1).symm
  | told _ htells => rw [Command.turn_of_tells htells, ite_self]
  | safeChanged _ huses =>
    rw [Command.turn_of_usesSafe huses, ite_self]
    rfl
  | loggedIn _ hlogin _ _ =>
    rw [Command.turn_of_login hlogin, ite_self]
    rfl
  | pinChanged _ hnew _ _ =>
    rw [Command.turn_of_newPin hnew, ite_self]
    rfl
  | _ => rfl

end Effect

end Token

end OtpToken
