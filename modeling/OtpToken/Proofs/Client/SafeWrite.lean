/-
  OtpToken.Proofs.Client.SafeWrite
  ────────────────────────────────
  **A PASSWORD SAFE SLOT IS WRITTEN IN TWO PARTS.**

  Name and password go first, then the login, and the token stores each part
  when it comes.  Nothing is staged.  So there is a moment at which a slot has
  its new name and its new password next to the login that it had before, and
  a line that loses the answer to the first part, or the second part itself,
  leaves it there (`not_writeSafe_whole`).

  `writeSafe_in_two_parts` says that this is all that can go wrong: the call
  fails then, and in every other case the slot is as it was or is new as a
  whole.
-/
import OtpToken.Proofs.Client.Call
import OtpToken.Proofs.Client.Loss

namespace OtpToken

/-! ## §1. One part on the token. -/

namespace Token

variable {t : Token} {index : UInt8} {entry previous : SafeEntry} {name login : String}
  {password : Secret}

/-- The token with another entry in one Password Safe slot. -/
def putSafe (t : Token) (index : UInt8) (entry : SafeEntry) : Token :=
  { t with store := { t.store with safe := t.store.safe.setIfInBounds index.toNat (some entry) } }

/-- An entry that is put in a slot is there. -/
theorem getElem?_putSafe {contents : Option SafeEntry}
    (h : t.store.safe[index.toNat]? = some contents) :
    (t.putSafe index entry).store.safe[index.toNat]? = some (some entry) := by
  obtain ⟨hlt, -⟩ := Vector.getElem?_eq_some_iff.mp h
  exact Vector.getElem?_setIfInBounds_self_of_lt hlt

/-- Of two entries that are put in a slot the second stays. -/
theorem putSafe_putSafe : (t.putSafe index previous).putSafe index entry = t.putSafe index entry := by
  unfold putSafe
  rw [Vector.setIfInBounds_setIfInBounds]

/-- The first part is refused and changes nothing, or name and password are
new and the login is the one that was there. -/
theorem ask_setSafePrimary (t : Token) (index : UInt8) (name : String) (password : Secret) :
    (∃ why, t.ask (.setSafePrimary index name password) = (.error why, t))
      ∨ t.safeEnabled = true ∧ ∃ contents, t.store.safe[index.toNat]? = some contents
          ∧ t.ask (.setSafePrimary index name password)
            = (.ok .empty, t.putSafe index
                ⟨Utf8.untilNul name, (contents.map SafeEntry.login).getD "", password.untilNul⟩) := by
  have hexecute : t.execute (Command.norm (.setSafePrimary index name password))
      = t.withSafe (t.commit (t.store.writeSafePrimary index (Utf8.untilNul name)
          password.untilNul)) := rfl
  unfold ask
  rw [hexecute]
  unfold withSafe Store.writeSafePrimary
  split
  · next hopen =>
    cases hcontents : t.store.safe[index.toNat]? with
    | none =>
      rw [Store.updateSafe_of_none hcontents]
      exact .inl ⟨_, rfl⟩
    | some contents =>
      rw [Store.updateSafe_of_some hcontents]
      exact .inr ⟨hopen, contents, rfl, rfl⟩
  · exact .inl ⟨_, rfl⟩

/-- The second part, on a slot that was just given an entry, is always
done. -/
theorem ask_setSafeLogin {contents : Option SafeEntry} (hopen : t.safeEnabled = true)
    (h : t.store.safe[index.toNat]? = some contents) (entry : SafeEntry) (login : String) :
    (t.putSafe index entry).ask (.setSafeLogin index login)
      = (.ok .empty, t.putSafe index { entry with login := Utf8.untilNul login }) := by
  have hexecute : ∀ u : Token, u.execute (Command.norm (.setSafeLogin index login))
      = u.withSafe (u.commit (u.store.writeSafeLogin index (Utf8.untilNul login))) := fun _ => rfl
  unfold ask
  rw [hexecute]
  unfold withSafe Store.writeSafeLogin
  have hstill : (t.putSafe index entry).safeEnabled = true := hopen
  rw [if_pos hstill, Store.updateSafe_of_some (getElem?_putSafe h)]
  show (_, (t.putSafe index entry).putSafe index { entry with login := Utf8.untilNul login }) = _
  rw [putSafe_putSafe]
  rfl

/-! ## §2. Both parts over a line with losses. -/

/-- How the write of a Password Safe slot can end, in what is told and in the
token afterwards, where `losses` says what is lost of the two parts. -/
inductive SafeWrite {α : Type} (t : Token) (index : UInt8) (name login : String)
    (password : Secret) (losses : List (Option Loss)) : Except Error α → Token → Prop
  /-- It fails, and nothing has changed. -/
  | unchanged {why : Error} : SafeWrite t index name login password losses (.error why) t
  /-- Name, login and password are new together. -/
  | whole {a : α} {contents : Option SafeEntry}
      (hslot : t.store.safe[index.toNat]? = some contents) :
      SafeWrite t index name login password losses (.ok a)
        (t.putSafe index ⟨Utf8.untilNul name, Utf8.untilNul login, password.untilNul⟩)
  /-- They are new together, and only the last response was lost. -/
  | unheard {why : LineError} {contents : Option SafeEntry}
      (hslot : t.store.safe[index.toNat]? = some contents)
      (hlost : losses[1]?.join = some (.response why)) :
      SafeWrite t index name login password losses (.error (.line why))
        (t.putSafe index ⟨Utf8.untilNul name, Utf8.untilNul login, password.untilNul⟩)
  /-- Name and password are new and the login is the one that the slot had,
  none in an empty slot: the first response was lost, or the second part. -/
  | half {why : LineError} {contents : Option SafeEntry}
      (hslot : t.store.safe[index.toNat]? = some contents)
      (hlost : losses[0]?.join = some (.response why)
        ∨ losses[0]?.join = none ∧ losses[1]?.join = some (.request why)) :
      SafeWrite t index name login password losses (.error (.line why))
        (t.putSafe index
          ⟨Utf8.untilNul name, (contents.map SafeEntry.login).getD "", password.untilNul⟩)

/-- **Both parts asked over a line with losses** end in one of these ways. -/
theorem askAllUnder_safeParts (t : Token) (index : UInt8) (name login : String)
    (password : Secret) (losses : List (Option Loss)) :
    t.SafeWrite index name login password losses
      (t.askAllUnder (.setSafeLogin index login) [.setSafePrimary index name password] losses).1
      (t.askAllUnder (.setSafeLogin index login) [.setSafePrimary index name password]
        losses).2.1 := by
  have hsecond : losses.tail.head?.join = losses[1]?.join := by
    rw [List.head?_eq_getElem?, List.getElem?_tail]
  unfold askAllUnder askAllUnder
  rw [hsecond, List.head?_eq_getElem?]
  rcases t.askUnder_cases (.setSafePrimary index name password) losses[0]?.join with
    ⟨why, hunder, -⟩ | ⟨hplug, hfirst, hunder⟩ | ⟨why, hfirst, hunder⟩
  · rw [hunder]
    exact .unchanged
  · rw [hunder]
    rcases t.ask_setSafePrimary index name password with
      ⟨why, hask⟩ | ⟨hopen, contents, hslot, hask⟩
    · rw [hask]
      exact .unchanged
    · -- the first part is done, and the second is on its way
      rw [hask]
      have hlogin := ask_setSafeLogin hopen hslot
        ⟨Utf8.untilNul name, (contents.map SafeEntry.login).getD "", password.untilNul⟩ login
      dsimp only at hlogin ⊢
      rcases (t.putSafe index ⟨Utf8.untilNul name, (contents.map SafeEntry.login).getD "",
          password.untilNul⟩).askUnder_cases (.setSafeLogin index login) losses[1]?.join with
        ⟨why, hunder, hlost⟩ | ⟨-, -, hunder⟩ | ⟨why, hlost, hunder⟩
      · rw [hunder]
        exact .half hslot (.inr ⟨hfirst, hlost hplug⟩)
      · rw [hunder, hlogin]
        exact .whole hslot
      · rw [hunder, hlogin]
        exact .unheard hslot hlost
  · -- the first part is refused or done, and nobody hears of it
    rw [hunder]
    rcases t.ask_setSafePrimary index name password with
      ⟨refusal, hask⟩ | ⟨-, contents, hslot, hask⟩
    · rw [hask]
      exact .unchanged
    · rw [hask]
      exact .half hslot (.inl hfirst)

end Token

/-! ## §3. The call. -/

namespace Call

/-- **A Password Safe slot is written in two parts.**  The call fails and the
token is as it was.  Or name, login and password are new together, and the
call fails at most because its last response was lost.  Or it fails with name
and password new next to the login that the slot had, because the response to
the first part was lost, or the second part itself.  Nothing else on the token
changes. -/
theorem writeSafe_in_two_parts (c : Client) (t : Token) (losses : List (Option Loss))
    (index : UInt8) (name login password : String) :
    t.SafeWrite index name login (.ofText password) losses
      ((writeSafe index name login password).perform Token.line.faulty c
        (t, Loss.faults losses)).1
      ((writeSafe index name login password).perform Token.line.faulty c
        (t, Loss.faults losses)).2.2.1 := by
  unfold perform
  cases hprepare : ((writeSafe index name login password).operation.prepare c).1 with
  | error why =>
    rw [Client.perform_of_refused (Call.tidy _) hprepare]
    exact .unchanged
  | ok script =>
    obtain ⟨cs, last, hscript, rfl, rfl⟩ := Operation.asks_writeSafe script hprepare
    -- neither part has a counter in it
    have hwrites : c.Writes t.encoding [.setSafeLogin index login,
        .setSafePrimary index name (.ofText password)] := by
      simp only [Client.Writes, List.forall_mem_cons]
      exact ⟨rfl, rfl, fun x h => nomatch h⟩
    rw [Client.perform_losing (Call.tidy _) hprepare hscript hwrites]
    have hparts := t.askAllUnder_safeParts index name login (.ofText password) losses
    -- the host has nothing to read in the last answer
    cases h : t.askAllUnder (.setSafeLogin index login)
        [.setSafePrimary index name (.ofText password)] losses with
    | mk answer after =>
      obtain ⟨t', rest⟩ := after
      rw [h] at hparts
      dsimp only at hparts ⊢
      cases hparts with
      | unchanged => exact .unchanged
      | whole hslot => exact .whole hslot
      | unheard hslot hlost => exact .unheard hslot hlost
      | half hslot hlost => exact .half hslot hlost

end Call

/-- A token whose Password Safe is open and has one entry. -/
def Token.oneEntry : Token :=
  { (Token.fresh .factory).putSafe 0 ⟨"bank", "alice", .ofText "old"⟩ with safeEnabled := true }

namespace Call

set_option maxRecDepth 20000 in
/-- It is not true that a slot is as it was or new as a whole: when the second
part is lost, the new name and password stand next to the old login. -/
theorem not_writeSafe_whole :
    ¬ ∀ (c : Client) (t : Token) (losses : List (Option Loss)) (index : UInt8)
        (name login password : String),
      let slot := ((writeSafe index name login password).perform Token.line.faulty c
        (t, Loss.faults losses)).2.2.1.store.safe[index.toNat]?
      slot = t.store.safe[index.toNat]?
        ∨ slot = some (some
            ⟨Utf8.untilNul name, Utf8.untilNul login, (Secret.ofText password).untilNul⟩) := by
  intro h
  have hslot : ((writeSafe 0 "post" "bob" "new").perform Token.line.faulty
      { Client.fresh default with safeEnabled := true }
      (.oneEntry, Loss.faults [none, some (.request .disconnected)])).2.2.1.store.safe[0]?
      = some (some ⟨"post", "alice", .ofText "new"⟩) := by decide +kernel
  rcases h { Client.fresh default with safeEnabled := true } .oneEntry
    [none, some (.request .disconnected)] 0 "post" "bob" "new" with hsame | hnew
  · exact absurd (hslot.symm.trans hsame) (by decide +kernel)
  · exact absurd (hslot.symm.trans hnew) (by decide +kernel)

end Call

end OtpToken
