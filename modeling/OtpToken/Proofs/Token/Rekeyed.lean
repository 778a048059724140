/-
  OtpToken.Proofs.Token.Rekeyed
  ─────────────────────────────
  **WHAT A TOKEN DOES WITH OTHER SECRETS.**

  `Token.rekeyed f g` is the token with every secret of a code slot changed by `f`,
  and with what is staged changed by `g`.  Details, Password Safe, config register,
  session, switches and clock stay.

  Four commands look at secrets or at what is staged, or throw both away: a piece, a
  write, a code and the factory reset.  Every other one answers the same, and does the
  same (`execute_rekeyed`).
-/
import OtpToken.Proofs.Token.Alike

namespace OtpToken

/-! ## §1. Tables. -/

namespace CodeTable

variable {α β : Type}

/-- The table with every entry changed. -/
def map (f : α → β) (table : CodeTable α) : CodeTable β :=
  ⟨table.hotp.map (Option.map f), table.totp.map (Option.map f)⟩

variable {f : α → β} {table : CodeTable α}

theorem get?_map (kind : CodeKind) (index : UInt8) :
    (table.map f).get? kind index = (table.get? kind index).map (Option.map f) := by
  cases kind with
  | hotp => exact Vector.getElem?_map
  | totp => exact Vector.getElem?_map

theorem map_set (kind : CodeKind) (index : UInt8) (a : Option α) :
    (table.set kind index a).map f = (table.map f).set kind index (a.map f) := by
  cases kind with
  | hotp => exact congrArg (CodeTable.mk · _) Vector.map_setIfInBounds
  | totp => exact congrArg (CodeTable.mk _) Vector.map_setIfInBounds

theorem map_map_of_idem {f : α → α} (h : ∀ a, f (f a) = f a) (table : CodeTable α) :
    (table.map f).map f = table.map f := by
  have hopt : Option.map f ∘ Option.map f = Option.map f := by
    funext a
    cases a with
    | none => rfl
    | some a => exact congrArg some (h a)
  show CodeTable.mk ((table.hotp.map _).map _) ((table.totp.map _).map _) = _
  rw [Vector.map_map, Vector.map_map, hopt]
  rfl

end CodeTable

/-! ## §2. Slots. -/

/-- The slot with its secret changed. -/
def CodeSlot.rekeyed (f : Secret → Secret) (slot : CodeSlot) : CodeSlot :=
  { slot with secret := f slot.secret }

/-- The store with the secrets of its code slots changed. -/
def Store.rekeyed (f : Secret → Secret) (s : Store) : Store :=
  { s with codes := s.codes.map (CodeSlot.rekeyed f) }

namespace Store

variable (s : Store) (f : Secret → Secret) (kind : CodeKind) (index : UInt8)

theorem get?_rekeyed : (s.rekeyed f).codes.get? kind index
    = (s.codes.get? kind index).map (Option.map (CodeSlot.rekeyed f)) :=
  CodeTable.get?_map kind index

/-- One slot is programmed with the changed secret. -/
theorem rekeyed_set (contents : Option CodeSlot) :
    { s with codes := s.codes.set kind index contents }.rekeyed f
      = { s.rekeyed f with
          codes := (s.rekeyed f).codes.set kind index (contents.map (CodeSlot.rekeyed f)) } :=
  congrArg (Store.mk · s.safe s.config) (CodeTable.map_set kind index contents)

theorem rekeyed_of_idem {f : Secret → Secret} (h : ∀ secret, f (f secret) = f secret) :
    (s.rekeyed f).rekeyed f = s.rekeyed f :=
  congrArg (Store.mk · s.safe s.config)
    (CodeTable.map_map_of_idem (fun slot => congrArg (CodeSlot.mk slot.details) (h slot.secret))
      s.codes)

theorem code_rekeyed :
    (s.rekeyed f).code kind index = (s.code kind index).map (CodeSlot.rekeyed f) := by
  unfold code
  rw [get?_rekeyed]
  cases s.codes.get? kind index with
  | none => rfl
  | some contents =>
    cases contents with
    | none => rfl
    | some slot => rfl

theorem writeCode_rekeyed (details : SlotDetails) (secret : Option Secret) :
    (s.rekeyed f).writeCode kind index ⟨details, secret.map f⟩
      = ((s.writeCode kind index ⟨details, secret⟩).1,
          (s.writeCode kind index ⟨details, secret⟩).2.rekeyed f) := by
  unfold writeCode
  rw [get?_rekeyed]
  dsimp only
  -- in the order of the checks: name, period, index, secret
  split
  · rfl
  split
  · rfl
  cases s.codes.get? kind index with
  | none => rfl
  | some previous =>
    have hsecret : (secret.map f <|> (previous.map (CodeSlot.rekeyed f)).map CodeSlot.secret)
        = (secret <|> previous.map CodeSlot.secret).map f := by
      cases secret with
      | some secret => rfl
      | none =>
        cases previous with
        | none => rfl
        | some slot => rfl
    dsimp only [Option.map_some]
    rw [hsecret]
    have hemptied := s.rekeyed_set f kind index none
    cases secret <|> previous.map CodeSlot.secret with
    | none => exact congrArg (Prod.mk _) hemptied.symm
    | some secret =>
      have hwritten := rekeyed_set { s with codes := s.codes.set kind index none } f kind index
        (some ⟨details, secret⟩)
      rw [hemptied] at hwritten
      exact congrArg (Prod.mk _) hwritten.symm

theorem eraseCode_rekeyed :
    (s.rekeyed f).eraseCode kind index
      = ((s.eraseCode kind index).1, (s.eraseCode kind index).2.rekeyed f) := by
  unfold eraseCode
  rw [get?_rekeyed]
  cases s.codes.get? kind index with
  | none => rfl
  | some previous => exact congrArg (Prod.mk _) (s.rekeyed_set f kind index none).symm

end Store

/-! ## §3. Commands that look at no secret. -/

/-- The commands that look at secrets of code slots or at what is staged, or that throw
them away. -/
def CommandId.keyed : CommandId → Bool
  | sendOtpData | writeToSlot | getCode | factoryReset => true
  | _ => false

namespace Token

/-- The token with the secrets of its code slots and its staged data changed. -/
def rekeyed (f : Secret → Secret) (g : Staged → Staged) (t : Token) : Token :=
  t.mapStored (Store.rekeyed f) g

/-- Two commands were answered alike, and the tokens after them differ in secrets only. -/
def Rekeys (f : Secret → Secret) (g : Staged → Staged) (r r' : Answer × Token) : Prop :=
  r' = (r.1, r.2.rekeyed f g)

variable (t : Token) (f : Secret → Secret) (g : Staged → Staged)

theorem tellSlot_rekeyed (number : UInt8) {payload : CodeSlot → Except LibraryError Payload}
    (hpayload : ∀ slot, payload (slot.rekeyed f) = payload slot) :
    Rekeys f g (t.tellSlot number payload) ((t.rekeyed f g).tellSlot number payload) := by
  refine withSlot_both rfl fun kind index => ?_
  have hstore : (t.rekeyed f g).store = t.store.rekeyed f := rfl
  rw [hstore, Store.code_rekeyed]
  cases t.store.code kind index with
  | error status => rfl
  | ok slot =>
    show Rekeys f g (t.tell (payload slot)) ((t.rekeyed f g).tell (payload (slot.rekeyed f)))
    rw [hpayload]
    rfl

theorem eraseSlot_rekeyed (number : UInt8) (temp : Secret) :
    Rekeys f g (t.execute (.eraseSlot number temp))
      ((t.rekeyed f g).execute (.eraseSlot number temp)) := by
  refine withTemp_both rfl rfl (withSlot_both rfl fun kind index => ?_)
  have hstore : (t.rekeyed f g).store = t.store.rekeyed f := rfl
  rw [hstore, Store.eraseCode_rekeyed]
  obtain ⟨status | _, store⟩ := t.store.eraseCode kind index
  · rfl
  · rfl

theorem tellSafe_rekeyed (index : UInt8) (label : String) (width : Nat)
    (field : SafeEntry → Bytes) :
    Rekeys f g (t.tellSafe index label width field)
      ((t.rekeyed f g).tellSafe index label width field) := by
  refine withSafe_both rfl rfl ?_
  have hentry : (t.rekeyed f g).store.safeEntry index = t.store.safeEntry index := rfl
  rw [hentry]
  cases t.store.safeEntry index with
  | error status => rfl
  | ok entry => rfl

theorem changeSafe_rekeyed (index : UInt8) (next : Option SafeEntry → Option SafeEntry) :
    Rekeys f g (t.withSafe (t.commit (t.store.updateSafe index next)))
      ((t.rekeyed f g).withSafe
        ((t.rekeyed f g).commit ((t.rekeyed f g).store.updateSafe index next))) := by
  have hupdate : (t.rekeyed f g).store.updateSafe index next
      = ((t.store.updateSafe index next).1, (t.store.updateSafe index next).2.rekeyed f) := by
    have hentry : (t.rekeyed f g).store.safeEntry index = t.store.safeEntry index := rfl
    unfold Store.updateSafe
    rw [hentry]
    cases t.store.safeEntry index with
    | error status => rfl
    | ok entry => rfl
  rw [hupdate]
  exact withSafe_both rfl rfl (commit_mapStored t _)

theorem renewKey_rekeyed : (t.rekeyed f g).renewKey = t.renewKey.rekeyed f g := by
  show { t with
    store := if t.config.newKeyKeepsSafe then t.store.rekeyed f
      else (t.store.rekeyed f).clearSafe
    session := t.session.invalidate .admin, safeEnabled := false, keyValid := true
    staged := g t.staged } = { t with
    store := (if t.config.newKeyKeepsSafe then t.store else t.store.clearSafe).rekeyed f
    session := t.session.invalidate .admin, safeEnabled := false, keyValid := true
    staged := g t.staged }
  split
  · rfl
  · rfl

/-- **A command that looks at no secret answers the same whatever the secrets are**, and
does the same. -/
theorem execute_rekeyed {c : Command} (h : c.id.keyed = false) :
    Rekeys f g (t.execute c) ((t.rekeyed f g).execute c) := by
  cases c with
  | readSlotName number => exact t.tellSlot_rekeyed f g number fun _ => rfl
  | readSlot number => exact t.tellSlot_rekeyed f g number fun _ => rfl
  | writeConfig config temp => exact withTemp_both rfl rfl rfl
  | eraseSlot number temp => exact t.eraseSlot_rekeyed f g number temp
  | newAesKey pin =>
    show Rekeys f g (t.withPin .admin pin fun t => done t.renewKey)
      ((t.rekeyed f g).withPin .admin pin fun t => done t.renewKey)
    exact withPin_mapStored t (fun t => done t.renewKey) fun t =>
      congrArg done (t.renewKey_rekeyed f g)
  | safeStatus => exact withSafe_both rfl rfl rfl
  | safeName index => exact t.tellSafe_rekeyed f g index _ _ _
  | safePassword index => exact t.tellSafe_rekeyed f g index _ _ _
  | safeLogin index => exact t.tellSafe_rekeyed f g index _ _ _
  | setSafePrimary index name password => exact t.changeSafe_rekeyed f g index _
  | setSafeLogin index login => exact t.changeSafe_rekeyed f g index _
  | eraseSafe index => exact t.changeSafe_rekeyed f g index _
  | _ => first | exact execute_mapStored rfl t rfl | cases h

end Token

end OtpToken
