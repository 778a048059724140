/-
  OtpToken.Store
  ──────────────
  **SLOTS AND THE CONFIG REGISTER OF A TOKEN.**

  A table has one place for each code slot.  The store of a token keeps code
  slots with their secrets, Password Safe entries, and the config register.
  Every operation names a slot by its index and refuses an index that no
  slot has.  An operation that changes the store hands it back with its
  verdict, also when it refuses.

  `get?_set_self`, `get?_set_of_ne`, `set_eq_self`: a change to a table is read
  back at its place and seen nowhere else, and putting back what is there is no
  change.
-/
import OtpToken.Record
import OtpToken.Session

namespace OtpToken

/-! ## §1. Tables over code slots. -/

/-- One place for each code slot. -/
structure CodeTable (α : Type) where
  hotp : Vector (Option α) 3
  totp : Vector (Option α) 15

namespace CodeTable

variable {α : Type}

/-- No place filled. -/
def empty : CodeTable α := ⟨.replicate 3 none, .replicate 15 none⟩

/-- The place at an index, `none` for an index that no slot has. -/
def get? (t : CodeTable α) (kind : CodeKind) (index : UInt8) : Option (Option α) :=
  match kind with
  | .hotp => t.hotp[index.toNat]?
  | .totp => t.totp[index.toNat]?

/-- What is at an index. -/
def at? (t : CodeTable α) (kind : CodeKind) (index : UInt8) : Option α :=
  (t.get? kind index).join

/-- The table with one place changed; nothing changes past the end. -/
def set (t : CodeTable α) (kind : CodeKind) (index : UInt8) (a : Option α) : CodeTable α :=
  match kind with
  | .hotp => { t with hotp := t.hotp.setIfInBounds index.toNat a }
  | .totp => { t with totp := t.totp.setIfInBounds index.toNat a }

/-- The places of a family in order. -/
def toList (t : CodeTable α) : CodeKind → List (Option α)
  | .hotp => t.hotp.toList
  | .totp => t.totp.toList

/-- A family has a place for each index that it holds, and no other. -/
theorem isSome_get?_iff {t : CodeTable α} {kind : CodeKind} {index : UInt8} :
    (t.get? kind index).isSome = true ↔ (SlotFamily.code kind).holds index = true := by
  rw [CodeKind.holds_code_iff]
  cases kind <;> simp [get?, CodeKind.capacity]

/-- A place holds what was put there last. -/
theorem get?_set_self {t : CodeTable α} {kind : CodeKind} {index : UInt8} {a : Option α}
    (h : (SlotFamily.code kind).holds index = true) :
    (t.set kind index a).get? kind index = some a := by
  rw [CodeKind.holds_code_iff] at h
  cases kind <;> simp_all [get?, set, CodeKind.capacity]

/-- Changing one place leaves every other place as it was. -/
theorem get?_set_of_ne {t : CodeTable α} {kind kind' : CodeKind} {index index' : UInt8}
    {a : Option α} (h : kind' = kind → index' ≠ index) :
    (t.set kind index a).get? kind' index' = t.get? kind' index' := by
  cases kind with
  | hotp =>
    cases kind' with
    | hotp =>
      have hne : index.toNat ≠ index'.toNat := fun e => h rfl (UInt8.toNat_inj.mp e.symm)
      simp [get?, set, Vector.getElem?_setIfInBounds_ne hne]
    | totp => rfl
  | totp =>
    cases kind' with
    | hotp => rfl
    | totp =>
      have hne : index.toNat ≠ index'.toNat := fun e => h rfl (UInt8.toNat_inj.mp e.symm)
      simp [get?, set, Vector.getElem?_setIfInBounds_ne hne]

theorem setIfInBounds_eq_self {n i : Nat} {v : Vector α n} {a : α} (h : v[i]? = some a) :
    v.setIfInBounds i a = v := by
  ext j hj : 1
  rw [Vector.getElem_setIfInBounds hj]
  split
  · next heq =>
    subst heq
    exact Option.some.inj (h.symm.trans (Vector.getElem?_eq_getElem hj))
  · rfl

/-- To put back what is there changes nothing. -/
theorem set_eq_self {t : CodeTable α} {kind : CodeKind} {index : UInt8} {a : Option α}
    (h : t.get? kind index = some a) : t.set kind index a = t := by
  cases kind with
  | hotp => exact congrArg (CodeTable.mk · t.totp) (setIfInBounds_eq_self h)
  | totp => exact congrArg (CodeTable.mk t.hotp) (setIfInBounds_eq_self h)

/-- Of two changes to one place the later one stays. -/
theorem set_set (t : CodeTable α) (kind : CodeKind) (index : UInt8) (a b : Option α) :
    (t.set kind index a).set kind index b = t.set kind index b := by
  cases kind with
  | hotp => simp [set]
  | totp => simp [set]

end CodeTable

/-! ## §2. Entries. -/

/-- A programmed code slot. -/
structure CodeSlot where
  details : SlotDetails
  secret : Secret
  deriving DecidableEq

/-- What a code slot is programmed with; without a secret it keeps the one
that it has. -/
structure CodeWrite where
  details : SlotDetails
  secret : Option Secret

/-- A programmed Password Safe slot. -/
structure SafeEntry where
  name : String
  login : String
  password : Secret
  deriving DecidableEq

/-- The slots of a token. -/
structure Store where
  codes : CodeTable CodeSlot
  safe : Vector (Option SafeEntry) safeCapacity
  config : Config

namespace Store

/-- No slot programmed, the register as it leaves the factory. -/
def empty : Store := ⟨.empty, .replicate _ none, .factory⟩

/-! ## §3. Code slots. -/

/-- A programmed code slot. -/
def code (s : Store) (kind : CodeKind) (index : UInt8) : Except Status CodeSlot :=
  match s.codes.get? kind index with
  | none => .error .wrongSlot
  | some none => .error .notProgrammed
  | some (some slot) => .ok slot

/-- Programs a code slot.  A name is needed, and a TOTP slot needs a
period. -/
def writeCode (s : Store) (kind : CodeKind) (index : UInt8) (write : CodeWrite) :
    Except Status Unit × Store :=
  if write.details.name.isEmpty then (.error .noName, s)
  else if kind = .totp ∧ write.details.counter = 0 then (.error .notSupported, s)
  else match s.codes.get? kind index with
    | none => (.error .wrongSlot, s)
    | some previous =>
        -- The slot is emptied before it is clear that there is a secret for it.
        let s := { s with codes := s.codes.set kind index none }
        -- A secret that is given goes before the one that was there.
        match write.secret <|> previous.map CodeSlot.secret with
        | none => (.error .notProgrammed, s)
        | some secret =>
            (.ok (), { s with codes := s.codes.set kind index (some ⟨write.details, secret⟩) })

/-- Empties a code slot, also an empty one. -/
def eraseCode (s : Store) (kind : CodeKind) (index : UInt8) : Except Status Unit × Store :=
  match s.codes.get? kind index with
  | none => (.error .wrongSlot, s)
  | some _ => (.ok (), { s with codes := s.codes.set kind index none })

/-- The code of an HOTP slot, and the store with its counter moved on by
one.  A slot whose counter rests at `maximum` is exhausted. -/
def nextHotp (s : Store) (index : UInt8) (maximum : UInt64) :
    Except Status CodeRecord × Store :=
  match s.code .hotp index with
  | .error status => (.error status, s)
  | .ok slot =>
      if maximum ≤ slot.details.counter then (.error .notSupported, s)
      else match codeValue slot.secret.bytes slot.details.counter slot.details.flags.digits with
        | .error _ => (.error .unknown, s)
        | .ok code =>
            let details := { slot.details with counter := slot.details.counter + 1 }
            (.ok ⟨code, details.flags⟩,
              { s with codes := s.codes.set .hotp index (some { slot with details }) })

/-- The code of a TOTP slot at a time.  Only periods below `2 ^ 32` give
codes. -/
def totp (s : Store) (index : UInt8) (time : UInt64) : Except Status CodeRecord :=
  match s.code .totp index with
  | .error status => .error status
  | .ok slot =>
      if UInt32.size ≤ slot.details.counter.toNat then .error .unknown
      else
        let code := (timeStep time slot.details.counter.toUInt32).bind fun step =>
          codeValue slot.secret.bytes step slot.details.flags.digits
        match code with
        | .error _ => .error .unknown
        | .ok code => .ok ⟨code, slot.details.flags⟩

/-! ## §4. Password Safe. -/

/-- What is in a Password Safe slot, if anything. -/
def safeEntry (s : Store) (index : UInt8) : Except Status (Option SafeEntry) :=
  match s.safe[index.toNat]? with
  | none => .error .wrongSlot
  | some entry => .ok entry

/-- The store with one Password Safe slot changed as `next` says. -/
def updateSafe (s : Store) (index : UInt8) (next : Option SafeEntry → Option SafeEntry) :
    Except Status Unit × Store :=
  match s.safeEntry index with
  | .error status => (.error status, s)
  | .ok entry => (.ok (), { s with safe := s.safe.setIfInBounds index.toNat (next entry) })

/-- Name and password of a slot; the login stays. -/
def writeSafePrimary (s : Store) (index : UInt8) (name : String) (password : Secret) :
    Except Status Unit × Store :=
  s.updateSafe index fun entry => some ⟨name, (entry.map SafeEntry.login).getD "", password⟩

/-- The login of a slot; name and password stay. -/
def writeSafeLogin (s : Store) (index : UInt8) (login : String) :
    Except Status Unit × Store :=
  s.updateSafe index fun entry =>
    match entry with
    | some entry => some { entry with login }
    | none => some ⟨"", login, ⟨[]⟩⟩

/-- Empties a Password Safe slot, also an empty one. -/
def eraseSafe (s : Store) (index : UInt8) : Except Status Unit × Store :=
  s.updateSafe index fun _ => none

/-- Which Password Safe slots are programmed. -/
def safeStatus (s : Store) : SafeStatus := ⟨s.safe.map Option.isSome⟩

/-- The store without any Password Safe entry. -/
def clearSafe (s : Store) : Store := { s with safe := .replicate _ none }

end Store

end OtpToken
