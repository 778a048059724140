/-
  OtpToken.Proofs.Token.Place
  ───────────────────────────
  **ONE ADDRESS FOR EVERY SLOT OF A TOKEN.**

  A `Place` is a slot that exists, in any of the three families.  `Store.look`
  reads a place and `Store.put` changes it.  What was put is looked up again
  at its place and nowhere else, and changes of different places commute.

  `Command.place?` is the slot that a command is about.  The packed number of
  a code slot names at most one place, so HOTP 1 and TOTP 1 are never taken
  for each other.
-/
import OtpToken.Proofs.Token.Stored

namespace OtpToken

/-! ## §1. Places. -/

/-- What a slot of a family is programmed with. -/
def SlotFamily.Entry : SlotFamily → Type
  | code _ => CodeSlot
  | safe => SafeEntry

/-- A slot that exists. -/
structure Place where
  family : SlotFamily
  index : UInt8
  holds : family.holds index = true
  deriving DecidableEq

namespace Place

/-- The slot at an index of a family, if there is one. -/
def of? (family : SlotFamily) (index : UInt8) : Option Place :=
  if h : family.holds index = true then some ⟨family, index, h⟩ else none

variable {family : SlotFamily} {index : UInt8} {p : Place}

theorem of?_eq_some_iff : of? family index = some p ↔ p.family = family ∧ p.index = index := by
  obtain ⟨family', index', h'⟩ := p
  unfold of?
  constructor
  · intro h
    split at h
    · cases h
      exact ⟨rfl, rfl⟩
    · cases h
  · rintro ⟨rfl, rfl⟩
    rw [dif_pos h']

theorem of?_of_holds (h : family.holds index = true) :
    of? family index = some ⟨family, index, h⟩ := of?_eq_some_iff.mpr ⟨rfl, rfl⟩

/-- The slot of a wire number, if there is one. -/
def ofNumber? (number : UInt8) : Option Place :=
  (CodeKind.ofSlotNumber? number).bind fun slot => of? (.code slot.1) slot.2

end Place

/-- A wire number stands only for a slot that exists. -/
theorem CodeKind.holds_of_ofSlotNumber? {kind : CodeKind} {index number : UInt8}
    (h : ofSlotNumber? number = some (kind, index)) :
    (SlotFamily.code kind).holds index = true := by
  have hnumber := slotNumber?_of_ofSlotNumber? h
  unfold slotNumber? at hnumber
  split at hnumber
  · next hholds => exact hholds
  · cases hnumber

theorem Place.ofNumber?_eq {kind : CodeKind} {index number : UInt8}
    (h : CodeKind.ofSlotNumber? number = some (kind, index)) :
    ofNumber? number = some ⟨.code kind, index, CodeKind.holds_of_ofSlotNumber? h⟩ := by
  unfold ofNumber?
  rw [h]
  exact of?_of_holds _

/-! ## §2. Reading and changing a place. -/

/-- Changes of two positions commute. -/
theorem setIfInBounds_comm {α : Type} {n i j : Nat} (v : Vector α n) (a b : α) (h : i ≠ j) :
    (v.setIfInBounds i a).setIfInBounds j b = (v.setIfInBounds j b).setIfInBounds i a := by
  apply Vector.toArray_inj.mp
  simp only [Vector.toArray_setIfInBounds]
  exact Array.setIfInBounds_comm a b h

namespace CodeTable

variable {α : Type} {table : CodeTable α} {kind kind' : CodeKind} {index index' : UInt8}

/-- Changes of two places commute. -/
theorem set_comm {a b : Option α} (h : kind' = kind → index' ≠ index) :
    (table.set kind index a).set kind' index' b
      = (table.set kind' index' b).set kind index a := by
  have hne : kind' = kind → index.toNat ≠ index'.toNat := fun hkind e =>
    h hkind (UInt8.toNat_inj.mp e.symm)
  cases kind with
  | hotp =>
    cases kind' with
    | hotp =>
      exact congrArg (CodeTable.mk · table.totp) (setIfInBounds_comm table.hotp a b (hne rfl))
    | totp => rfl
  | totp =>
    cases kind' with
    | hotp => rfl
    | totp =>
      exact congrArg (CodeTable.mk table.hotp) (setIfInBounds_comm table.totp a b (hne rfl))

end CodeTable

namespace Store

/-- What is in a place. -/
def look (s : Store) : (p : Place) → Option p.family.Entry
  | ⟨.code kind, index, _⟩ => s.codes.at? kind index
  | ⟨.safe, index, _⟩ => s.safe? index

/-- The store with other contents in a place. -/
def put (s : Store) : (p : Place) → Option p.family.Entry → Store
  | ⟨.code kind, index, _⟩, contents => { s with codes := s.codes.set kind index contents }
  | ⟨.safe, index, _⟩, contents => s.putSafe index contents

variable {s : Store} {p q : Place}

/-- A place holds what was put there. -/
theorem look_put_self (s : Store) (p : Place) (x : Option p.family.Entry) :
    (s.put p x).look p = x := by
  obtain ⟨kind | _, index, h⟩ := p
  · exact CodeTable.at?_set_self h
  · have hlt : index.toNat < safeCapacity := of_decide_eq_true h
    exact s.safe?_putSafe_self (Vector.getElem?_eq_getElem hlt)

/-- Every other place holds what it held before. -/
theorem look_put_of_ne (s : Store) (x : Option p.family.Entry) (h : p ≠ q) :
    (s.put p x).look q = s.look q := by
  obtain ⟨kind | _, index, hp⟩ := p
  · obtain ⟨kind' | _, index', hq⟩ := q
    · refine CodeTable.at?_set_of_ne ?_
      rintro rfl rfl
      exact h rfl
    · rfl
  · obtain ⟨kind' | _, index', hq⟩ := q
    · rfl
    · refine s.safe?_putSafe_of_ne x ?_
      rintro rfl
      exact h rfl

/-- No other code slot is read where one was changed. -/
theorem get?_put_of_ne {kind : CodeKind} {index : UInt8} (s : Store) (x : Option p.family.Entry)
    (h : ∀ holds, p ≠ ⟨.code kind, index, holds⟩) :
    (s.put p x).codes.get? kind index = s.codes.get? kind index := by
  obtain ⟨kind' | _, index', hp⟩ := p
  · refine CodeTable.get?_set_of_ne ?_
    rintro rfl rfl
    exact h hp rfl
  · rfl

/-- Nor is another Password Safe slot. -/
theorem safe_put_of_ne {index : UInt8} (s : Store) (x : Option p.family.Entry)
    (h : ∀ holds, p ≠ ⟨.safe, index, holds⟩) :
    (s.put p x).safe[index.toNat]? = s.safe[index.toNat]? := by
  obtain ⟨kind | _, index', hp⟩ := p
  · rfl
  · refine Vector.getElem?_setIfInBounds_ne fun e => ?_
    cases UInt8.toNat_inj.mp e
    exact h hp rfl

/-- The config register is in no place. -/
theorem config_put (s : Store) (p : Place) (x : Option p.family.Entry) :
    (s.put p x).config = s.config := by
  obtain ⟨kind | _, index, h⟩ := p
  · rfl
  · rfl

/-- **Changes of two places commute.** -/
theorem put_comm (s : Store) (x : Option p.family.Entry) (y : Option q.family.Entry)
    (h : p ≠ q) : (s.put p x).put q y = (s.put q y).put p x := by
  obtain ⟨kind | _, index, hp⟩ := p
  · obtain ⟨kind' | _, index', hq⟩ := q
    · refine congrArg (Store.mk · s.safe s.config) (CodeTable.set_comm ?_)
      rintro rfl rfl
      exact h rfl
    · rfl
  · obtain ⟨kind' | _, index', hq⟩ := q
    · rfl
    · have hne : index.toNat ≠ index'.toNat := by
        intro e
        cases UInt8.toNat_inj.mp e
        exact h rfl
      exact congrArg (Store.mk s.codes · s.config) (setIfInBounds_comm s.safe x y hne)

/-- No place is outside the slots: what is put past the end is lost. -/
theorem putSafe_of_not_holds {index : UInt8} (h : SlotFamily.safe.holds index = false)
    (s : Store) (x : Option SafeEntry) : s.putSafe index x = s := by
  have hle : safeCapacity ≤ index.toNat := Nat.not_lt.mp (of_decide_eq_false h)
  exact congrArg (Store.mk s.codes · s.config) (Vector.setIfInBounds_eq_of_size_le hle)

end Store

/-! ## §3. The slot that a command is about. -/

/-- The slot that a command is about, if it exists. -/
def Command.place? : Command → Option Place
  | writeToSlot _ number .. | readSlotName number | readSlot number | getCode number ..
  | eraseSlot number _ => Place.ofNumber? number
  | safeName index | safePassword index | safeLogin index | setSafePrimary index ..
  | setSafeLogin index _ | eraseSafe index => Place.of? .safe index
  | _ => none

namespace Command

variable {c : Command} {p : Place}

theorem family_of_code (hid : c.id = .writeToSlot ∨ c.id = .eraseSlot ∨ c.id = .getCode)
    (hplace : c.place? = some p) : p.family ≠ .safe := by
  have key : ∀ number, Place.ofNumber? number = some p → p.family ≠ .safe := by
    intro number h
    obtain ⟨slot, -, hof⟩ := Option.bind_eq_some_iff.mp h
    rw [(Place.of?_eq_some_iff.mp hof).1]
    exact SlotFamily.noConfusion
  cases c with
  | writeToSlot temp number counter flags tokenId => exact key number hplace
  | eraseSlot number temp => exact key number hplace
  | getCode number challenge lastTime lastInterval temp => exact key number hplace
  | _ => rcases hid with hid | hid | hid <;> cases hid

end Command

end OtpToken
