/-
  OtpToken.Slot.Address
  ─────────────────────
  **WHERE A SLOT IS.**

  A token has 3 HOTP slots, 15 TOTP slots and 16 Password Safe slots.
  Callers count from zero; on the wire a code slot is one byte, family in
  the high half and index in the low half.  `ofSlotNumber?` inverts
  `slotNumber?` and refuses every other byte.
-/
import OtpToken.Text.Decimal

namespace OtpToken

/-! ## §1. Families. -/

/-- The two families of code slots: by counter and by time. -/
inductive CodeKind where
  | hotp
  | totp
  deriving DecidableEq

namespace CodeKind

/-- How many slots the family has. -/
def capacity : CodeKind → Nat
  | hotp => 3
  | totp => 15

/-- The family as error texts name it. -/
def label : CodeKind → String
  | hotp => "HOTP"
  | totp => "TOTP"

/-- The slot number of index zero. -/
def base : CodeKind → UInt8
  | hotp => 0x10
  | totp => 0x20

end CodeKind

/-- How many Password Safe slots there are. -/
def safeCapacity : Nat := 16

/-- Everything that an index can count. -/
inductive SlotFamily where
  | code (kind : CodeKind)
  | safe
  deriving DecidableEq

namespace SlotFamily

/-- The family as error texts name it. -/
def label : SlotFamily → String
  | code kind => kind.label
  | safe => "password safe"

/-- How many slots the family has. -/
def capacity : SlotFamily → Nat
  | code kind => kind.capacity
  | safe => safeCapacity

/-- Whether the family has a slot of this index. -/
def holds (family : SlotFamily) (index : UInt8) : Bool := index.toNat < family.capacity

end SlotFamily

/-! ## §2. Slot numbers. -/

namespace CodeKind

/-- The wire number of the slot at an index. -/
def slotNumber? (kind : CodeKind) (index : UInt8) : Option UInt8 :=
  if (SlotFamily.code kind).holds index then some (kind.base + index) else none

/-- The family and index of a wire number. -/
def ofSlotNumber? (number : UInt8) : Option (CodeKind × UInt8) :=
  if (SlotFamily.code hotp).holds (number - hotp.base) then some (hotp, number - hotp.base)
  else if (SlotFamily.code totp).holds (number - totp.base) then some (totp, number - totp.base)
  else none

theorem holds_code_iff {kind : CodeKind} {index : UInt8} :
    (SlotFamily.code kind).holds index = true ↔ index.toNat < kind.capacity :=
  decide_eq_true_iff

/-- The two families do not share a number. -/
theorem not_holds_hotp {index : UInt8} (h : (SlotFamily.code totp).holds index = true) :
    (SlotFamily.code hotp).holds (totp.base + index - hotp.base) = false := by
  rw [Bool.eq_false_iff, Ne, holds_code_iff]
  rw [holds_code_iff] at h
  simp only [base, capacity, UInt8.toNat_sub, UInt8.toNat_add, UInt8.reduceToNat] at h ⊢
  omega

theorem ofSlotNumber?_of_slotNumber? {kind : CodeKind} {index number : UInt8}
    (h : slotNumber? kind index = some number) :
    ofSlotNumber? number = some (kind, index) := by
  unfold slotNumber? at h
  split at h
  · next hi =>
    cases h
    cases kind with
    | hotp =>
      rw [ofSlotNumber?, UInt8.add_comm hotp.base, UInt8.add_sub_cancel, if_pos hi]
    | totp =>
      rw [ofSlotNumber?, not_holds_hotp hi, if_neg (by decide), UInt8.add_comm totp.base,
        UInt8.add_sub_cancel, if_pos hi]
  · simp at h

theorem slotNumber?_of_ofSlotNumber? {kind : CodeKind} {index number : UInt8}
    (h : ofSlotNumber? number = some (kind, index)) :
    slotNumber? kind index = some number := by
  unfold ofSlotNumber? at h
  split at h
  · next hi =>
    cases h
    rw [slotNumber?, if_pos hi, UInt8.add_comm, UInt8.sub_add_cancel]
  · split at h
    · next hi =>
      cases h
      rw [slotNumber?, if_pos hi, UInt8.add_comm, UInt8.sub_add_cancel]
    · simp at h

end CodeKind

end OtpToken
