/-
  OtpToken.Proofs.Digits
  ──────────────────────
  **COUNTERS IN ASCII DIGITS.**

  A counter that is written in digits has a field of eight bytes.  What is read of it is
  what stands in front of the first zero byte, or all of it:

      digits                         the number that they stand for, at most 99999999
      nothing                        zero
      a plus sign, then digits       the number that they stand for
      anything else                  no counter

  The plus sign is never written.  In every case the field has been read when it is over.
-/
import OtpToken.Proofs.Field

namespace OtpToken

/-- All of these bytes are ASCII digits. -/
def Decimal.AreDigits (bs : Bytes) : Prop := ∀ b ∈ bs, 0x30 ≤ b.toNat ∧ b.toNat ≤ 0x39

instance Decimal.decidableAreDigits (bs : Bytes) : Decidable (AreDigits bs) :=
  inferInstanceAs (Decidable (∀ b ∈ bs, _))

namespace Decoder

open Bytes Decimal

/-! ## §1. What stands in front of the first zero byte. -/

variable {n : UInt64}

/-- Up to eight digits stand for a number that a counter can hold. -/
theorem toNat_of_numeral {digits : Bytes} {k : Nat} (hlength : digits.length ≤ 8)
    (h : Numeral digits k) : (UInt64.ofNat k).toNat = k := by
  have hlt : k < Nat.pow 10 digits.length := h.lt
  have hpow : Nat.pow 10 digits.length ≤ 100000000 := Nat.pow_le_pow_right (by decide) hlength
  rw [UInt64.toNat_ofNat']
  omega

theorem map_ofAscii?_eq_some_iff {digits : Bytes} (hlength : digits.length ≤ 8) :
    (ofAscii? digits).map UInt64.ofNat = some n ↔ digits ≠ [] ∧ Numeral digits n.toNat := by
  rw [← ofAscii?_eq_some_iff, Option.map_eq_some_iff]
  constructor
  · rintro ⟨k, hk, rfl⟩
    rw [toNat_of_numeral hlength (ofAscii?_eq_some_iff.mp hk).2]
    exact hk
  · exact fun h => ⟨n.toNat, h, UInt64.ofNat_toNat⟩

/-- A plus sign is no digit. -/
theorem not_numeral_plus {digits : Bytes} {k : Nat} : ¬ Numeral (0x2B :: digits) k := by
  intro h
  have hplus := h.isDigit 0x2B List.mem_cons_self
  exact absurd hplus (by decide)

/-- **What is read as a counter**: the digits in front of the first zero byte, with or without
a plus sign. -/
theorem asciiCounter?_eq_some_iff {field : Bytes} (hlength : field.length ≤ 8) :
    asciiCounter? field = some n ↔ Numeral (untilNul field) n.toNat
      ∨ ∃ digits, digits ≠ [] ∧ untilNul field = 0x2B :: digits ∧ Numeral digits n.toNat := by
  have hfront : (untilNul field).length ≤ 8 :=
    Nat.le_trans (Bytes.length_untilNul_le _) hlength
  unfold asciiCounter?
  generalize untilNul field = front at hfront
  split
  · constructor
    · intro h
      cases h
      exact .inl .nil
    · rintro (h | ⟨digits, -, hplus, -⟩)
      · have hzero : n = 0 := UInt64.toNat_inj.mp (Nat.lt_one_iff.mp h.lt)
        rw [hzero]
      · cases hplus
  · next digits =>
    rw [map_ofAscii?_eq_some_iff (Nat.le_of_succ_le hfront)]
    constructor
    · rintro ⟨hne, h⟩
      exact .inr ⟨digits, hne, rfl, h⟩
    · rintro (h | ⟨_, hne, ⟨⟩, h⟩)
      · exact absurd h not_numeral_plus
      · exact ⟨hne, h⟩
  · next hne hnoplus =>
    rw [map_ofAscii?_eq_some_iff hfront]
    constructor
    · exact fun h => .inl h.2
    · rintro (h | ⟨digits, -, rfl, -⟩)
      · exact ⟨hne, h⟩
      · exact absurd rfl (hnoplus digits)

/-- There is a counter in digits, with or without a plus sign. -/
theorem exists_asciiCounter?_iff {field : Bytes} (hlength : field.length ≤ 8) :
    (∃ n, asciiCounter? field = some n) ↔ AreDigits (untilNul field)
      ∨ ∃ digits, digits ≠ [] ∧ untilNul field = 0x2B :: digits ∧ AreDigits digits := by
  have hfront : (untilNul field).length ≤ 8 :=
    Nat.le_trans (Bytes.length_untilNul_le _) hlength
  -- a counter holds the number of up to eight digits
  have hnumber : ∀ digits : Bytes, digits.length ≤ 8 → AreDigits digits →
      ∃ n : UInt64, Numeral digits n.toNat := by
    intro digits hle hdigits
    obtain ⟨k, hk⟩ := exists_numeral_iff.mpr hdigits
    refine ⟨UInt64.ofNat k, ?_⟩
    rwa [toNat_of_numeral hle hk]
  simp only [asciiCounter?_eq_some_iff hlength]
  constructor
  · rintro ⟨n, h | ⟨digits, hne, hplus, h⟩⟩
    · exact .inl h.isDigit
    · exact .inr ⟨digits, hne, hplus, h.isDigit⟩
  · rintro (h | ⟨digits, hne, hplus, h⟩)
    · obtain ⟨n, hn⟩ := hnumber _ hfront h
      exact ⟨n, .inl hn⟩
    · rw [hplus] at hfront
      obtain ⟨n, hn⟩ := hnumber digits (Nat.le_of_succ_le hfront) h
      exact ⟨n, .inr ⟨digits, hne, hplus, hn⟩⟩

/-! ## §2. Fields. -/

/-- Eight bytes are read, whether they are a counter or not. -/
theorem counter_ascii_eq (field : Block 8) (offset : Nat) (rest : Bytes) :
    counter .ascii ⟨offset, field.bytes ++ rest⟩
      = (match asciiCounter? field.bytes with
          | some n => .ok n
          | none => .error .asciiCounter, ⟨offset + 8, rest⟩) := by
  have htake := take_reads field.length_bytes offset rest
  rw [field.length_bytes] at htake
  refine (bind_of_ok htake _).trans ?_
  cases asciiCounter? field.bytes with
  | some n => rfl
  | none => rfl

/-- A field holds every counter that can be written. -/
theorem exists_counter_iff (encoding : CounterEncoding) (n : UInt64) :
    (∃ written, layOut 8 [.counter encoding n] = .ok written) ↔ n ≤ encoding.maximum := by
  have hroom : Field.totalWidth [.counter encoding n] ≤ 8 := by
    cases encoding <;> exact Nat.le_refl 8
  rw [exists_layOut_iff hroom, List.forall_mem_singleton, Field.fits_counter_iff]

/-- A counter is read from the field that it was written to. -/
theorem counter_written {encoding : CounterEncoding} {n : UInt64} {written : Block 8}
    (h : layOut 8 [.counter encoding n] = .ok written) (offset : Nat) (rest : Bytes) :
    (counter encoding ⟨offset, written.bytes ++ rest⟩).1 = .ok n := by
  obtain ⟨hfits, zeros, hbytes⟩ := fits_of_layOut h
  have hread := counter_reads (hfits _ List.mem_cons_self)
  rw [hbytes, List.flatMap_singleton, List.append_assoc, hread]

/-- **Counters in digits are read by what stands in front of the first zero byte.**

A field of eight bytes holds a counter exactly if that is all digits, or a plus sign and
then at least one digit.  The counter is the number that the digits stand for, zero if
there are none, and at most 99999999.  No other field holds one.  A counter that can be
written, in whichever way, is read back from the field it was written to. -/
theorem counter_by_digits (field : Block 8) (offset : Nat) (rest : Bytes) (n : UInt64)
    (e : DecodeError) (encoding : CounterEncoding) :
    ((∃ n, (counter .ascii ⟨offset, field.bytes ++ rest⟩).1 = .ok n) ↔
        AreDigits (untilNul field.bytes)
          ∨ ∃ digits, digits ≠ [] ∧ untilNul field.bytes = 0x2B :: digits ∧ AreDigits digits)
      ∧ ((counter .ascii ⟨offset, field.bytes ++ rest⟩).1 = .ok n ↔
          Numeral (untilNul field.bytes) n.toNat
            ∨ ∃ digits, digits ≠ [] ∧ untilNul field.bytes = 0x2B :: digits
                ∧ Numeral digits n.toNat)
      ∧ ((counter .ascii ⟨offset, field.bytes ++ rest⟩).1 = .ok n → n ≤ 99999999)
      ∧ ((counter .ascii ⟨offset, field.bytes ++ rest⟩).1 = .error e ↔
          e = .asciiCounter ∧ ¬ AreDigits (untilNul field.bytes)
            ∧ ¬ ∃ digits, digits ≠ [] ∧ untilNul field.bytes = 0x2B :: digits
                ∧ AreDigits digits)
      ∧ (counter .ascii ⟨offset, field.bytes ++ rest⟩).2 = ⟨offset + 8, rest⟩
      ∧ ((∃ written, layOut 8 [.counter encoding n] = .ok written) ↔ n ≤ encoding.maximum)
      ∧ ∀ written : Block 8, layOut 8 [.counter encoding n] = .ok written →
          (counter encoding ⟨offset, written.bytes ++ rest⟩).1 = .ok n := by
  have hlength : field.bytes.length ≤ 8 := Nat.le_of_eq field.length_bytes
  have hok (n : UInt64) : (counter .ascii ⟨offset, field.bytes ++ rest⟩).1 = .ok n ↔
      asciiCounter? field.bytes = some n := by
    rw [counter_ascii_eq]
    cases asciiCounter? field.bytes <;> simp
  have herror : (counter .ascii ⟨offset, field.bytes ++ rest⟩).1 = .error e ↔
      e = .asciiCounter ∧ ¬ ∃ n, asciiCounter? field.bytes = some n := by
    rw [counter_ascii_eq]
    cases asciiCounter? field.bytes <;> simp [eq_comm]
  refine ⟨?_, ?_, ?_, ?_, by rw [counter_ascii_eq], exists_counter_iff encoding n,
    fun written h => counter_written h offset rest⟩
  · simp only [hok, exists_asciiCounter?_iff hlength]
  · rw [hok, asciiCounter?_eq_some_iff hlength]
  · exact fun h => asciiCounter?_le field.length_bytes ((hok n).mp h)
  · rw [herror, exists_asciiCounter?_iff hlength, not_or]

/-- **A plus sign is no decimal digit**, and a field with one in front is read all the same. -/
theorem not_only_digits : ¬ ∀ (field : Block 8) (offset : Nat) (rest : Bytes),
    (∃ n, (counter .ascii ⟨offset, field.bytes ++ rest⟩).1 = .ok n) ↔
      AreDigits (untilNul field.bytes) := by
  intro h
  have hplus := (h ⟨[0x2B, 0x31, 0, 0, 0, 0, 0, 0], rfl⟩ 0 []).mp ⟨1, rfl⟩
  exact absurd hplus (by decide)

end Decoder

end OtpToken
