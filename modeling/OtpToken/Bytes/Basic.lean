/-
  OtpToken.Bytes.Basic
  ────────────────────
  **BYTE STRINGS, PADDING AND TERMINATION.**

  Text and credential fields have a fixed width on the wire.  A value is
  written from the left and filled with zero bytes (`padTo`), and read back
  up to the first zero byte (`untilNul`).  The two undo each other exactly
  on values that hold no zero byte.
-/

namespace OtpToken

/-- A string of bytes. -/
abbrev Bytes := List UInt8

namespace Bytes

/-! ## §1. Padding. -/

/-- `bs` followed by as many zero bytes as `width` asks for; a longer `bs`
is left as it is. -/
def padTo (width : Nat) (bs : Bytes) : Bytes :=
  bs ++ List.replicate (width - bs.length) 0

theorem length_padTo {width : Nat} {bs : Bytes} (h : bs.length ≤ width) :
    (padTo width bs).length = width := by
  simp only [padTo, List.length_append, List.length_replicate]
  omega

/-! ## §2. Termination. -/

/-- The bytes before the first zero byte. -/
def untilNul (bs : Bytes) : Bytes :=
  bs.takeWhile (· != 0)

theorem untilNul_of_not_mem {bs : Bytes} (h : 0 ∉ bs) : untilNul bs = bs := by
  induction bs with
  | nil => rfl
  | cons b bs ih =>
    simp only [List.mem_cons, not_or] at h
    have hb : (b != 0) = true := by simp [Ne.symm h.1]
    simp only [untilNul, List.takeWhile_cons, hb, if_true]
    exact congrArg (b :: ·) (ih h.2)

theorem untilNul_append_zeros (bs : Bytes) (n : Nat) :
    untilNul (bs ++ List.replicate n 0) = untilNul bs := by
  induction bs with
  | nil => cases n <;> simp [untilNul, List.replicate_succ]
  | cons b bs ih =>
    unfold untilNul at ih ⊢
    by_cases hb : (b != 0) = true
    · rw [List.cons_append, List.takeWhile_cons, List.takeWhile_cons, if_pos hb, if_pos hb, ih]
    · simp [hb]

/-- Padding adds nothing before the terminator. -/
theorem untilNul_padTo (width : Nat) (bs : Bytes) :
    untilNul (padTo width bs) = untilNul bs :=
  untilNul_append_zeros bs _

end Bytes

end OtpToken
