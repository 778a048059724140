/-
  OtpToken.Secret
  ───────────────
  **BYTES THAT ARE NOT SHOWN.**

  PINs, temporary passwords and code secrets are byte strings of any length.
  They are compared by `agrees`, which looks at every byte whatever the
  earlier ones gave, and printed only as a mask.

  `agree_iff`, `agrees_iff`: the comparison decides equality.
-/
import OtpToken.Bytes.Basic
import OtpToken.Text.Utf8

namespace OtpToken

/-! ## §1. Comparison by accumulated differences. -/

namespace Bytes

/-- Every bit in which two byte strings differ, position by position. -/
def differences (a b : Bytes) : UInt8 :=
  (List.zipWith (· ^^^ ·) a b).foldl (· ||| ·) 0

/-- Equal lengths and no difference. -/
def agree (a b : Bytes) : Bool :=
  a.length == b.length && differences a b == 0

/-- The accumulator ends at zero exactly when nothing but zeros went in. -/
theorem foldl_or_eq_zero_iff (ds : Bytes) (acc : UInt8) :
    ds.foldl (· ||| ·) acc = 0 ↔ acc = 0 ∧ ∀ d ∈ ds, d = 0 := by
  induction ds generalizing acc with
  | nil => simp
  | cons d ds ih =>
    rw [List.foldl_cons, ih, UInt8.or_eq_zero_iff, List.forall_mem_cons, and_assoc]

/-- Of two byte strings of one length, no position differs only if they are
the same. -/
theorem zipWith_xor_eq_zero_iff {a b : Bytes} (h : a.length = b.length) :
    (∀ d ∈ List.zipWith (· ^^^ ·) a b, d = 0) ↔ a = b := by
  induction a generalizing b with
  | nil =>
    cases b with
    | nil => simp
    | cons y b => simp at h
  | cons x a ih =>
    cases b with
    | nil => simp at h
    | cons y b =>
      rw [List.zipWith_cons_cons, List.forall_mem_cons, UInt8.xor_eq_zero_iff,
        ih (Nat.succ.inj h), List.cons.injEq]

theorem agree_iff {a b : Bytes} : agree a b = true ↔ a = b := by
  rw [agree, Bool.and_eq_true, beq_iff_eq, beq_iff_eq, differences, foldl_or_eq_zero_iff]
  constructor
  · intro h
    exact (zipWith_xor_eq_zero_iff h.1).mp h.2.2
  · intro h
    exact ⟨congrArg _ h, rfl, (zipWith_xor_eq_zero_iff (congrArg _ h)).mpr h⟩

end Bytes

/-! ## §2. Secrets. -/

/-- A byte string that is kept from view. -/
structure Secret where
  bytes : Bytes
  deriving DecidableEq

namespace Secret

/-- The UTF-8 bytes of a text as a secret. -/
def ofText (s : String) : Secret := ⟨Utf8.encode s⟩

/-- The number of its bytes. -/
def length (s : Secret) : Nat := s.bytes.length

/-- Whether there are no bytes. -/
def isEmpty (s : Secret) : Bool := s.bytes.isEmpty

/-- Whether the secret consists of just these bytes. -/
def agrees (s : Secret) (bs : Bytes) : Bool := Bytes.agree s.bytes bs

theorem agrees_iff {s : Secret} {bs : Bytes} : s.agrees bs = true ↔ s.bytes = bs :=
  Bytes.agree_iff

/-- All that is ever printed of a secret. -/
def mask : String := "SecretBuffer(***)"

instance : ToString Secret := ⟨fun _ => mask⟩

end Secret

end OtpToken
