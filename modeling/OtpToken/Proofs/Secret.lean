/-
  OtpToken.Proofs.Secret
  ──────────────────────
  **SECRETS ARE COMPARED EXACTLY.**

  A comparison that does not stop at the first difference gathers the bits of all
  of them.  What it has gathered at the end is zero exactly if no position that both
  byte strings have is different (`Bytes.differences_eq_zero_iff`); that says nothing
  about what the longer one has behind, so the lengths are looked at as well.

  Every PIN and every temporary password is checked in this way, and the check means
  equality: of a PIN while there are attempts left (`Credential.accepts_iff`), of a
  temporary password unless nothing was presented (`TempPassword.admits_iff`).
-/
import OtpToken.Session

namespace OtpToken

/-- **The gathered differences are zero exactly if no position differs**, as far as both
byte strings reach. -/
theorem Bytes.differences_eq_zero_iff {a b : Bytes} :
    differences a b = 0
      ↔ ∀ (i : Nat) (x y : UInt8), a[i]? = some x → b[i]? = some y → x = y := by
  rw [differences, foldl_or_eq_zero_iff]
  constructor
  · rintro ⟨-, hzero⟩ i x y hx hy
    have hposition : (List.zipWith (· ^^^ ·) a b)[i]? = some (x ^^^ y) :=
      List.getElem?_zipWith_eq_some.mpr ⟨x, y, hx, hy, rfl⟩
    exact UInt8.xor_eq_zero_iff.mp (hzero _ (List.mem_of_getElem? hposition))
  · intro hsame
    refine ⟨rfl, fun d hd => ?_⟩
    obtain ⟨i, hposition⟩ := List.getElem?_of_mem hd
    obtain ⟨x, y, hx, hy, rfl⟩ := List.getElem?_zipWith_eq_some.mp hposition
    exact UInt8.xor_eq_zero_iff.mpr (hsame i x y hx hy)

/-- A PIN is taken if there is an attempt left and it is the PIN of the role. -/
theorem Credential.accepts_iff {k : Credential} {pin : Bytes} :
    k.accepts pin = true ↔ 0 < k.retries.remaining ∧ k.pin.bytes = pin := by
  rw [accepts, Bool.and_eq_true, Secret.agrees_iff, Bool.not_eq_true', RetryCounter.isLocked,
    decide_eq_false_iff_not, Nat.pos_iff_ne_zero]

/-- A temporary password is taken if it is the one that was handed out and not empty. -/
theorem TempPassword.admits_iff {t : TempPassword} {presented : Bytes} :
    t.admits presented = true ↔ presented ≠ [] ∧ t.secret.bytes = presented := by
  rw [admits, Bool.and_eq_true, Secret.agrees_iff, Bool.not_eq_true', List.isEmpty_eq_false_iff]

/-- **Comparing by gathered differences decides equality.**

For byte strings of any lengths, what is gathered is zero exactly if they are the same as far
as both reach, and the comparison holds exactly if they are equal.  So it does for every
secret, for a PIN while there are attempts left, and for a temporary password as long as what
is presented is not empty. -/
theorem Secret.compared_exactly (a b : Bytes) (s : Secret) (k : Credential) (t : TempPassword)
    (presented : Bytes) :
    (Bytes.differences a b = 0
        ↔ ∀ (i : Nat) (x y : UInt8), a[i]? = some x → b[i]? = some y → x = y)
      ∧ (Bytes.agree a b = true ↔ a = b)
      ∧ (s.agrees presented = true ↔ s.bytes = presented)
      ∧ (k.accepts presented = true ↔ 0 < k.retries.remaining ∧ k.pin.bytes = presented)
      ∧ (t.admits presented = true ↔ presented ≠ [] ∧ t.secret.bytes = presented) := by
  refine ⟨Bytes.differences_eq_zero_iff, Bytes.agree_iff, Secret.agrees_iff, ?_, ?_⟩
  · exact Credential.accepts_iff
  · exact TempPassword.admits_iff

/-- Nothing differs as far as both reach, and still they are not equal. -/
example : Bytes.differences [1, 2] [1, 2, 3] = 0 ∧ Bytes.agree [1, 2] [1, 2, 3] = false := by
  decide

end OtpToken
