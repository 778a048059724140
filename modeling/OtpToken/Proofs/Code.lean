/-
  OtpToken.Proofs.Code
  ────────────────────
  **CODES OF A SECRET THAT WAS FILLED UP WITH ZEROS.**

  A token keeps every secret in a buffer of its own width, filled up with zero
  bytes.  The key of a tag is filled up in the same way to the length of a
  block, so for a buffer that is no longer than a block the two secrets have
  the same tags (`tag_padTo`) and therefore the same codes
  (`codeValue_padTo`).  Only no secret at all must not be mistaken for zeros.
  A buffer that is longer than a block is hashed with its zeros
  (`codeValue_of_long`).
-/
import OtpToken.Capabilities

namespace OtpToken

/-! ## §1. Filling up twice. -/

theorem Bytes.padTo_of_le {width : Nat} {bs : Bytes} (h : width ≤ bs.length) :
    padTo width bs = bs := by
  rw [padTo, Nat.sub_eq_zero_of_le h]
  exact List.append_nil bs

/-- Filling up to a width and then to a greater one is filling up once. -/
theorem Bytes.padTo_padTo {narrow wide : Nat} (h : narrow ≤ wide) (bs : Bytes) :
    padTo wide (padTo narrow bs) = padTo wide bs := by
  by_cases hbs : narrow ≤ bs.length
  · rw [padTo_of_le hbs]
  · have hlen : (padTo narrow bs).length = narrow := length_padTo (by omega)
    have hzeros : narrow - bs.length + (wide - narrow) = wide - bs.length := by omega
    rw [padTo, hlen, padTo, List.append_assoc, List.replicate_append_replicate, hzeros]
    rfl

theorem Bytes.padTo_ne_nil {width : Nat} {bs : Bytes} (h : bs ≠ []) : padTo width bs ≠ [] := by
  intro h0
  exact h (List.append_eq_nil_iff.mp h0).1

/-! ## §2. Tags and codes. -/

namespace Hmac

variable {width : Nat} {key : Bytes}

/-- A key within one block is filled up, not hashed, so zeros behind it are
free. -/
theorem blockKey_padTo (hwidth : width ≤ blockLength) (hkey : key.length ≤ width) :
    blockKey (Bytes.padTo width key) = blockKey key := by
  have hlen : (Bytes.padTo width key).length = width := Bytes.length_padTo hkey
  unfold blockKey
  rw [hlen, if_neg (by omega), if_neg (by omega), Bytes.padTo_padTo hwidth]

theorem tag_padTo (hwidth : width ≤ blockLength) (hkey : key.length ≤ width) (message : Bytes) :
    tag (Bytes.padTo width key) message = tag key message := by
  unfold tag
  rw [blockKey_padTo hwidth hkey]

/-- A longer key is hashed first. -/
theorem tag_of_long (h : blockLength < key.length) (message : Bytes) :
    tag key message = tag (Sha1.hash key) message := by
  have hshort : ¬ blockLength < (Sha1.hash key).length := by
    rw [Sha1.length_hash]
    decide
  have hblock : blockKey key = blockKey (Sha1.hash key) := by
    unfold blockKey
    rw [if_pos h, if_neg hshort]
  unfold tag
  rw [hblock]

end Hmac

/-- A secret that is not empty has a code at every counter. -/
theorem codeValue_of_ne_nil {secret : Bytes} (h : secret ≠ []) (counter : UInt64)
    (digits : Digits) :
    codeValue secret counter digits
      = .ok (UInt32.ofNat
          (truncate (Hmac.tag secret (BigEndian.encode 8 counter.toNat)) % digits.bound)) := by
  unfold codeValue
  rw [List.isEmpty_eq_false_iff.mpr h]
  rfl

section Padded

variable {width : Nat} {secret : Bytes}

/-- **A secret and the same secret filled up have the same codes.** -/
theorem codeValue_padTo (hwidth : width ≤ Hmac.blockLength) (hlen : secret.length ≤ width)
    (hne : secret ≠ []) (counter : UInt64) (digits : Digits) :
    codeValue (Bytes.padTo width secret) counter digits = codeValue secret counter digits := by
  rw [codeValue_of_ne_nil (Bytes.padTo_ne_nil hne), codeValue_of_ne_nil hne,
    Hmac.tag_padTo hwidth hlen]

theorem counterCode_padTo (hwidth : width ≤ Hmac.blockLength) (hlen : secret.length ≤ width)
    (hne : secret ≠ []) (counter : UInt64) (digits : Digits) :
    counterCode (Bytes.padTo width secret) counter digits = counterCode secret counter digits := by
  unfold counterCode
  rw [codeValue_padTo hwidth hlen hne]

theorem timeCode_padTo (hwidth : width ≤ Hmac.blockLength) (hlen : secret.length ≤ width)
    (hne : secret ≠ []) (time : UInt64) (digits : Digits) (period : UInt32) :
    timeCode (Bytes.padTo width secret) time digits period
      = timeCode secret time digits period := by
  unfold timeCode
  simp only [counterCode_padTo hwidth hlen hne]

end Padded

/-- **A secret that is longer than a block has the codes of its hash.** -/
theorem codeValue_of_long {secret : Bytes} (h : Hmac.blockLength < secret.length)
    (counter : UInt64) (digits : Digits) :
    codeValue secret counter digits = codeValue (Sha1.hash secret) counter digits := by
  have hne : secret ≠ [] := List.ne_nil_of_length_pos (Nat.zero_lt_of_lt h)
  have hhash : Sha1.hash secret ≠ [] := by
    apply List.ne_nil_of_length_pos
    rw [Sha1.length_hash]
    decide
  rw [codeValue_of_ne_nil hne, codeValue_of_ne_nil hhash, Hmac.tag_of_long h]

/-- Every token has room for a secret within one block. -/
theorem Capabilities.secretLength_le (c : Capabilities) : c.secretLength ≤ Hmac.blockLength := by
  unfold secretLength
  split
  · decide
  · decide

/-! ## §3. Secrets that were typed. -/

/-- Hex that can be read and is not empty stands for at least one byte. -/
theorem Hex.ne_nil_of_decode {digits bytes : Bytes} (h : decode digits = .ok bytes)
    (hne : digits ≠ []) : bytes ≠ [] := by
  unfold decode at h
  by_cases hodd : digits.length % 2 = 1
  · rw [if_pos hodd] at h
    cases h
  · rw [if_neg hodd] at h
    split at h
    · cases h
    · cases h
      cases digits with
      | nil => exact absurd rfl hne
      | cons hi rest =>
        cases rest with
        | nil => exact absurd rfl hodd
        | cons lo rest => exact List.cons_ne_nil _ _

theorem Utf8.encode_ne_nil {s : String} (h : s ≠ "") : encode s ≠ [] := by
  intro h0
  have hs : decodeLossy (encode s) = s := decodeLossy_encode s
  rw [h0] at hs
  exact h hs.symm

/-- A typed secret is what its hex stands for, within the limit. -/
theorem Secret.of_ofHex {text : String} {maximum : Nat} {secret : Secret}
    (h : ofHex text maximum = .ok secret) :
    Hex.decode (Utf8.encode text) = .ok secret.bytes ∧ secret.bytes.length ≤ maximum := by
  unfold ofHex at h
  cases hdecode : Hex.decode (Utf8.encode text) with
  | error why =>
    rw [hdecode] at h
    cases h
  | ok bytes =>
    rw [hdecode] at h
    dsimp only at h
    by_cases hlong : maximum < bytes.length
    · rw [if_pos hlong] at h
      cases h
    · rw [if_neg hlong] at h
      cases h
      exact ⟨rfl, Nat.not_lt.mp hlong⟩

end OtpToken
