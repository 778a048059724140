/-
  OtpToken.Bytes.Endian
  ─────────────────────
  **NUMBERS AS BYTES.**

  Integers travel with the least significant byte first; the hash reads its
  words with the most significant byte first.  `decode_encode` and
  `encode_decode` say that `width` bytes and the numbers below `256 ^ width`
  are the same thing.
-/
import OtpToken.Bytes.Basic

namespace OtpToken

/-! ## §1. Least significant byte first. -/

namespace LittleEndian

/-- The `width` low bytes of `n`. -/
def encode : Nat → Nat → Bytes
  | 0, _ => []
  | width + 1, n => UInt8.ofNat n :: encode width (n / 256)

/-- The number that the bytes stand for. -/
def decode : Bytes → Nat
  | [] => 0
  | b :: bs => b.toNat + 256 * decode bs

@[simp] theorem length_encode (width n : Nat) : (encode width n).length = width := by
  induction width generalizing n with
  | zero => rfl
  | succ width ih => simp [encode, ih]

theorem decode_encode (width n : Nat) :
    decode (encode width n) = n % Nat.pow 256 width := by
  induction width generalizing n with
  | zero => simp [encode, decode, Nat.mod_one]
  | succ width ih =>
    have hpow : Nat.pow 256 (width + 1) = 256 * Nat.pow 256 width := Nat.mul_comm _ _
    rw [encode, decode, ih, hpow, Nat.mod_mul]
    simp

/-- A number that fits is read back. -/
theorem decode_encode_of_lt (width : Nat) {n : Nat} (h : n < Nat.pow 256 width) :
    decode (encode width n) = n := by
  rw [decode_encode, Nat.mod_eq_of_lt h]

theorem encode_decode (bs : Bytes) : encode bs.length (decode bs) = bs := by
  induction bs with
  | nil => rfl
  | cons b bs ih =>
    have hb : b.toNat < 256 := b.toNat_lt
    have hd : (b.toNat + 256 * decode bs) / 256 = decode bs := by omega
    have hm : UInt8.ofNat (b.toNat + 256 * decode bs) = b := by
      apply UInt8.toNat_inj.mp
      rw [UInt8.toNat_ofNat']
      omega
    rw [List.length_cons, encode, decode, hd, hm, ih]

theorem decode_lt (bs : Bytes) : decode bs < Nat.pow 256 bs.length := by
  induction bs with
  | nil => simp [decode]
  | cons b bs ih =>
    have hb : b.toNat < 256 := b.toNat_lt
    have hpow : Nat.pow 256 (bs.length + 1) = Nat.pow 256 bs.length * 256 := rfl
    rw [decode, List.length_cons, hpow]
    omega

end LittleEndian

/-! ## §2. Most significant byte first. -/

namespace BigEndian

/-- The `width` low bytes of `n`. -/
def encode (width n : Nat) : Bytes := (LittleEndian.encode width n).reverse

/-- The number that the bytes stand for. -/
def decode (bs : Bytes) : Nat := LittleEndian.decode bs.reverse

@[simp] theorem length_encode (width n : Nat) : (encode width n).length = width := by
  simp [encode]

theorem decode_encode (width n : Nat) :
    decode (encode width n) = n % Nat.pow 256 width := by
  rw [encode, decode, List.reverse_reverse, LittleEndian.decode_encode]

end BigEndian

end OtpToken
