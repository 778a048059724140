/-
  OtpToken.Proofs.Command.Carry
  ─────────────────────────────
  **A COUNTER THAT IS READ IN ANOTHER WAY THAN IT WAS WRITTEN.**

  The counter field of a write has eight bytes, and nothing in it says whether
  they are a binary number or ASCII digits.  `CounterEncoding.carry? host token n`
  is what a token reads where a host has written `n`.

      host      token     what is read of n
      the same            n
      binary    ASCII     zero or less than n, if the bytes are digits at all
      ASCII     binary    more than n

  Digits are large as bytes: a number with `k` digits has less than `10 ^ k`, and
  `k` bytes that are digits stand for at least that much
  (`LittleEndian.ten_pow_le_decode`).  So a counter arrives as it is only if both
  sides write counters in the same way, or if it is zero and the host writes
  binary (`carry?_eq_iff`).

  Nothing else of a write depends on how counters are written
  (`Command.parse_write`).
-/
import OtpToken.Proofs.Command.Domain

namespace OtpToken

/-! ## §1. Digits as binary numbers. -/

namespace LittleEndian

theorem decode_append (bs cs : Bytes) :
    decode (bs ++ cs) = decode bs + Nat.pow 256 bs.length * decode cs := by
  induction bs with
  | nil => simp [decode]
  | cons b bs ih =>
    have hpow : Nat.pow 256 (b :: bs).length = 256 * Nat.pow 256 bs.length := Nat.mul_comm _ _
    rw [List.cons_append, decode, decode, ih, hpow, Nat.mul_assoc]
    omega

/-- What stands in front is no more than the whole. -/
theorem decode_le_append (bs cs : Bytes) : decode bs ≤ decode (bs ++ cs) := by
  rw [decode_append]
  exact Nat.le_add_right _ _

/-- **Bytes that are at least ten stand for at least the power of ten with as
many digits.** -/
theorem ten_pow_le_decode {bs : Bytes} (hne : bs ≠ []) (h : ∀ b ∈ bs, 10 ≤ b.toNat) :
    Nat.pow 10 bs.length ≤ decode bs := by
  induction bs with
  | nil => exact absurd rfl hne
  | cons b bs ih =>
    have hb : 10 ≤ b.toNat := h b List.mem_cons_self
    have hpow : Nat.pow 10 (b :: bs).length = Nat.pow 10 bs.length * 10 := rfl
    rw [hpow, decode]
    by_cases hnil : bs = []
    · subst hnil
      show 1 * 10 ≤ _
      omega
    · have hrest := ih hnil fun b hb => h b (List.mem_cons_of_mem _ hb)
      omega

end LittleEndian

/-- **A number in ASCII digits is zero or less than the same bytes in binary.** -/
theorem Decoder.asciiCounter?_lt_decode {field : Bytes} {n : UInt64}
    (h : asciiCounter? field = some n) : n = 0 ∨ n.toNat < LittleEndian.decode field := by
  -- what is read stands in front of the first zero byte
  have hfront : ∀ bs : Bytes, bs ≠ [] → (∀ b ∈ bs, 10 ≤ b.toNat) →
      Bytes.untilNul field = bs → Nat.pow 10 bs.length ≤ LittleEndian.decode field := by
    intro bs hne hbytes hbs
    have hsplit : field = bs ++ field.dropWhile (· != 0) := by
      rw [← hbs]
      exact List.takeWhile_append_dropWhile.symm
    rw [hsplit]
    exact Nat.le_trans (LittleEndian.ten_pow_le_decode hne hbytes)
      (LittleEndian.decode_le_append _ _)
  have hnumber : ∀ digits : Bytes, (Decimal.ofAscii? digits).map UInt64.ofNat = some n →
      n.toNat < Nat.pow 10 digits.length ∧ digits ≠ [] ∧ ∀ b ∈ digits, 10 ≤ b.toNat := by
    intro digits hn
    obtain ⟨k, hk, rfl⟩ := Option.map_eq_some_iff.mp hn
    obtain ⟨hne, hnumeral⟩ := Decimal.ofAscii?_eq_some_iff.mp hk
    refine ⟨Nat.lt_of_le_of_lt (Nat.mod_le _ _) hnumeral.lt, hne, fun b hb => ?_⟩
    exact Nat.le_trans (by decide) (hnumeral.isDigit b hb).1
  unfold asciiCounter? at h
  split at h
  · cases h
    exact .inl rfl
  · next digits hsign =>
    -- the sign in front is a byte more
    obtain ⟨hlt, -, hbytes⟩ := hnumber digits h
    have hten : ∀ b ∈ (0x2B : UInt8) :: digits, 10 ≤ b.toNat :=
      List.forall_mem_cons.mpr ⟨by decide, hbytes⟩
    have hle := hfront _ (List.cons_ne_nil _ _) hten hsign
    refine .inr (Nat.lt_of_lt_of_le hlt (Nat.le_trans ?_ hle))
    exact Nat.pow_le_pow_right (by decide) (Nat.le_succ _)
  · obtain ⟨hlt, hne, hbytes⟩ := hnumber _ h
    exact .inr (Nat.lt_of_lt_of_le hlt (hfront _ hne hbytes rfl))

/-! ## §2. What arrives of a counter. -/

/-- The counter that a token reads where a host has written `n`. -/
def CounterEncoding.carry? (host token : CounterEncoding) (n : UInt64) : Option UInt64 :=
  token.value? (Field.counter host n).padded

theorem Field.length_padded_counter {host : CounterEncoding} {n : UInt64}
    (h : n ≤ host.maximum) : (Field.counter host n).padded.length = 8 := by
  rw [Field.length_padded ((Field.fits_counter_iff host n).mpr h)]
  cases host <;> rfl

namespace CounterEncoding

variable {host token : CounterEncoding} {n m : UInt64}

/-- The bytes of a binary counter stand for it. -/
theorem decode_padded_binary (n : UInt64) :
    LittleEndian.decode (Field.counter .binary n).padded = n.toNat := by
  have hpadded : (Field.counter .binary n).padded = LittleEndian.encode 8 n.toNat :=
    Decoder.padded_of_length_eq (LittleEndian.length_encode 8 _)
  rw [hpadded]
  exact LittleEndian.decode_encode_of_lt 8 n.toNat_lt

/-- **Who reads a counter as it was written reads the counter.** -/
theorem carry?_self (h : n ≤ host.maximum) : carry? host host n = some n := by
  cases host with
  | binary =>
    show some (UInt64.ofNat (LittleEndian.decode (Field.counter .binary n).padded)) = _
    rw [decode_padded_binary, UInt64.ofNat_toNat]
  | ascii =>
    show Decoder.asciiCounter? (Bytes.padTo 8 (Utf8.encode (Decimal.text n.toNat))) = _
    rw [Decoder.asciiCounter?_padTo, UInt64.ofNat_toNat]

/-- A binary counter that is taken for digits loses. -/
theorem of_carry?_ascii (h : carry? .binary .ascii n = some m) : m = 0 ∨ m < n := by
  rcases Decoder.asciiCounter?_lt_decode h with hzero | hlt
  · exact .inl hzero
  · rw [decode_padded_binary] at hlt
    exact .inr (UInt64.lt_iff_toNat_lt.mpr hlt)

/-- A binary counter is what its eight bytes stand for. -/
theorem toNat_of_carry?_binary (hn : n ≤ host.maximum) (h : carry? host .binary n = some m) :
    m.toNat = LittleEndian.decode (Field.counter host n).padded := by
  have hlt := LittleEndian.decode_lt (Field.counter host n).padded
  rw [Field.length_padded_counter hn] at hlt
  have hm : UInt64.ofNat (LittleEndian.decode (Field.counter host n).padded) = m :=
    Option.some.inj h
  rw [← hm]
  exact Nat.mod_eq_of_lt hlt

/-- Digits that are taken for a binary counter gain. -/
theorem of_carry?_binary (hn : n ≤ CounterEncoding.ascii.maximum)
    (h : carry? .ascii .binary n = some m) : n < m := by
  have hvalue : Decoder.asciiCounter? (Field.counter .ascii n).padded = some n := carry?_self hn
  rw [UInt64.lt_iff_toNat_lt, toNat_of_carry?_binary hn h]
  rcases Decoder.asciiCounter?_lt_decode hvalue with rfl | hlt
  · decide
  · exact hlt

/-- **A counter arrives as it is exactly if it is read in the way in which it was
written**, or if it is zero and eight zero bytes are taken for no digits. -/
theorem carry?_eq_iff (hn : n ≤ host.maximum) :
    carry? host token n = some n ↔ host = token ∨ host = .binary ∧ n = 0 := by
  constructor
  · intro h
    cases host with
    | binary =>
      cases token with
      | binary => exact .inl rfl
      | ascii =>
        rcases of_carry?_ascii h with hzero | hlt
        · exact .inr ⟨rfl, hzero⟩
        · exact absurd hlt (UInt64.lt_irrefl n)
    | ascii =>
      cases token with
      | binary => exact absurd (of_carry?_binary hn h) (UInt64.lt_irrefl n)
      | ascii => exact .inl rfl
  · rintro (rfl | ⟨rfl, rfl⟩)
    · exact carry?_self hn
    · cases token <;> rfl

/-- **A host can read what comes back of a counter that it has written.** -/
theorem exists_carry?_back (hn : n ≤ host.maximum) (h : carry? host token n = some m) :
    ∃ k, carry? token host m = some k := by
  cases host with
  | binary => exact ⟨_, rfl⟩
  | ascii =>
    cases token with
    | ascii =>
      cases (carry?_self hn).symm.trans h
      exact ⟨n, carry?_self hn⟩
    | binary =>
      -- the token writes the same eight bytes again
      have hbytes : LittleEndian.encode 8 m.toNat = (Field.counter .ascii n).padded := by
        rw [toNat_of_carry?_binary hn h, ← Field.length_padded_counter hn,
          LittleEndian.encode_decode]
      have hback : (Field.counter .binary m).padded = (Field.counter .ascii n).padded := by
        rw [← hbytes]
        exact Decoder.padded_of_length_eq (LittleEndian.length_encode 8 _)
      refine ⟨n, ?_⟩
      unfold carry?
      rw [hback]
      exact carry?_self hn

/-- What is read is a counter that the token can write. -/
theorem carry?_le (hn : n ≤ host.maximum) (h : carry? host token n = some m) :
    m ≤ token.maximum :=
  value?_le (Field.length_padded_counter hn) h

end CounterEncoding

/-! ## §3. The request of a write. -/

namespace Decoder

variable {α β : Type}

/-- The decoder fails on what starts with these bytes. -/
def Fails (m : Decoder α) (bs : Bytes) : Prop :=
  ∀ offset rest, ∃ e c, m ⟨offset, bs ++ rest⟩ = (.error e, c)

theorem Fails.bind {m : Decoder α} {bs : Bytes} (h : m.Fails bs) (next : α → Decoder β)
    (cs : Bytes) : (m >>= next).Fails (bs ++ cs) := by
  intro offset rest
  obtain ⟨e, c, he⟩ := h offset (cs ++ rest)
  refine ⟨e, c, ?_⟩
  show Decoder.bind m next _ = _
  rw [Decoder.bind, List.append_assoc, he]

theorem Reads.bind_fails {m : Decoder α} {next : α → Decoder β} {bs cs : Bytes} {a : α}
    (hm : m.Reads bs a) (hn : (next a).Fails cs) : (m >>= next).Fails (bs ++ cs) := by
  intro offset rest
  obtain ⟨e, c, he⟩ := hn (offset + bs.length) rest
  refine ⟨e, c, ?_⟩
  rw [List.append_assoc, bind_of_ok (hm offset (cs ++ rest))]
  exact he

theorem Fails.decode {m : Decoder α} {bs : Bytes} (h : m.Fails bs) (rest : Bytes) :
    ∃ e, m.decode (bs ++ rest) = .error e := by
  obtain ⟨e, c, he⟩ := h 0 rest
  exact ⟨e, congrArg Prod.fst he⟩

/-- Eight bytes that are read as a counter. -/
theorem counter_reads_value {token : CounterEncoding} {field : Bytes} {n : UInt64}
    (hlen : field.length = 8) (h : token.value? field = some n) :
    (counter token).Reads field n := by
  rw [← List.append_nil field]
  cases token with
  | binary =>
    cases h
    exact Reads.bind (take_reads hlen) (.pure _)
  | ascii =>
    refine Reads.bind (take_reads hlen) ?_
    rw [show asciiCounter? field = some n from h]
    exact .pure n

/-- Eight bytes that are not. -/
theorem counter_fails {token : CounterEncoding} {field : Bytes} (hlen : field.length = 8)
    (h : token.value? field = none) : (counter token).Fails field := by
  cases token with
  | binary => cases h
  | ascii =>
    rw [← List.append_nil field]
    refine Reads.bind_fails (take_reads hlen) ?_
    rw [show asciiCounter? field = none from h]
    exact fun offset rest => ⟨_, _, rfl⟩

end Decoder

namespace Command

open Decoder

/-- **What a token reads in the request of a write**: the same write with the
counter that it makes of the field, or nothing if that is none. -/
theorem parse_write {temp : Secret} {number : UInt8} {counter : UInt64} {flags : SlotFlags}
    {tokenId : String} {host token : CounterEncoding} {q : Request}
    (hq : (writeToSlot temp number counter flags tokenId).toRequest host = .ok q) :
    parse q token = match host.carry? token counter with
      | some read => .ok (writeToSlot temp number read flags tokenId).norm
      | none => .error .unknown := by
  rw [toRequest] at hq
  cases hl : layOut 59 ((writeToSlot temp number counter flags tokenId).fields host) with
  | error e => rw [hl] at hq; cases hq
  | ok block =>
    rw [hl] at hq
    cases hq
    obtain ⟨hfits, zeros, hbytes⟩ := fits_of_layOut hl
    simp only [fields, List.forall_mem_cons] at hfits
    obtain ⟨htemp, -, hcounter, -, hid, -⟩ := hfits
    have hlen : (Field.counter host counter).padded.length = 8 :=
      Field.length_padded_counter ((Field.fits_counter_iff host counter).mp hcounter)
    unfold parse CounterEncoding.carry?
    dsimp only
    rw [CommandId.ofByte?_eq_some_iff.mpr rfl, hbytes]
    cases hvalue : token.value? (Field.counter host counter).padded with
    | some read =>
      -- the fields of a write, with another counter
      have hreads : (Command.read token .writeToSlot).Reads
          (((writeToSlot temp number counter flags tokenId).fields host).flatMap Field.padded)
          (writeToSlot temp number read flags tokenId).norm := by
        refine Reads.bind (secret_reads htemp) (Reads.bind (byte_reads _ _) ?_)
        refine Reads.bind (counter_reads_value hlen hvalue) (Reads.bind (byte_reads _ _) ?_)
        refine Reads.bind (text_reads hid) ?_
        rw [SlotFlags.ofByte_toByte]
        exact Reads.pure _
      dsimp only [id]
      rw [hreads.decode zeros]
    | none =>
      have hfails : (Command.read token .writeToSlot).Fails
          (((writeToSlot temp number counter flags tokenId).fields host).flatMap Field.padded) := by
        refine Reads.bind_fails (secret_reads htemp) (Reads.bind_fails (byte_reads _ _) ?_)
        exact Fails.bind (counter_fails hlen hvalue) _ _
      obtain ⟨e, he⟩ := hfails.decode zeros
      dsimp only [id]
      rw [he]

end Command

end OtpToken
