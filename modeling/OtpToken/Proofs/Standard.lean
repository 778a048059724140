/-
  OtpToken.Proofs.Standard
  ────────────────────────
  **CODES AS THE STANDARDS HAVE THEM.**

  RFC 4226 makes a number of a tag byte by byte: the last byte names an offset, and the
  four bytes from there on are the number, without its top bit.  `dynamicTruncation?` does
  just that and looks every byte up.  A tag has twenty bytes, so none is missing, and the
  number is what `truncate` cuts out of it (`dynamicTruncation?_eq`).

  The number is reduced to the digits that are asked for, and the remainder is shown with
  zeros before it (`Decimal.Shows`).  RFC 6238 counts whole periods instead of events.

  `codes_by_standard` has all of it, with the faults: no period, and after that no secret.
-/
import OtpToken.Proofs.Code
import OtpToken.Proofs.Text

namespace OtpToken

/-! ## §1. Truncation. -/

/-- The number that a tag stands for (RFC 4226, section 5.3), if every byte that it takes
is there. -/
def dynamicTruncation? (tag : Bytes) : Option Nat := do
  let last ← tag[tag.length - 1]?
  let offset := (last &&& 0x0F).toNat
  let top ← tag[offset]?
  let second ← tag[offset + 1]?
  let third ← tag[offset + 2]?
  let bottom ← tag[offset + 3]?
  return (((top &&& 0x7F).toNat * 256 + second.toNat) * 256 + third.toNat) * 256 + bottom.toNat

/-- The low bits of a byte are a remainder. -/
theorem toNat_and_mask (b mask : UInt8) (n : Nat) (h : mask.toNat = Nat.pow 2 n - 1) :
    (b &&& mask).toNat = b.toNat % Nat.pow 2 n := by
  rw [UInt8.toNat_and, h]
  exact Nat.and_two_pow_sub_one_eq_mod b.toNat n

/-- Four bytes from an offset on, one by one. -/
theorem take_four_drop {bs : Bytes} {offset : Nat} (h : offset + 3 < bs.length) :
    (bs.drop offset).take 4 = [bs[offset], bs[offset + 1], bs[offset + 2], bs[offset + 3]] := by
  rw [List.drop_eq_getElem_cons (by omega), List.drop_eq_getElem_cons (by omega),
    List.drop_eq_getElem_cons (by omega), List.drop_eq_getElem_cons h]
  rfl

/-- Four bytes as a number without its top bit. -/
theorem decode_four_mod (a b c d : UInt8) :
    BigEndian.decode [a, b, c, d] % 0x80000000
      = ((a.toNat % 128 * 256 + b.toNat) * 256 + c.toNat) * 256 + d.toNat := by
  have hb : b.toNat < 256 := b.toNat_lt
  have hc : c.toNat < 256 := c.toNat_lt
  have hd : d.toNat < 256 := d.toNat_lt
  show (d.toNat + 256 * (c.toNat + 256 * (b.toNat + 256 * (a.toNat + 256 * 0)))) % 0x80000000 = _
  omega

/-- **No byte that a tag of twenty bytes names is missing**, and they are the number that is
cut out of it. -/
theorem dynamicTruncation?_eq {tag : Bytes} (h : tag.length = 20) :
    dynamicTruncation? tag = some (truncate tag) := by
  have hlast : tag[tag.length - 1]? = some (tag.getLastD 0) := by
    rw [← List.getLast?_eq_getElem?, List.getLastD_eq_getLast?]
    cases tag with
    | nil => cases h
    | cons b bs => rfl
  have hlow : (tag.getLastD 0 &&& 0x0F).toNat = (tag.getLastD 0).toNat % 16 :=
    toNat_and_mask _ 0x0F 4 rfl
  have htop (b : UInt8) : (b &&& 0x7F).toNat = b.toNat % 128 := toNat_and_mask b 0x7F 7 rfl
  -- the offset is at most fifteen
  have hinside : (tag.getLastD 0).toNat % 16 + 3 < tag.length := by omega
  unfold dynamicTruncation? truncate
  rw [hlast]
  dsimp only [Option.bind_eq_bind, Option.bind_some]
  rw [hlow, take_four_drop hinside, decode_four_mod, List.getElem?_eq_getElem (by omega),
    List.getElem?_eq_getElem (by omega), List.getElem?_eq_getElem (by omega),
    List.getElem?_eq_getElem hinside]
  dsimp only [Option.bind_some]
  rw [htop]
  rfl

/-! ## §2. Digits. -/

namespace Decimal

/-- A text that shows a number in decimal, with zeros before it up to a width. -/
structure Shows (shown : String) (width n : Nat) : Prop where
  /-- It has nothing but digits. -/
  digits : ∀ c ∈ shown.toList, c.isDigit = true
  /-- They are read as the number. -/
  read : ofAscii? (Utf8.encode shown) = some n
  /-- They are as many as the width asks for, and more only if the number takes more. -/
  length : shown.length = max width (text n).length

theorem length_text (n : Nat) : (text n).length = (Nat.toDigits 10 n).length :=
  String.length_ofList

/-- **A padded numeral shows its number**, and no digit of it is cut. -/
theorem shows_padded (width n : Nat) : Shows (padded width n) width n := by
  have hdigits : ∀ c ∈ (padded width n).toList, c.isDigit = true := by
    intro c hc
    rw [padded, String.toList_ofList, List.mem_append] at hc
    rcases hc with hzero | hdigit
    · rw [List.eq_of_mem_replicate hzero]
      rfl
    · exact isDigit_of_mem_digits hdigit
  refine ⟨hdigits, ?_, ?_⟩
  · have hne : (padded width n).toList ≠ [] := by
      rw [padded, String.toList_ofList]
      exact List.append_ne_nil_of_right_ne_nil _ (digits_ne_nil n)
    have hread := ofAscii?_encode_digits hne hdigits
    rwa [String.ofList_toList, value_padded] at hread
  · rw [padded, length_text, String.length_ofList, List.length_append, List.length_replicate]
    show _ - (digits n).length + _ = max width (digits n).length
    omega

/-- A number below a power of ten takes no more digits than the power. -/
theorem Shows.length_eq {shown : String} {width n : Nat} (h : Shows shown width n)
    (hwidth : 0 < width) (hn : n < Nat.pow 10 width) : shown.length = width := by
  have htext : (text n).length ≤ width := by
    rw [length_text]
    exact (Nat.length_toDigits_le_iff (by decide) hwidth).mpr hn
  rw [h.length, Nat.max_eq_left htext]

end Decimal

/-! ## §3. Counter codes. -/

theorem Digits.count_pos (digits : Digits) : 0 < digits.count := by
  cases digits <;> decide

/-- Codes are numbers of 32 bits. -/
theorem Digits.bound_lt (digits : Digits) : digits.bound < UInt32.size := by
  cases digits <;> decide

section Codes

variable {secret : Bytes} {digits : Digits}

/-- **A secret that is not empty has a code at every counter**: what truncation makes of
its tag, reduced to the digits. -/
theorem exists_truncated (h : secret ≠ []) (counter : UInt64) (digits : Digits) :
    ∃ n code, dynamicTruncation? (Hmac.tag secret (BigEndian.encode 8 counter.toNat)) = some n
      ∧ codeValue secret counter digits = .ok code ∧ code.toNat = n % digits.bound := by
  have hpos : 0 < digits.bound := Nat.pow_pos (by decide)
  refine ⟨_, _, dynamicTruncation?_eq (Hmac.length_tag _ _),
    codeValue_of_ne_nil h counter digits, ?_⟩
  exact UInt32.toNat_ofNat_of_lt' (Nat.lt_trans (Nat.mod_lt _ hpos) digits.bound_lt)

theorem counterCode_of_codeValue {counter : UInt64} {code : UInt32}
    (h : codeValue secret counter digits = .ok code) :
    counterCode secret counter digits = .ok (formatCode code digits) := by
  unfold counterCode
  rw [h]
  rfl

/-- What fails for want of a secret, and only then. -/
theorem error_iff_of_empty {α : Type} {outcome : Except CodeError α} {why : CodeError}
    (hempty : secret = [] → outcome = .error .emptySecret)
    (hsome : secret ≠ [] → ∃ a, outcome = .ok a) :
    outcome = .error why ↔ secret = [] ∧ why = .emptySecret := by
  constructor
  · intro herror
    by_cases h : secret = []
    · rw [hempty h] at herror
      cases herror
      exact ⟨h, rfl⟩
    · obtain ⟨a, hok⟩ := hsome h
      rw [hok] at herror
      cases herror
  · intro h
    rw [hempty h.1, h.2]

theorem codeValue_error_iff (secret : Bytes) (counter : UInt64) (digits : Digits)
    (why : CodeError) :
    codeValue secret counter digits = .error why ↔ secret = [] ∧ why = .emptySecret := by
  apply error_iff_of_empty
  · intro h
    rw [h]
    rfl
  · intro h
    exact ⟨_, codeValue_of_ne_nil h counter digits⟩

theorem counterCode_error_iff (secret : Bytes) (counter : UInt64) (digits : Digits)
    (why : CodeError) :
    counterCode secret counter digits = .error why ↔ secret = [] ∧ why = .emptySecret := by
  apply error_iff_of_empty
  · intro h
    rw [h]
    rfl
  · intro h
    exact ⟨_, counterCode_of_codeValue (codeValue_of_ne_nil h counter digits)⟩

end Codes

/-! ## §4. Time codes. -/

/-- **Time is divided into whole periods**, however late it is. -/
theorem exists_step {period : UInt32} (h : period ≠ 0) (secret : Bytes) (time : UInt64)
    (digits : Digits) :
    ∃ step : UInt64, step.toNat = time.toNat / period.toNat
      ∧ timeCode secret time digits period = counterCode secret step digits := by
  refine ⟨time / period.toUInt64, ?_, ?_⟩
  · rw [UInt64.toNat_div, UInt32.toNat_toUInt64]
  · unfold timeCode timeStep
    rw [if_neg h]
    rfl

/-- The period is looked at before the secret. -/
theorem timeCode_error_iff (secret : Bytes) (time : UInt64) (digits : Digits) (period : UInt32)
    (why : CodeError) :
    timeCode secret time digits period = .error why ↔
      period = 0 ∧ why = .zeroPeriod ∨ period ≠ 0 ∧ secret = [] ∧ why = .emptySecret := by
  by_cases h : period = 0
  · rw [h]
    show Except.error CodeError.zeroPeriod = .error why ↔ _
    simp [eq_comm]
  · obtain ⟨step, -, hcode⟩ := exists_step h secret time digits
    rw [hcode, counterCode_error_iff]
    simp [h]

/-! ## §5. All of it. -/

/-- **Codes are those of RFC 4226 and RFC 6238**, for a secret of any length.

A secret that is not empty has a code at every counter: the dynamic truncation of its tag
over the eight bytes of the counter, for which no byte is missing, modulo a power of ten.
It is shown with exactly as many digits as were asked for, and any other number with no
fewer.  A time code is the counter code at the number of whole periods.  Nothing fails
except for a period of zero, and after that for an empty secret. -/
theorem codes_by_standard (secret : Bytes) (digits : Digits) :
    (secret ≠ [] → ∀ counter, ∃ n code shown,
      dynamicTruncation? (Hmac.tag secret (BigEndian.encode 8 counter.toNat)) = some n
      ∧ codeValue secret counter digits = .ok code
      ∧ code.toNat = n % Nat.pow 10 digits.count ∧ code.toNat < Nat.pow 10 digits.count
      ∧ counterCode secret counter digits = .ok shown
      ∧ Decimal.Shows shown digits.count code.toNat ∧ shown.length = digits.count)
    ∧ (∀ code, Decimal.Shows (formatCode code digits) digits.count code.toNat)
    ∧ (∀ counter, deriveCode secret (.counter counter) digits = counterCode secret counter digits)
    ∧ (∀ time period,
        deriveCode secret (.time time period) digits = timeCode secret time digits period)
    ∧ (∀ time period, period ≠ 0 → ∃ step : UInt64, step.toNat = time.toNat / period.toNat
        ∧ timeCode secret time digits period = counterCode secret step digits)
    ∧ (∀ counter why,
        codeValue secret counter digits = .error why ↔ secret = [] ∧ why = .emptySecret)
    ∧ (∀ counter why,
        counterCode secret counter digits = .error why ↔ secret = [] ∧ why = .emptySecret)
    ∧ ∀ time period why, timeCode secret time digits period = .error why ↔
        period = 0 ∧ why = .zeroPeriod ∨ period ≠ 0 ∧ secret = [] ∧ why = .emptySecret := by
  refine ⟨fun hne counter => ?_, fun code => Decimal.shows_padded _ _, fun _ => rfl,
    fun _ _ => rfl, fun time period h => exists_step h secret time digits,
    fun counter => codeValue_error_iff secret counter digits,
    fun counter => counterCode_error_iff secret counter digits,
    fun time => timeCode_error_iff secret time digits⟩
  obtain ⟨n, code, htruncated, hcode, hvalue⟩ := exists_truncated hne counter digits
  have hlt : code.toNat < Nat.pow 10 digits.count := by
    rw [hvalue]
    exact Nat.mod_lt n (Nat.pow_pos (by decide))
  have hshows : Decimal.Shows (formatCode code digits) digits.count code.toNat :=
    Decimal.shows_padded _ _
  exact ⟨n, code, formatCode code digits, htruncated, hcode, hvalue, hlt,
    counterCode_of_codeValue hcode, hshows, hshows.length_eq digits.count_pos hlt⟩

example : (counterCode (Utf8.encode "12345678901234567890") 0 .six).toOption = some "755224" := by
  decide +kernel

end OtpToken
