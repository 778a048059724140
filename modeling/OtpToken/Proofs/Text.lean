/-
  OtpToken.Proofs.Text
  ────────────────────
  **TEXT AND NUMERALS IN ZERO-FILLED FIELDS.**

  A text field is read up to its first zero byte.  `decodeLossy_untilNul`
  says what that does to a text: it is cut at its first NUL character and
  nothing else happens to it.  `ofAscii?_encode_text` reads a numeral back
  from its ASCII digits.  `Decimal.Numeral` says which number any ASCII digits
  stand for; nothing else is read (`ofAscii?_eq_some_iff`).
-/
import OtpToken.Text.Decimal
import OtpToken.Text.Utf8

namespace OtpToken

/-! ## §1. Texts up to their first NUL. -/

theorem Bytes.length_untilNul_le (bs : Bytes) : (untilNul bs).length ≤ bs.length :=
  (List.takeWhile_sublist _).length_le

theorem Bytes.zero_not_mem_untilNul (bs : Bytes) : 0 ∉ untilNul bs := by
  intro h
  have hall : (bs.takeWhile (· != 0)).all (· != 0) = true := List.all_takeWhile
  exact absurd (List.all_eq_true.mp hall 0 h) (by decide)

/-- What is cut is not cut again. -/
theorem Bytes.untilNul_untilNul (bs : Bytes) : untilNul (untilNul bs) = untilNul bs :=
  untilNul_of_not_mem (zero_not_mem_untilNul bs)

namespace Utf8

/-- The part of a text before its first NUL character. -/
def untilNul (s : String) : String := String.ofList (s.toList.takeWhile (· ≠ '\x00'))

/-- Only the NUL character has a zero byte in its encoding. -/
theorem zero_mem_utf8EncodeChar_iff (c : Char) :
    0 ∈ String.utf8EncodeChar c ↔ c = '\x00' := by
  have hc : Char.ofNat c.val.toNat = c := Char.ofNat_toNat c
  have hv : c.val.toNat < 0xD800 ∨ 0xDFFF < c.val.toNat ∧ c.val.toNat < 0x110000 := c.valid
  -- a byte that is built from a number below 256 is zero only for the number zero
  have hz : ∀ n, n < 256 → ((0 : UInt8) = UInt8.ofNat n ↔ n = 0) := by
    intro n hn
    rw [← UInt8.toNat_inj, UInt8.toNat_ofNat', Nat.mod_eq_of_lt hn]
    exact eq_comm
  have h0 : c = '\x00' ↔ c.val.toNat = 0 := by
    constructor
    · intro h
      rw [h]
      rfl
    · intro h
      rw [← hc, h]
  rw [h0]
  unfold String.utf8EncodeChar
  generalize c.val.toNat = v at hv
  dsimp only
  split
  · rw [List.mem_singleton, hz v (by omega)]
  split
  · simp only [List.mem_cons, List.not_mem_nil, or_false]
    rw [hz _ (by omega), hz _ (by omega)]
    omega
  split
  · simp only [List.mem_cons, List.not_mem_nil, or_false]
    rw [hz _ (by omega), hz _ (by omega), hz _ (by omega)]
    omega
  · simp only [List.mem_cons, List.not_mem_nil, or_false]
    rw [hz _ (by omega), hz _ (by omega), hz _ (by omega), hz _ (by omega)]
    omega

theorem untilNul_flatMap (cs : List Char) :
    Bytes.untilNul (cs.flatMap String.utf8EncodeChar)
      = (cs.takeWhile (· ≠ '\x00')).flatMap String.utf8EncodeChar := by
  induction cs with
  | nil => rfl
  | cons c cs ih =>
    rw [List.flatMap_cons]
    by_cases hc : c = '\x00'
    · subst hc
      rfl
    · have hne : ∀ b ∈ String.utf8EncodeChar c, (b != 0) = true := by
        intro b hb
        rw [bne_iff_ne]
        intro hb0
        exact hc ((zero_mem_utf8EncodeChar_iff c).mp (hb0 ▸ hb))
      unfold Bytes.untilNul at ih ⊢
      rw [List.takeWhile_append_of_pos hne, ih, List.takeWhile_cons,
        if_pos (decide_eq_true hc), List.flatMap_cons]

/-- **The bytes of a text up to their first zero byte are the bytes of the
text up to its first NUL.** -/
theorem untilNul_encode (s : String) : Bytes.untilNul (encode s) = encode (untilNul s) := by
  rw [encode, untilNul_flatMap, encode, untilNul, String.toList_ofList]

/-- A text that was written and is read up to the first zero byte is cut at
its first NUL. -/
theorem decodeLossy_untilNul (s : String) :
    decodeLossy (Bytes.untilNul (encode s)) = untilNul s := by
  rw [untilNul_encode, decodeLossy_encode]

theorem untilNul_untilNul (s : String) : untilNul (untilNul s) = untilNul s := by
  rw [← decodeLossy_untilNul (untilNul s), ← untilNul_encode, Bytes.untilNul_untilNul,
    decodeLossy_untilNul]

/-- ASCII characters are written as one byte each. -/
theorem encode_ofList_ascii (cs : List Char) (h : ∀ c ∈ cs, c.toNat < 0x80) :
    encode (String.ofList cs) = cs.map fun c => UInt8.ofNat c.toNat := by
  rw [encode, String.toList_ofList]
  induction cs with
  | nil => rfl
  | cons c cs ih =>
    have hc : c.toNat < 0x80 := h c List.mem_cons_self
    have hone : String.utf8EncodeChar c = [UInt8.ofNat c.toNat] := by
      unfold String.utf8EncodeChar
      show (if c.toNat ≤ 0x7f then _ else _) = _
      rw [if_pos (by omega)]
      rfl
    rw [List.flatMap_cons, List.map_cons, hone,
      ih fun d hd => h d (List.mem_cons_of_mem c hd)]
    rfl

/-- A text whose bytes are all ASCII has nothing but ASCII characters. -/
theorem ascii_of_encode {s : String} (h : ∀ b ∈ encode s, b.toNat < 0x80) :
    ∀ c ∈ s.toList, c.toNat < 0x80 := by
  intro c hc
  have hbytes : ∀ b ∈ String.utf8EncodeChar c, b.toNat < 0x80 := fun b hb =>
    h b (List.mem_flatMap.mpr ⟨c, hc, hb⟩)
  have hv : c.val.toNat < 0x110000 := by
    rcases c.valid with hlow | ⟨-, hhigh⟩
    · exact Nat.lt_trans hlow (by decide)
    · exact hhigh
  rw [← Nat.not_le]
  intro hbig
  change 0x80 ≤ c.val.toNat at hbig
  unfold String.utf8EncodeChar at hbytes
  generalize c.val.toNat = v at hv hbig hbytes
  dsimp only at hbytes
  -- the first of several bytes has its top bit set
  rw [if_neg (by omega)] at hbytes
  split at hbytes
  · have hfirst := hbytes _ List.mem_cons_self
    rw [UInt8.toNat_ofNat'] at hfirst
    omega
  split at hbytes
  · have hfirst := hbytes _ List.mem_cons_self
    rw [UInt8.toNat_ofNat'] at hfirst
    omega
  · have hfirst := hbytes _ List.mem_cons_self
    rw [UInt8.toNat_ofNat'] at hfirst
    omega

end Utf8

/-! ## §2. Numerals in ASCII. -/

namespace Decimal

theorem toNat_of_isDigit {c : Char} (h : c.isDigit = true) :
    0x30 ≤ c.toNat ∧ c.toNat ≤ 0x39 := by
  simp only [Char.isDigit, Bool.and_eq_true, decide_eq_true_eq] at h
  exact ⟨UInt32.le_iff_toNat_le.mp h.1, UInt32.le_iff_toNat_le.mp h.2⟩

theorem isDigit_of_mem_digits {n : Nat} {c : Char} (h : c ∈ digits n) : c.isDigit = true :=
  Nat.isDigit_of_mem_toDigits (by decide) (by decide) h

/-- A numeral as ASCII bytes. -/
theorem encode_text (n : Nat) :
    Utf8.encode (text n) = (digits n).map fun c => UInt8.ofNat c.toNat := by
  apply Utf8.encode_ofList_ascii
  intro c hc
  have := toNat_of_isDigit (isDigit_of_mem_digits hc)
  omega

theorem length_encode_text_le_iff (n k : Nat) (hk : 0 < k) :
    (Utf8.encode (text n)).length ≤ k ↔ n < Nat.pow 10 k := by
  rw [encode_text, List.length_map]
  exact Nat.length_toDigits_le_iff (by decide) hk

/-- The bytes of a numeral are digits. -/
theorem toNat_of_mem_encode_text {n : Nat} {b : UInt8} (h : b ∈ Utf8.encode (text n)) :
    0x30 ≤ b.toNat ∧ b.toNat ≤ 0x39 := by
  rw [encode_text, List.mem_map] at h
  obtain ⟨c, hc, rfl⟩ := h
  have hd := toNat_of_isDigit (isDigit_of_mem_digits hc)
  rw [UInt8.toNat_ofNat']
  omega

theorem untilNul_encode_text (n : Nat) :
    Bytes.untilNul (Utf8.encode (text n)) = Utf8.encode (text n) := by
  apply Bytes.untilNul_of_not_mem
  intro h
  have := toNat_of_mem_encode_text h
  simp at this

/-- Reading ASCII digits goes on from what the digits before them gave. -/
theorem ofAscii?_go_map (cs : List Char) (acc : Nat) (h : ∀ c ∈ cs, c.isDigit = true) :
    ofAscii?.go acc (cs.map fun c => UInt8.ofNat c.toNat) = some (Nat.ofDigitChars 10 cs acc) := by
  induction cs generalizing acc with
  | nil => rw [Nat.ofDigitChars_nil]; rfl
  | cons c cs ih =>
    have hc := toNat_of_isDigit (h c List.mem_cons_self)
    have hn : (UInt8.ofNat c.toNat).toNat = c.toNat := by
      rw [UInt8.toNat_ofNat']
      omega
    have hd : digitOf? (UInt8.ofNat c.toNat) = some (c.toNat - 0x30) := by
      rw [digitOf?, hn, if_pos hc]
    rw [List.map_cons, ofAscii?.go, hd, Option.bind_some, Nat.ofDigitChars_cons,
      ih _ fun d hd => h d (List.mem_cons_of_mem c hd), Nat.mul_comm acc 10]
    rfl

theorem digits_ne_nil (n : Nat) : digits n ≠ [] := Nat.toDigits_ne_nil

/-- Digits are read as the number that they stand for. -/
theorem ofAscii?_encode_digits {cs : List Char} (hne : cs ≠ [])
    (h : ∀ c ∈ cs, c.isDigit = true) :
    ofAscii? (Utf8.encode (String.ofList cs)) = some (value cs) := by
  have hascii : ∀ c ∈ cs, c.toNat < 0x80 := by
    intro c hc
    have hdigit := toNat_of_isDigit (h c hc)
    omega
  rw [Utf8.encode_ofList_ascii cs hascii]
  cases cs with
  | nil => exact absurd rfl hne
  | cons c cs => exact ofAscii?_go_map (c :: cs) 0 h

/-- **A numeral is read back from its ASCII digits.** -/
theorem ofAscii?_encode_text (n : Nat) : ofAscii? (Utf8.encode (text n)) = some n := by
  rw [text, ofAscii?_encode_digits (digits_ne_nil n) fun c hc => isDigit_of_mem_digits hc,
    value_digits]

/-! ## §3. Numerals by their grammar. -/

/-- Digits and the number that they stand for, with any zeros in front. -/
inductive Numeral : Bytes → Nat → Prop where
  | nil : Numeral [] 0
  | digit {bs : Bytes} {n d : Nat} (hfront : Numeral bs n) (hd : d < 10) :
      Numeral (bs ++ [UInt8.ofNat (0x30 + d)]) (10 * n + d)

theorem digitOf?_eq_some_iff {b : UInt8} {d : Nat} :
    digitOf? b = some d ↔ d < 10 ∧ b = UInt8.ofNat (0x30 + d) := by
  unfold digitOf?
  constructor
  · intro h
    split at h
    · obtain rfl := Option.some.inj h
      refine ⟨by omega, ?_⟩
      rw [Nat.add_sub_cancel' (by omega), UInt8.ofNat_toNat]
    · cases h
  · rintro ⟨hd, rfl⟩
    have hb : (UInt8.ofNat (0x30 + d)).toNat = 0x30 + d := by
      rw [UInt8.toNat_ofNat']
      omega
    rw [hb, if_pos (by omega), Nat.add_sub_cancel_left]

theorem ofAscii?_go_append (acc : Nat) (bs cs : Bytes) :
    ofAscii?.go acc (bs ++ cs) = (ofAscii?.go acc bs).bind fun n => ofAscii?.go n cs := by
  induction bs generalizing acc with
  | nil => rfl
  | cons b bs ih =>
    rw [List.cons_append, ofAscii?.go, ofAscii?.go]
    cases digitOf? b with
    | none => rfl
    | some d => exact ih (acc * 10 + d)

/-- Digits are read as what they stand for. -/
theorem Numeral.ofAscii?_go {bs : Bytes} {n : Nat} (h : Numeral bs n) :
    ofAscii?.go 0 bs = some n := by
  induction h with
  | nil => rfl
  | @digit bs n d hfront hd ih =>
    rw [ofAscii?_go_append, ih, Option.bind_some, ofAscii?.go, digitOf?_eq_some_iff.mpr ⟨hd, rfl⟩,
      Nat.mul_comm 10 n]
    rfl

/-- What has been read is at any time a numeral for the number so far. -/
theorem Numeral.of_ofAscii?_go {done bs : Bytes} {acc n : Nat} (hdone : Numeral done acc)
    (h : ofAscii?.go acc bs = some n) : Numeral (done ++ bs) n := by
  induction bs generalizing done acc with
  | nil =>
    cases h
    rwa [List.append_nil]
  | cons b bs ih =>
    rw [ofAscii?.go] at h
    obtain ⟨d, hdigit, hrest⟩ := Option.bind_eq_some_iff.mp h
    obtain ⟨hd, rfl⟩ := digitOf?_eq_some_iff.mp hdigit
    rw [Nat.mul_comm acc 10] at hrest
    rw [List.append_cons]
    exact ih (hdone.digit hd) hrest

/-- **Just the numerals are read, as the numbers that they stand for.** -/
theorem ofAscii?_eq_some_iff {bs : Bytes} {n : Nat} :
    ofAscii? bs = some n ↔ bs ≠ [] ∧ Numeral bs n := by
  cases bs with
  | nil => exact iff_of_false nofun fun h => h.1 rfl
  | cons b bs =>
    constructor
    · exact fun h => ⟨List.cons_ne_nil b bs, Numeral.nil.of_ofAscii?_go h⟩
    · exact fun h => h.2.ofAscii?_go

theorem Numeral.isDigit {bs : Bytes} {n : Nat} (h : Numeral bs n) :
    ∀ b ∈ bs, 0x30 ≤ b.toNat ∧ b.toNat ≤ 0x39 := by
  induction h with
  | nil => simp
  | @digit bs n d hfront hd ih =>
    intro b hb
    rcases List.mem_append.mp hb with hb | hb
    · exact ih b hb
    · obtain rfl := List.mem_singleton.mp hb
      rw [UInt8.toNat_ofNat']
      omega

/-- Numerals are fewer than the powers of ten. -/
theorem Numeral.lt {bs : Bytes} {n : Nat} (h : Numeral bs n) : n < Nat.pow 10 bs.length := by
  induction h with
  | nil => decide
  | @digit bs n d hfront hd ih =>
    have hpow : Nat.pow 10 (bs ++ [UInt8.ofNat (0x30 + d)]).length = Nat.pow 10 bs.length * 10 := by
      rw [List.length_append]
      rfl
    omega

theorem Numeral.exists_append {done bs : Bytes} {acc : Nat} (hdone : Numeral done acc)
    (h : ∀ b ∈ bs, 0x30 ≤ b.toNat ∧ b.toNat ≤ 0x39) : ∃ n, Numeral (done ++ bs) n := by
  induction bs generalizing done acc with
  | nil => exact ⟨acc, by rwa [List.append_nil]⟩
  | cons b bs ih =>
    obtain ⟨hb, hbs⟩ := List.forall_mem_cons.mp h
    have hdigit : digitOf? b = some (b.toNat - 0x30) := if_pos hb
    obtain ⟨hd, hb⟩ := digitOf?_eq_some_iff.mp hdigit
    rw [List.append_cons, hb]
    exact ih (hdone.digit hd) hbs

/-- **Any digits are a numeral.** -/
theorem exists_numeral_iff {bs : Bytes} :
    (∃ n, Numeral bs n) ↔ ∀ b ∈ bs, 0x30 ≤ b.toNat ∧ b.toNat ≤ 0x39 :=
  ⟨fun ⟨_, h⟩ => h.isDigit, fun h => Numeral.nil.exists_append h⟩

end Decimal

end OtpToken
