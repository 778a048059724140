/-
  OtpToken.Proofs.Hex
  ───────────────────
  **HEX SECRETS BY THEIR GRAMMAR.**

  A text spells a byte string if it has two digits for each byte, the more significant
  one first, each of them in lower or in upper case (`Hex.Spells`).  Just these texts are
  read, as the bytes that they spell (`Hex.decode_eq_ok_iff`), and they are the texts that
  in lower case are what is written for the bytes (`Hex.spells_encode_iff`).

  All other texts are refused for the first fault there is:

      an odd number of bytes             with that number
      a byte that is no digit            with the offset of the first one
      a secret that is too long          with its length and the limit

  `Secret.typed_by_grammar` has all of it, for every text and every limit.
-/
import OtpToken.Proofs.Code
import OtpToken.Proofs.Text

namespace OtpToken

namespace Hex

/-! ## §1. Digits. -/

/-- The byte is the digit with the value `d`, in lower or in upper case. -/
def IsDigit (b : UInt8) (d : Nat) : Prop :=
  d < 16 ∧ (b = UInt8.ofNat (Nat.digitChar d).toNat
    ∨ b = UInt8.ofNat (Nat.digitChar d).toUpper.toNat)

/-- **The digits that are read are those of either case.** -/
theorem digitOf?_eq_some_iff {b : UInt8} {d : Nat} : digitOf? b = some d ↔ IsDigit b d := by
  have hfigure : ∀ d < 10, (Nat.digitChar d).toNat = 0x30 + d := by decide
  have hlower : ∀ d < 16, 10 ≤ d → (Nat.digitChar d).toNat = 0x57 + d := by decide
  have hupper : ∀ d < 16, 10 ≤ d → (Nat.digitChar d).toUpper.toNat = 0x37 + d := by decide
  have hcode {n : Nat} (h : b.toNat = n) : b = UInt8.ofNat n := by rw [← h, UInt8.ofNat_toNat]
  constructor
  · intro h
    simp only [digitOf?] at h
    split at h
    · obtain rfl := Option.some.inj h
      refine ⟨by omega, .inl (hcode ?_)⟩
      rw [hfigure _ (by omega)]
      omega
    split at h
    · obtain rfl := Option.some.inj h
      refine ⟨by omega, .inl (hcode ?_)⟩
      rw [hlower _ (by omega) (by omega)]
      omega
    split at h
    · obtain rfl := Option.some.inj h
      refine ⟨by omega, .inr (hcode ?_)⟩
      rw [hupper _ (by omega) (by omega)]
      omega
    · cases h
  · have hread : ∀ d < 16, digitOf? (UInt8.ofNat (Nat.digitChar d).toNat) = some d
        ∧ digitOf? (UInt8.ofNat (Nat.digitChar d).toUpper.toNat) = some d := by decide
    rintro ⟨hd, rfl | rfl⟩
    · exact (hread d hd).1
    · exact (hread d hd).2

theorem isNone_digitOf?_eq_false_iff {b : UInt8} :
    (digitOf? b).isNone = false ↔ ∃ d, IsDigit b d := by
  rw [Option.isNone_eq_false_iff, Option.isSome_iff_exists]
  exact exists_congr fun d => digitOf?_eq_some_iff

theorem isNone_digitOf?_iff {b : UInt8} : (digitOf? b).isNone = true ↔ ∀ d, ¬ IsDigit b d := by
  rw [← not_exists, ← isNone_digitOf?_eq_false_iff, Bool.not_eq_false]

/-! ## §2. The grammar. -/

/-- Digits that spell bytes: two for each, the more significant one first. -/
inductive Spells : Bytes → Bytes → Prop where
  | nil : Spells [] []
  | pair {hi lo : UInt8} {high low : Nat} {digits bytes : Bytes} (hhigh : IsDigit hi high)
      (hlow : IsDigit lo low) (hrest : Spells digits bytes) :
      Spells (hi :: lo :: digits) (UInt8.ofNat (16 * high + low) :: bytes)

section Grammar

variable {digits bytes : Bytes}

theorem Spells.length_eq (h : Spells digits bytes) : digits.length = 2 * bytes.length := by
  induction h with
  | nil => rfl
  | pair hhigh hlow hrest ih =>
    simp only [List.length_cons, ih]
    omega

theorem Spells.isDigit (h : Spells digits bytes) : ∀ b ∈ digits, ∃ d, IsDigit b d := by
  induction h with
  | nil => simp
  | pair hhigh hlow hrest ih =>
    exact List.forall_mem_cons.mpr ⟨⟨_, hhigh⟩, List.forall_mem_cons.mpr ⟨⟨_, hlow⟩, ih⟩⟩

/-- Digits spell nothing but the bytes that their pairs stand for. -/
theorem Spells.pairs_eq (h : Spells digits bytes) : pairs digits = bytes := by
  induction h with
  | nil => rfl
  | pair hhigh hlow hrest ih =>
    rw [pairs, digitOf?_eq_some_iff.mpr hhigh, digitOf?_eq_some_iff.mpr hlow, ih]
    rfl

/-- Any even number of digits spells something. -/
theorem spells_pairs (heven : digits.length % 2 = 0) (hall : ∀ b ∈ digits, ∃ d, IsDigit b d) :
    Spells digits (pairs digits) := by
  fun_induction pairs digits with
  | case1 hi lo rest ih =>
    obtain ⟨⟨high, hhigh⟩, ⟨low, hlow⟩, hrest⟩ := by
      simpa only [List.forall_mem_cons] using hall
    rw [digitOf?_eq_some_iff.mpr hhigh, digitOf?_eq_some_iff.mpr hlow]
    refine .pair hhigh hlow (ih ?_ hrest)
    simp only [List.length_cons] at heven
    omega
  | case2 digits hshort =>
    match digits, hshort, heven with
    | [], _, _ => exact .nil
    | hi :: lo :: rest, hshort, _ => exact absurd rfl (hshort hi lo rest)

/-- **Just the texts that spell bytes are read, as these bytes.** -/
theorem decode_eq_ok_iff : decode digits = .ok bytes ↔ Spells digits bytes := by
  unfold decode
  constructor
  · intro h
    split at h
    · cases h
    · next heven =>
      split at h
      · cases h
      · next hnone =>
        cases h
        exact spells_pairs (by omega) fun b hb =>
          isNone_digitOf?_eq_false_iff.mp (List.findIdx?_eq_none_iff.mp hnone b hb)
  · intro h
    have hlength := h.length_eq
    have hnone : (digits.findIdx? fun b => (digitOf? b).isNone) = none :=
      List.findIdx?_eq_none_iff.mpr fun b hb => isNone_digitOf?_eq_false_iff.mpr (h.isDigit b hb)
    rw [if_neg (by omega), hnone]
    exact congrArg Except.ok h.pairs_eq

/-- The first byte that is no digit stands at this offset. -/
def FirstFault (digits : Bytes) (offset : Nat) : Prop :=
  (∃ b, digits[offset]? = some b ∧ ∀ d, ¬ IsDigit b d)
    ∧ ∀ b ∈ digits.take offset, ∃ d, IsDigit b d

theorem findIdx?_eq_some_iff {offset : Nat} :
    (digits.findIdx? fun b => (digitOf? b).isNone) = some offset ↔ FirstFault digits offset := by
  rw [List.findIdx?_eq_some_iff_getElem]
  unfold FirstFault
  constructor
  · rintro ⟨hlt, hno, hbefore⟩
    refine ⟨⟨_, List.getElem?_eq_getElem hlt, isNone_digitOf?_iff.mp hno⟩, fun b hb => ?_⟩
    obtain ⟨j, hj, rfl⟩ := List.mem_take_iff_getElem.mp hb
    have hdigit := hbefore j (by omega)
    rw [Bool.not_eq_true] at hdigit
    exact isNone_digitOf?_eq_false_iff.mp hdigit
  · rintro ⟨⟨b, hb, hno⟩, hbefore⟩
    obtain ⟨hlt, rfl⟩ := List.getElem?_eq_some_iff.mp hb
    refine ⟨hlt, isNone_digitOf?_iff.mpr hno, fun j hj => ?_⟩
    have hmem : digits[j] ∈ digits.take offset :=
      List.mem_take_iff_getElem.mpr ⟨j, by omega, rfl⟩
    rw [Bool.not_eq_true]
    exact isNone_digitOf?_eq_false_iff.mpr (hbefore _ hmem)

/-- **A text is no hex for its length, and only then for a byte.** -/
theorem decode_eq_error_iff {why : Fault} : decode digits = .error why ↔
    digits.length % 2 = 1 ∧ why = .oddLength digits.length
      ∨ digits.length % 2 = 0 ∧ ∃ offset, FirstFault digits offset ∧ why = .symbol offset := by
  unfold decode
  by_cases hodd : digits.length % 2 = 1
  · rw [if_pos hodd]
    simp [hodd, eq_comm]
  · have heven : digits.length % 2 = 0 := by omega
    rw [if_neg hodd]
    simp only [← findIdx?_eq_some_iff]
    cases digits.findIdx? fun b => (digitOf? b).isNone with
    | none => simp [heven]
    | some offset => simp [heven, eq_comm]

end Grammar

/-! ## §3. Letters of either case. -/

section Letters

variable {text : String} {bytes : Bytes}

/-- An ASCII character is a digit if it is one in lower case. -/
theorem isDigit_char_iff {c : Char} {d : Nat} (hc : c.toNat < 0x80) :
    IsDigit (UInt8.ofNat c.toNat) d ↔ d < 16 ∧ Nat.digitChar d = c.toLower := by
  have hall : ∀ n < 0x80, ∀ d < 16,
      (UInt8.ofNat n = UInt8.ofNat (Nat.digitChar d).toNat
          ∨ UInt8.ofNat n = UInt8.ofNat (Nat.digitChar d).toUpper.toNat)
        ↔ Nat.digitChar d = (Char.ofNat n).toLower := by decide +kernel
  refine and_congr_right fun hd => ?_
  rw [hall c.toNat hc d hd, Char.ofNat_toNat]

/-- Only ASCII characters are digits in lower case. -/
theorem ascii_of_toLower {c : Char} {d : Nat} (hd : d < 16) (h : Nat.digitChar d = c.toLower) :
    c.toNat < 0x80 := by
  have hdigit : ∀ d < 16, (Nat.digitChar d).toNat < 0x80 := by decide
  have hlt : c.toLower.toNat < 0x80 := h ▸ hdigit d hd
  unfold Char.toLower at hlt
  split at hlt
  · next hupper =>
    have hz : c.toNat ≤ 0x5A := UInt32.le_iff_toNat_le.mp hupper.2
    omega
  · exact hlt

/-- **A byte is spelled by the two digits that it has in lower case**, and what comes after
them spells the rest. -/
theorem spells_cons_iff {hi lo b : UInt8} {digits : Bytes} :
    Spells (hi :: lo :: digits) (b :: bytes) ↔
      IsDigit hi (b.toNat / 16) ∧ IsDigit lo (b.toNat % 16) ∧ Spells digits bytes := by
  constructor
  · intro h
    cases h with
    | @pair _ _ high low _ _ hhigh hlow hrest =>
      have hb : (UInt8.ofNat (16 * high + low)).toNat = 16 * high + low := by
        have := hhigh.1
        have := hlow.1
        rw [UInt8.toNat_ofNat']
        omega
      have hquotient : (16 * high + low) / 16 = high := by
        have := hlow.1
        omega
      have hremainder : (16 * high + low) % 16 = low := by
        have := hlow.1
        omega
      rw [hb, hquotient, hremainder]
      exact ⟨hhigh, hlow, hrest⟩
  · rintro ⟨hhigh, hlow, hrest⟩
    have hb : UInt8.ofNat (16 * (b.toNat / 16) + b.toNat % 16) = b := by
      rw [Nat.div_add_mod, UInt8.ofNat_toNat]
    have hpair := Spells.pair hhigh hlow hrest
    rwa [hb] at hpair

theorem toList_toLower (s : String) : s.toLower.toList = s.toList.map Char.toLower :=
  String.toList_map

theorem toList_toUpper (s : String) : s.toUpper.toList = s.toList.map Char.toUpper :=
  String.toList_map

/-- What is written has nothing but digits in lower case. -/
theorem exists_digit_of_mem {c : Char} (h : c ∈ bytes.flatMap ofByte) :
    ∃ d < 16, c = Nat.digitChar d := by
  obtain ⟨b, -, hb⟩ := List.mem_flatMap.mp h
  have hlt := b.toNat_lt
  simp only [ofByte, List.mem_cons, List.not_mem_nil, or_false] at hb
  rcases hb with rfl | rfl
  · exact ⟨_, by omega, rfl⟩
  · exact ⟨_, by omega, rfl⟩

/-- Nothing happens to it that does not happen to these. -/
theorem map_toList_encode {f : Char → Char} (h : ∀ d < 16, f (Nat.digitChar d) = Nat.digitChar d)
    (bytes : Bytes) : (encode bytes).toList.map f = (encode bytes).toList := by
  rw [encode, String.toList_ofList]
  refine (List.map_congr_left fun c hc => ?_).trans (List.map_id _)
  obtain ⟨d, hd, rfl⟩ := exists_digit_of_mem hc
  exact h d hd

theorem toLower_encode (bytes : Bytes) : (encode bytes).toLower = encode bytes := by
  rw [← String.toList_inj, toList_toLower]
  exact map_toList_encode (by decide) bytes

theorem toLower_toUpper_encode (bytes : Bytes) :
    (encode bytes).toUpper.toLower = encode bytes := by
  rw [← String.toList_inj, toList_toLower, toList_toUpper, List.map_map]
  exact map_toList_encode (by decide) bytes

/-- ASCII characters spell bytes if they are in lower case what is written for them. -/
theorem spells_chars_iff {cs : List Char} (hascii : ∀ c ∈ cs, c.toNat < 0x80) :
    Spells (cs.map fun c => UInt8.ofNat c.toNat) bytes
      ↔ bytes.flatMap ofByte = cs.map Char.toLower := by
  induction bytes generalizing cs with
  | nil =>
    cases cs with
    | nil => exact iff_of_true .nil rfl
    | cons c cs =>
      refine iff_of_false (fun h => ?_) (by simp)
      have hlength := h.length_eq
      simp at hlength
  | cons b bytes ih =>
    match cs, hascii with
    | [], _ => exact iff_of_false nofun (by simp [ofByte])
    | [c], _ => exact iff_of_false nofun (by simp [ofByte])
    | c :: c' :: cs, hascii =>
      simp only [List.forall_mem_cons] at hascii
      obtain ⟨hc, hc', hcs⟩ := hascii
      have hhigh : b.toNat / 16 < 16 := by
        have := b.toNat_lt
        omega
      have hlow : b.toNat % 16 < 16 := Nat.mod_lt _ (by decide)
      rw [List.map_cons, List.map_cons, spells_cons_iff, isDigit_char_iff hc, isDigit_char_iff hc',
        ih hcs, List.flatMap_cons, ofByte]
      simp [hhigh, hlow]

/-- **A text spells bytes if it is in lower case what is written for them.** -/
theorem spells_encode_iff : Spells (Utf8.encode text) bytes ↔ encode bytes = text.toLower := by
  have hchars : encode bytes = text.toLower
      ↔ bytes.flatMap ofByte = text.toList.map Char.toLower := by
    rw [encode, ← String.toList_inj, String.toList_ofList, toList_toLower]
  -- on either side the text has ASCII characters only
  have hbytes (hascii : ∀ c ∈ text.toList, c.toNat < 0x80) :
      Utf8.encode text = text.toList.map fun c => UInt8.ofNat c.toNat := by
    rw [← Utf8.encode_ofList_ascii _ hascii, String.ofList_toList]
  rw [hchars]
  constructor
  · intro h
    have hascii : ∀ c ∈ text.toList, c.toNat < 0x80 := by
      refine Utf8.ascii_of_encode fun b hb => ?_
      have hdigits : ∀ d < 16, (UInt8.ofNat (Nat.digitChar d).toNat).toNat < 0x80
          ∧ (UInt8.ofNat (Nat.digitChar d).toUpper.toNat).toNat < 0x80 := by decide
      obtain ⟨d, hd, rfl | rfl⟩ := h.isDigit b hb
      · exact (hdigits d hd).1
      · exact (hdigits d hd).2
    rw [hbytes hascii] at h
    exact (spells_chars_iff hascii).mp h
  · intro h
    have hascii : ∀ c ∈ text.toList, c.toNat < 0x80 := by
      intro c hc
      have hmem : c.toLower ∈ bytes.flatMap ofByte := h ▸ List.mem_map_of_mem hc
      obtain ⟨d, hd, hdigit⟩ := exists_digit_of_mem hmem
      exact ascii_of_toLower hd hdigit.symm
    rw [hbytes hascii]
    exact (spells_chars_iff hascii).mpr h

end Letters

end Hex

/-! ## §4. Secrets. -/

namespace Secret

open Hex

variable {text : String} {maximum : Nat}

/-- A secret is read in the texts that spell it, if it is not too long. -/
theorem ofHex_eq_ok_iff {secret : Secret} : ofHex text maximum = .ok secret ↔
    Spells (Utf8.encode text) secret.bytes ∧ secret.bytes.length ≤ maximum := by
  constructor
  · intro h
    obtain ⟨hdecode, hlength⟩ := of_ofHex h
    exact ⟨decode_eq_ok_iff.mp hdecode, hlength⟩
  · rintro ⟨hspells, hlength⟩
    unfold ofHex
    rw [decode_eq_ok_iff.mpr hspells]
    exact if_neg (Nat.not_lt.mpr hlength)

/-- **There is a secret in a text of digits in pairs, no more of them than the limit.** -/
theorem exists_ofHex_iff : (∃ secret, ofHex text maximum = .ok secret) ↔
    (Utf8.encode text).length % 2 = 0 ∧ (∀ b ∈ Utf8.encode text, ∃ d, IsDigit b d)
      ∧ (Utf8.encode text).length / 2 ≤ maximum := by
  constructor
  · rintro ⟨secret, h⟩
    obtain ⟨hspells, hmaximum⟩ := ofHex_eq_ok_iff.mp h
    have hlength := hspells.length_eq
    exact ⟨by omega, hspells.isDigit, by omega⟩
  · rintro ⟨heven, hall, hmaximum⟩
    have hspells := spells_pairs heven hall
    have hlength := hspells.length_eq
    refine ⟨⟨pairs (Utf8.encode text)⟩, ofHex_eq_ok_iff.mpr ⟨hspells, ?_⟩⟩
    dsimp only
    omega

/-- **A text that holds no secret is refused for its length, and only then for a byte, and
only then for the length of the secret.** -/
theorem ofHex_eq_error_iff {why : CodeError} : ofHex text maximum = .error why ↔
    (Utf8.encode text).length % 2 = 1 ∧ why = .notHex (.oddLength (Utf8.encode text).length)
      ∨ (Utf8.encode text).length % 2 = 0
        ∧ (∃ offset, FirstFault (Utf8.encode text) offset ∧ why = .notHex (.symbol offset))
      ∨ (Utf8.encode text).length % 2 = 0 ∧ (∀ b ∈ Utf8.encode text, ∃ d, IsDigit b d)
        ∧ maximum < (Utf8.encode text).length / 2
        ∧ why = .secretTooLong ((Utf8.encode text).length / 2) maximum := by
  have hfault (fault : Hex.Fault) (h : decode (Utf8.encode text) = .error fault) :
      ofHex text maximum = .error (.notHex fault) := by
    unfold ofHex
    rw [h]
  have hlong (bytes : Bytes) (h : decode (Utf8.encode text) = .ok bytes)
      (hlt : maximum < bytes.length) :
      ofHex text maximum = .error (.secretTooLong bytes.length maximum) := by
    unfold ofHex
    rw [h]
    exact if_pos hlt
  constructor
  · intro h
    cases hdecode : decode (Utf8.encode text) with
    | error fault =>
      cases (hfault fault hdecode).symm.trans h
      rcases decode_eq_error_iff.mp hdecode with ⟨hodd, rfl⟩ | ⟨heven, offset, hfirst, rfl⟩
      · exact .inl ⟨hodd, rfl⟩
      · exact .inr (.inl ⟨heven, offset, hfirst, rfl⟩)
    | ok bytes =>
      have hspells := decode_eq_ok_iff.mp hdecode
      have hlength : (Utf8.encode text).length / 2 = bytes.length := by
        rw [hspells.length_eq]
        omega
      by_cases hmaximum : maximum < bytes.length
      · cases (hlong bytes hdecode hmaximum).symm.trans h
        rw [hlength]
        refine .inr (.inr ⟨?_, hspells.isDigit, hmaximum, rfl⟩)
        rw [hspells.length_eq]
        omega
      · cases (ofHex_eq_ok_iff.mpr ⟨hspells, Nat.not_lt.mp hmaximum⟩).symm.trans h
  · rintro (⟨hodd, rfl⟩ | ⟨heven, offset, hfirst, rfl⟩ | ⟨heven, hall, hlt, rfl⟩)
    · exact hfault _ (decode_eq_error_iff.mpr (.inl ⟨hodd, rfl⟩))
    · exact hfault _ (decode_eq_error_iff.mpr (.inr ⟨heven, offset, hfirst, rfl⟩))
    · have hspells := spells_pairs heven hall
      have hlength : (Utf8.encode text).length / 2 = (pairs (Utf8.encode text)).length := by
        rw [hspells.length_eq]
        omega
      rw [hlength] at hlt ⊢
      exact hlong _ (decode_eq_ok_iff.mpr hspells) hlt

/-- **Secrets are typed as hex, by its grammar and nothing else.**

A text holds a secret exactly if it has an even number of bytes, each of them a digit of
either case, and no more pairs of them than the limit.  The secret is what the pairs spell;
it is the one whose hex is the text in lower case.  So hex in lower or in upper case of any
bytes within the limit is read as these bytes.  Every other text is refused: for an odd
number of bytes, else for the first byte that is no digit, else for the length of the
secret. -/
theorem typed_by_grammar (text : String) (maximum : Nat) (secret : Secret) (bytes : Bytes)
    (why : CodeError) :
    ((∃ secret, ofHex text maximum = .ok secret) ↔
        (Utf8.encode text).length % 2 = 0 ∧ (∀ b ∈ Utf8.encode text, ∃ d, IsDigit b d)
          ∧ (Utf8.encode text).length / 2 ≤ maximum)
      ∧ (ofHex text maximum = .ok secret ↔
          Spells (Utf8.encode text) secret.bytes ∧ secret.bytes.length ≤ maximum)
      ∧ (ofHex text maximum = .ok secret ↔
          encode secret.bytes = text.toLower ∧ secret.bytes.length ≤ maximum)
      ∧ (ofHex (encode bytes) maximum = .ok ⟨bytes⟩ ↔ bytes.length ≤ maximum)
      ∧ (ofHex (encode bytes).toUpper maximum = .ok ⟨bytes⟩ ↔ bytes.length ≤ maximum)
      ∧ (ofHex text maximum = .error why ↔
          (Utf8.encode text).length % 2 = 1
              ∧ why = .notHex (.oddLength (Utf8.encode text).length)
            ∨ (Utf8.encode text).length % 2 = 0
              ∧ (∃ offset, FirstFault (Utf8.encode text) offset ∧ why = .notHex (.symbol offset))
            ∨ (Utf8.encode text).length % 2 = 0 ∧ (∀ b ∈ Utf8.encode text, ∃ d, IsDigit b d)
              ∧ maximum < (Utf8.encode text).length / 2
              ∧ why = .secretTooLong ((Utf8.encode text).length / 2) maximum) := by
  have hspelled (text : String) (secret : Secret) : ofHex text maximum = .ok secret ↔
      encode secret.bytes = text.toLower ∧ secret.bytes.length ≤ maximum := by
    rw [ofHex_eq_ok_iff, spells_encode_iff]
  refine ⟨exists_ofHex_iff, ofHex_eq_ok_iff, hspelled text secret, ?_, ?_, ofHex_eq_error_iff⟩
  · rw [hspelled, toLower_encode]
    exact and_iff_right rfl
  · rw [hspelled, toLower_toUpper_encode]
    exact and_iff_right rfl

end Secret

end OtpToken
