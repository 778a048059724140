/-
  OtpToken.Text.Utf8
  ──────────────────
  **TEXT AS BYTES AND BACK.**

  Names, logins and token ids are Unicode text, kept as UTF-8 on the wire.
  A token may send any bytes at all, so reading never fails: every maximal
  piece that no text can continue from becomes one U+FFFD.

      decodeLossy (encode s) = s

  and `decode?` accepts exactly the encodings of texts.
-/
import OtpToken.Bytes.Basic

namespace OtpToken.Utf8

/-! ## §1. Writing. -/

/-- The UTF-8 bytes of a text. -/
def encode (s : String) : Bytes := s.toList.flatMap String.utf8EncodeChar

/-! ## §2. Reading byte by byte. -/

/-- Stands for bytes that are no text. -/
def replacement : Char := '\uFFFD'

/-- A character under way: its bits so far, how many bytes follow the next
one, and the range that the next one lies in. -/
structure Pending where
  value : Nat
  owed : Nat
  low : Nat
  high : Nat
  deriving DecidableEq

/-- A byte between characters: what it writes and what it leaves under way.
The ranges leave out overlong forms, surrogates and numbers past U+10FFFF. -/
def start (b : UInt8) : List Char × Option Pending :=
  let n := b.toNat
  if n < 0x80 then ([Char.ofNat n], none)
  else if n < 0xC2 then ([replacement], none)
  else if n < 0xE0 then ([], some ⟨n - 0xC0, 0, 0x80, 0xBF⟩)
  else if n = 0xE0 then ([], some ⟨0, 1, 0xA0, 0xBF⟩)
  else if n = 0xED then ([], some ⟨0xD, 1, 0x80, 0x9F⟩)
  else if n < 0xF0 then ([], some ⟨n - 0xE0, 1, 0x80, 0xBF⟩)
  else if n = 0xF0 then ([], some ⟨0, 2, 0x90, 0xBF⟩)
  else if n < 0xF4 then ([], some ⟨n - 0xF0, 2, 0x80, 0xBF⟩)
  else if n = 0xF4 then ([], some ⟨4, 2, 0x80, 0x8F⟩)
  else ([replacement], none)

/-- One byte in either state.  A byte that cannot continue the character
under way ends it as one replacement and then starts afresh. -/
def step : Option Pending → UInt8 → List Char × Option Pending
  | none, b => start b
  | some p, b =>
      if p.low ≤ b.toNat ∧ b.toNat ≤ p.high then
        let value := p.value * 64 + (b.toNat - 0x80)
        match p.owed with
        | 0 => ([Char.ofNat value], none)
        | owed + 1 => ([], some ⟨value, owed, 0x80, 0xBF⟩)
      else
        let (written, state) := start b
        (replacement :: written, state)

/-- All characters read from `bs`, with the state left by what came before. -/
def decodeFrom : Option Pending → Bytes → List Char
  | none, [] => []
  | some _, [] => [replacement]
  | state, b :: bs => (step state b).1 ++ decodeFrom (step state b).2 bs

/-- The text in `bs`, with U+FFFD for what is not UTF-8. -/
def decodeLossy (bs : Bytes) : String := String.ofList (decodeFrom none bs)

/-- The text whose encoding is `bs`, if there is one. -/
def decode? (bs : Bytes) : Option String :=
  let s := decodeLossy bs
  if encode s = bs then some s else none

/-! ## §3. Reading what was written. -/

theorem decodeFrom_none_cons (b : UInt8) (bs : Bytes) :
    decodeFrom none (b :: bs) = (start b).1 ++ decodeFrom (start b).2 bs := rfl

/-- A byte in range continues the character under way. -/
theorem decodeFrom_owed (value owed low high n : Nat) (bs : Bytes) (hn : n < 256)
    (hl : low ≤ n) (hh : n ≤ high) :
    decodeFrom (some ⟨value, owed + 1, low, high⟩) (UInt8.ofNat n :: bs)
      = decodeFrom (some ⟨value * 64 + (n - 0x80), owed, 0x80, 0xBF⟩) bs := by
  have hb : (UInt8.ofNat n).toNat = n := by rw [UInt8.toNat_ofNat']; omega
  simp only [decodeFrom, step, hb]
  rw [if_pos ⟨hl, hh⟩]
  rfl

/-- The last byte of a character completes it. -/
theorem decodeFrom_last {value low high n : Nat} (v : Nat) (bs : Bytes) (hn : n < 256)
    (hl : low ≤ n) (hh : n ≤ high) (hv : value * 64 + (n - 0x80) = v) :
    decodeFrom (some ⟨value, 0, low, high⟩) (UInt8.ofNat n :: bs)
      = Char.ofNat v :: decodeFrom none bs := by
  subst hv
  have hb : (UInt8.ofNat n).toNat = n := by rw [UInt8.toNat_ofNat']; omega
  simp only [decodeFrom, step, hb]
  rw [if_pos ⟨hl, hh⟩]
  rfl

/-- The lead byte of a character opens it, with the range that its second
byte keeps. -/
theorem start_ofNat {n : Nat} (hn : n < 256) :
    start (UInt8.ofNat n) =
      if n < 0x80 then ([Char.ofNat n], none)
      else if n < 0xC2 then ([replacement], none)
      else if n < 0xE0 then ([], some ⟨n - 0xC0, 0, 0x80, 0xBF⟩)
      else if n = 0xE0 then ([], some ⟨0, 1, 0xA0, 0xBF⟩)
      else if n = 0xED then ([], some ⟨0xD, 1, 0x80, 0x9F⟩)
      else if n < 0xF0 then ([], some ⟨n - 0xE0, 1, 0x80, 0xBF⟩)
      else if n = 0xF0 then ([], some ⟨0, 2, 0x90, 0xBF⟩)
      else if n < 0xF4 then ([], some ⟨n - 0xF0, 2, 0x80, 0xBF⟩)
      else if n = 0xF4 then ([], some ⟨4, 2, 0x80, 0x8F⟩)
      else ([replacement], none) := by
  have hb : (UInt8.ofNat n).toNat = n := by rw [UInt8.toNat_ofNat']; omega
  simp only [start, hb]

theorem decodeFrom_utf8EncodeChar (c : Char) (bs : Bytes) :
    decodeFrom none (String.utf8EncodeChar c ++ bs) = c :: decodeFrom none bs := by
  have hc : Char.ofNat c.val.toNat = c := Char.ofNat_toNat c
  have hv : c.val.toNat < 0xD800 ∨ 0xDFFF < c.val.toNat ∧ c.val.toNat < 0x110000 := c.valid
  unfold String.utf8EncodeChar
  generalize c.val.toNat = v at hc hv
  subst hc
  dsimp only
  split
  · rw [List.singleton_append, decodeFrom_none_cons, start_ofNat (by omega), if_pos (by omega)]
    rfl
  split
  · simp only [List.cons_append, List.nil_append, decodeFrom_none_cons]
    rw [start_ofNat (by omega), if_neg (by omega), if_neg (by omega), if_pos (by omega)]
    simp only [List.nil_append]
    rw [decodeFrom_last v _ (by omega) (by omega) (by omega) (by omega)]
  split
  · simp only [List.cons_append, List.nil_append, decodeFrom_none_cons]
    rw [start_ofNat (by omega), if_neg (by omega), if_neg (by omega), if_neg (by omega)]
    by_cases h0 : v / 4096 % 16 + 0xE0 = 0xE0
    · rw [if_pos h0]
      simp only [List.nil_append]
      rw [decodeFrom_owed _ _ _ _ _ _ (by omega) (by omega) (by omega),
        decodeFrom_last v _ (by omega) (by omega) (by omega) (by omega)]
    rw [if_neg h0]
    by_cases hD : v / 4096 % 16 + 0xE0 = 0xED
    · rw [if_pos hD]
      simp only [List.nil_append]
      rw [decodeFrom_owed _ _ _ _ _ _ (by omega) (by omega) (by omega),
        decodeFrom_last v _ (by omega) (by omega) (by omega) (by omega)]
    · rw [if_neg hD, if_pos (by omega)]
      simp only [List.nil_append]
      rw [decodeFrom_owed _ _ _ _ _ _ (by omega) (by omega) (by omega),
        decodeFrom_last v _ (by omega) (by omega) (by omega) (by omega)]
  · simp only [List.cons_append, List.nil_append, decodeFrom_none_cons]
    rw [start_ofNat (by omega), if_neg (by omega), if_neg (by omega), if_neg (by omega),
      if_neg (by omega), if_neg (by omega), if_neg (by omega)]
    by_cases h0 : v / 262144 % 8 + 0xF0 = 0xF0
    · rw [if_pos h0]
      simp only [List.nil_append]
      rw [decodeFrom_owed _ _ _ _ _ _ (by omega) (by omega) (by omega),
        decodeFrom_owed _ _ _ _ _ _ (by omega) (by omega) (by omega),
        decodeFrom_last v _ (by omega) (by omega) (by omega) (by omega)]
    rw [if_neg h0]
    by_cases h4 : v / 262144 % 8 + 0xF0 < 0xF4
    · rw [if_pos h4]
      simp only [List.nil_append]
      rw [decodeFrom_owed _ _ _ _ _ _ (by omega) (by omega) (by omega),
        decodeFrom_owed _ _ _ _ _ _ (by omega) (by omega) (by omega),
        decodeFrom_last v _ (by omega) (by omega) (by omega) (by omega)]
    · rw [if_neg h4, if_pos (by omega)]
      simp only [List.nil_append]
      rw [decodeFrom_owed _ _ _ _ _ _ (by omega) (by omega) (by omega),
        decodeFrom_owed _ _ _ _ _ _ (by omega) (by omega) (by omega),
        decodeFrom_last v _ (by omega) (by omega) (by omega) (by omega)]

theorem decodeFrom_flatMap (cs : List Char) :
    decodeFrom none (cs.flatMap String.utf8EncodeChar) = cs := by
  induction cs with
  | nil => rfl
  | cons c cs ih => rw [List.flatMap_cons, decodeFrom_utf8EncodeChar, ih]

theorem decodeLossy_encode (s : String) : decodeLossy (encode s) = s := by
  rw [decodeLossy, encode, decodeFrom_flatMap, String.ofList_toList]

theorem decode?_encode (s : String) : decode? (encode s) = some s := by
  simp [decode?, decodeLossy_encode]

theorem encode_of_decode? {bs : Bytes} {s : String} (h : decode? bs = some s) :
    encode s = bs := by
  simp only [decode?] at h
  split at h
  · next he => exact Option.some.inj h ▸ he
  · simp at h

end OtpToken.Utf8
