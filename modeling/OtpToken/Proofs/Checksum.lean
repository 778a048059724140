/-
  OtpToken.Proofs.Checksum
  ────────────────────────
  **WHAT THE CHECKSUM CATCHES.**

  The register is linear in exclusive or (`Register.shifts_xor`) and loses nothing
  (`Register.shifts_ne_zero`).  Fed with four bytes from the top down it does what
  it does with their word (`Register.feed_bytes`), so sixty bytes and their
  checksum are sixteen words that leave the register empty, and no other sixteen
  do (`Report.sound_iff`).

  So what is made of a sound report is judged by the difference alone:

      sound (ws ^^^ ds)   iff   ds leaves an empty register empty

  A difference within one word never does, since the register loses nothing.  Nor
  do two bits: the bit at place `n` of a report comes out as `shifts` of a single
  one, and no 511 shifts in a row bring that one back (`Register.shifts_one_ne`).
-/
import OtpToken.Proofs.Frame

namespace OtpToken

/-! ## §1. The register is linear and loses nothing. -/

namespace Register

theorem shift_xor (a b : BitVec 32) : shift (a ^^^ b) = shift a ^^^ shift b := by
  unfold shift
  rw [BitVec.msb_xor, BitVec.shiftLeft_xor_distrib]
  cases a.msb <;> cases b.msb
  · rfl
  · exact BitVec.xor_assoc _ _ _
  · show (a <<< 1) ^^^ (b <<< 1) ^^^ generator = (a <<< 1) ^^^ generator ^^^ (b <<< 1)
    ac_rfl
  · -- the two generators cancel
    show (a <<< 1) ^^^ (b <<< 1) = (a <<< 1) ^^^ generator ^^^ ((b <<< 1) ^^^ generator)
    have hcancel : (a <<< 1) ^^^ generator ^^^ ((b <<< 1) ^^^ generator)
        = (a <<< 1) ^^^ (b <<< 1) ^^^ (generator ^^^ generator) := by ac_rfl
    rw [hcancel, BitVec.xor_self, BitVec.xor_zero]

/-- **Shifting is linear.** -/
theorem shifts_xor (n : Nat) (a b : BitVec 32) :
    shifts n (a ^^^ b) = shifts n a ^^^ shifts n b := by
  induction n generalizing a b with
  | zero => rfl
  | succ n ih =>
    unfold shifts
    rw [shift_xor, ih]

theorem shifts_zero (n : Nat) : shifts n 0 = 0 := by
  induction n with
  | zero => rfl
  | succ n ih => exact ih

theorem shifts_add (m n : Nat) (r : BitVec 32) : shifts (m + n) r = shifts n (shifts m r) := by
  induction m generalizing r with
  | zero => rw [Nat.zero_add]; rfl
  | succ m ih =>
    rw [Nat.succ_add]
    exact ih (shift r)

/-- The generator is odd: a one that falls out leaves one at the bottom. -/
theorem shift_ne_zero {r : BitVec 32} (h : r ≠ 0) : shift r ≠ 0 := by
  intro hzero
  unfold shift at hzero
  by_cases hmsb : r.msb = true
  · rw [if_pos hmsb] at hzero
    have hbottom := congrArg (·.getLsbD 0) hzero
    simp [generator] at hbottom
  · rw [if_neg hmsb] at hzero
    apply h
    apply BitVec.eq_of_getLsbD_eq
    intro i hi
    by_cases htop : i = 31
    · subst htop
      rw [← BitVec.msb_eq_getLsbD_last]
      simpa using hmsb
    · have hbit : (r <<< 1).getLsbD (i + 1) = false := by rw [hzero]; exact BitVec.getLsbD_zero
      have hinside : i + 1 < 32 := by omega
      have hback : (r <<< 1).getLsbD (i + 1) = r.getLsbD i := by
        rw [BitVec.getLsbD_shiftLeft]
        simp [hinside]
      rw [← hback, hbit]
      exact BitVec.getLsbD_zero.symm

/-- **Shifting loses nothing.** -/
theorem shifts_ne_zero (n : Nat) {r : BitVec 32} (h : r ≠ 0) : shifts n r ≠ 0 := by
  induction n generalizing r with
  | zero => exact h
  | succ n ih => exact ih (shift_ne_zero h)

theorem shifts_inj (n : Nat) {a b : BitVec 32} (h : shifts n a = shifts n b) : a = b := by
  rw [← BitVec.xor_eq_zero_iff] at h ⊢
  rw [← shifts_xor] at h
  exact Decidable.not_not.mp fun hne => shifts_ne_zero n hne h

/-- While nothing falls out, shifting only moves the bits up. -/
theorem shifts_of_clear {n : Nat} {r : BitVec 32} (h : ∀ i, 32 ≤ i + n → r.getLsbD i = false) :
    shifts n r = r <<< n := by
  induction n generalizing r with
  | zero => simp [shifts]
  | succ n ih =>
    have hmsb : r.msb = false := by
      rw [BitVec.msb_eq_getLsbD_last]
      exact h 31 (by omega)
    have hshift : shift r = r <<< 1 := by
      unfold shift
      rw [hmsb]
      rfl
    have hclear : ∀ i, 32 ≤ i + n → (r <<< 1).getLsbD i = false := by
      intro i hi
      rw [BitVec.getLsbD_shiftLeft]
      by_cases hzero : i = 0
      · simp [hzero]
      · rw [h (i - 1) (by omega), Bool.and_false]
    rw [shifts, hshift, ih hclear, ← BitVec.shiftLeft_add, Nat.add_comm]

/-! ## §2. A single one does not come back. -/

/-- Whether a register comes to one within so many steps. -/
def comesToOne : Nat → BitVec 32 → Bool
  | 0, _ => false
  | n + 1, r => r == 1 || comesToOne n (shift r)

theorem comesToOne_of_shifts {m n : Nat} {r : BitVec 32} (hm : m < n) (h : shifts m r = 1) :
    comesToOne n r = true := by
  induction n generalizing m r with
  | zero => exact absurd hm (Nat.not_lt_zero m)
  | succ n ih =>
    unfold comesToOne
    cases m with
    | zero =>
      rw [show r = 1 from h]
      rfl
    | succ m => rw [ih (Nat.lt_of_succ_lt_succ hm) h, Bool.or_true]

set_option maxRecDepth 20000 in
theorem not_comesToOne : comesToOne 511 (shift 1) = false := by decide +kernel

/-- **No 511 shifts in a row bring a single one back to where it was.** -/
theorem shifts_one_ne {m : Nat} (hpos : 0 < m) (hm : m < 512) : shifts m 1 ≠ 1 := by
  intro h
  obtain ⟨m, rfl⟩ := Nat.exists_eq_add_of_lt hpos
  rw [Nat.zero_add] at h hm
  have hcomes : comesToOne 511 (shift 1) = true := comesToOne_of_shifts (by omega) h
  rw [not_comesToOne] at hcomes
  cases hcomes

/-- **Single ones that were shifted differently far are told apart.** -/
theorem shifts_one_inj {m n : Nat} (hm : m < n + 512) (hn : n < m + 512)
    (h : shifts m 1 = shifts n 1) : m = n := by
  rcases Nat.lt_trichotomy m n with hlt | heq | hlt
  · obtain ⟨k, rfl⟩ := Nat.exists_eq_add_of_le (Nat.le_of_lt hlt)
    rw [Nat.add_comm, shifts_add] at h
    exact absurd (shifts_inj m h).symm (shifts_one_ne (by omega) (by omega))
  · exact heq
  · obtain ⟨k, rfl⟩ := Nat.exists_eq_add_of_le (Nat.le_of_lt hlt)
    rw [Nat.add_comm, shifts_add] at h
    exact absurd (shifts_inj n h) (shifts_one_ne (by omega) (by omega))

/-! ## §3. Words. -/

/-- A byte at the bottom of a word. -/
def low (b : UInt8) : BitVec 32 := b.toBitVec.setWidth 32

/-- Four bytes as a word, the first one at the bottom. -/
def word (a b c d : UInt8) : BitVec 32 := BitVec.ofNat 32 (LittleEndian.decode [a, b, c, d])

/-- The words of a byte string. -/
def words : Bytes → List (BitVec 32)
  | a :: b :: c :: d :: rest => word a b c d :: words rest
  | _ => []

theorem low_clear (b : UInt8) {i : Nat} (h : 8 ≤ i) : (low b).getLsbD i = false := by
  unfold low
  rw [BitVec.getLsbD_setWidth, BitVec.getLsbD_of_ge _ _ h, Bool.and_false]

/-- A byte is shifted up to the top of the word. -/
theorem shifts_low (b : UInt8) {k n : Nat} (h : k + n ≤ 24) :
    shifts n (low b <<< k) = low b <<< (k + n) := by
  rw [shifts_of_clear, BitVec.shiftLeft_add]
  intro i hi
  rw [BitVec.getLsbD_shiftLeft, low_clear b (by omega), Bool.and_false]

/-- One more byte below a number. -/
theorem ofNat_decode_cons (b : UInt8) (bs : Bytes) :
    BitVec.ofNat 32 (LittleEndian.decode (b :: bs))
      = low b ^^^ BitVec.ofNat 32 (LittleEndian.decode bs) <<< 8 := by
  apply BitVec.eq_of_getLsbD_eq
  intro i hi
  have hb : b.toNat < 2 ^ 8 := b.toNat_lt
  have hdecode : LittleEndian.decode (b :: bs) = 2 ^ 8 * LittleEndian.decode bs + b.toNat :=
    Nat.add_comm _ _
  rw [BitVec.getLsbD_ofNat, hdecode, Nat.testBit_two_pow_mul_add _ hb, BitVec.getLsbD_xor,
    BitVec.getLsbD_shiftLeft, BitVec.getLsbD_ofNat]
  by_cases hlow : i < 8
  · simp [hlow, low, hi, BitVec.getLsbD]
  · have hplace : i - 8 < 32 := by omega
    rw [low_clear b (Nat.le_of_not_lt hlow)]
    simp [hlow, hi, hplace]

/-- A word is put together from its bytes. -/
theorem word_eq (a b c d : UInt8) :
    word a b c d = low a ^^^ low b <<< 8 ^^^ low c <<< 16 ^^^ low d <<< 24 := by
  have hnil : BitVec.ofNat 32 (LittleEndian.decode []) = 0 := rfl
  unfold word
  rw [ofNat_decode_cons, ofNat_decode_cons, ofNat_decode_cons, ofNat_decode_cons, hnil]
  simp only [BitVec.shiftLeft_xor_distrib, ← BitVec.shiftLeft_add, BitVec.ofNat_eq_ofNat,
    BitVec.zero_shiftLeft, BitVec.xor_zero, BitVec.xor_assoc, Nat.reduceAdd]

/-- A byte that comes after `n` shifts has waited at its place in the word. -/
theorem feedByte_shifts {n : Nat} (h : n ≤ 24) (r : BitVec 32) (b : UInt8) :
    feedByte (shifts n r) b = shifts (n + 8) (r ^^^ low b <<< (24 - n)) := by
  have hwaited : low b <<< 24 = shifts n (low b <<< (24 - n)) := by
    rw [shifts_low b (by omega), Nat.sub_add_cancel h]
  show shifts 8 (shifts n r ^^^ low b <<< 24) = _
  rw [hwaited, ← shifts_xor n, ← shifts_add n 8]

theorem xor_reversed (r a b c d : BitVec 32) :
    r ^^^ d ^^^ c ^^^ b ^^^ a = r ^^^ (a ^^^ b ^^^ c ^^^ d) := by ac_rfl

/-- **Four bytes from the top down do what their word does.** -/
theorem feed_bytes (r : BitVec 32) (a b c d : UInt8) :
    feedByte (feedByte (feedByte (feedByte r d) c) b) a = feedWord r (word a b c d) := by
  have hd : feedByte r d = shifts 8 (r ^^^ low d <<< 24) := rfl
  rw [hd, feedByte_shifts (n := 8) (by decide), feedByte_shifts (n := 8 + 8) (by decide),
    feedByte_shifts (n := 8 + 8 + 8) (by decide), feedWord, word_eq, ← xor_reversed]
  simp only [Nat.reduceAdd, Nat.reduceSub, BitVec.shiftLeft_zero]

/-! ## §4. Lists of words. -/

/-- A string of whole words is empty, or starts with one. -/
theorem exists_word {n : Nat} {bs : Bytes} (h : bs.length = 4 * (n + 1)) :
    ∃ a b c d rest, bs = a :: b :: c :: d :: rest ∧ rest.length = 4 * n := by
  match bs with
  | a :: b :: c :: d :: rest =>
    refine ⟨a, b, c, d, rest, rfl, ?_⟩
    simp only [List.length_cons] at h
    omega
  | [] | [_] | [_, _] | [_, _, _] =>
    simp only [List.length_cons, List.length_nil] at h
    omega

theorem length_words {n : Nat} {bs : Bytes} (h : bs.length = 4 * n) : (words bs).length = n := by
  induction n generalizing bs with
  | zero =>
    cases List.eq_nil_of_length_eq_zero h
    rfl
  | succ n ih =>
    obtain ⟨a, b, c, d, rest, rfl, hrest⟩ := exists_word h
    rw [words, List.length_cons, ih hrest]

theorem words_append {n : Nat} {bs : Bytes} (h : bs.length = 4 * n) (more : Bytes) :
    words (bs ++ more) = words bs ++ words more := by
  induction n generalizing bs with
  | zero =>
    cases List.eq_nil_of_length_eq_zero h
    rfl
  | succ n ih =>
    obtain ⟨a, b, c, d, rest, rfl, hrest⟩ := exists_word h
    show word a b c d :: words (rest ++ more) = _
    rw [ih hrest]
    rfl

/-- **Feeding is linear**, in the register and the words together. -/
theorem feed_xor {ws ds : List (BitVec 32)} (h : ws.length = ds.length) (r e : BitVec 32) :
    (ws.zipWith (· ^^^ ·) ds).foldl feedWord (r ^^^ e)
      = ws.foldl feedWord r ^^^ ds.foldl feedWord e := by
  induction ws generalizing ds r e with
  | nil =>
    cases List.eq_nil_of_length_eq_zero h.symm
    rfl
  | cons w ws ih =>
    cases ds with
    | nil => cases h
    | cons d ds =>
      have hfeed : feedWord (r ^^^ e) (w ^^^ d) = feedWord r w ^^^ feedWord e d := by
        unfold feedWord
        rw [← shifts_xor]
        congr 1
        ac_rfl
      show (ws.zipWith (· ^^^ ·) ds).foldl feedWord (feedWord (r ^^^ e) (w ^^^ d)) = _
      rw [hfeed, ih (Nat.succ.inj h)]
      rfl

/-- `n` words of which only the one at `k` is not zero. -/
def single (n k : Nat) (w : BitVec 32) : List (BitVec 32) := (List.replicate n 0).set k w

theorem feed_zeros (n : Nat) (r : BitVec 32) :
    (List.replicate n 0).foldl feedWord r = shifts (32 * n) r := by
  induction n generalizing r with
  | zero => rfl
  | succ n ih =>
    rw [List.replicate_succ, List.foldl_cons, ih, Nat.mul_succ, Nat.add_comm, shifts_add]
    unfold feedWord
    rw [BitVec.ofNat_eq_ofNat, BitVec.xor_zero]

/-- **What a single word leaves in an empty register.** -/
theorem feed_single {n k : Nat} (h : k < n) (w : BitVec 32) :
    (single n k w).foldl feedWord 0 = shifts (32 * (n - k)) w := by
  induction n generalizing k with
  | zero => cases h
  | succ n ih =>
    have hempty : feedWord 0 0 = 0 := shifts_zero 32
    cases k with
    | zero =>
      show (List.replicate n 0).foldl feedWord (feedWord 0 w) = _
      rw [feed_zeros, Nat.sub_zero, Nat.mul_succ, Nat.add_comm, shifts_add]
      unfold feedWord
      rw [BitVec.ofNat_eq_ofNat, BitVec.zero_xor]
    | succ k =>
      rw [single, List.replicate_succ, List.set_cons_succ, List.foldl_cons, hempty, ← single,
        ih (Nat.lt_of_succ_lt_succ h), Nat.succ_sub_succ]

/-! ## §5. The bits of words. -/

/-- The bit at a place in a list of words. -/
def bitAt (ws : List (BitVec 32)) (p : Nat) : Bool := (ws.getD (p / 32) 0).getLsbD (p % 32)

theorem bitAt_xor {ws ds : List (BitVec 32)} (h : ws.length = ds.length) (p : Nat) :
    bitAt (ws.zipWith (· ^^^ ·) ds) p = (bitAt ws p ^^ bitAt ds p) := by
  unfold bitAt
  simp only [List.getD_eq_getElem?_getD, List.getElem?_zipWith]
  by_cases hp : p / 32 < ws.length
  · have hp' : p / 32 < ds.length := h ▸ hp
    simp [hp, hp']
  · have hp' : ¬ p / 32 < ds.length := h ▸ hp
    simp [hp, hp']

theorem bitAt_single {n k : Nat} (h : k < n) (w : BitVec 32) (p : Nat) :
    bitAt (single n k w) p = if p / 32 = k then w.getLsbD (p % 32) else false := by
  unfold bitAt single
  by_cases hk : p / 32 = k
  · subst hk
    simp [List.getD_eq_getElem?_getD, h]
  · rw [if_neg hk, List.getD_eq_getElem?_getD, List.getElem?_set_ne (Ne.symm hk)]
    by_cases hp : p / 32 < n <;> simp [hp]

/-- Lists of as many words are the same if their bits are. -/
theorem ext_bitAt {ws ds : List (BitVec 32)} (hlength : ws.length = ds.length)
    (h : ∀ p < 32 * ws.length, bitAt ws p = bitAt ds p) : ws = ds := by
  apply List.ext_getElem hlength
  intro k hk hk'
  apply BitVec.eq_of_getLsbD_eq
  intro i hi
  have hbit := h (32 * k + i) (by omega)
  unfold bitAt at hbit
  rw [show (32 * k + i) / 32 = k by omega, show (32 * k + i) % 32 = i by omega] at hbit
  simpa [List.getD_eq_getElem?_getD, hk, hk'] using hbit

end Register

/-- The bits of a number are those of its bytes. -/
theorem LittleEndian.testBit_decode (bs : Bytes) (p : Nat) :
    (decode bs).testBit p = (bs.getD (p / 8) 0).toBitVec.getLsbD (p % 8) := by
  induction bs generalizing p with
  | nil => simp [decode]
  | cons b bs ih =>
    have hb : b.toNat < 2 ^ 8 := b.toNat_lt
    have hdecode : decode (b :: bs) = 2 ^ 8 * decode bs + b.toNat := Nat.add_comm _ _
    rw [hdecode, Nat.testBit_two_pow_mul_add _ hb]
    by_cases hp : p < 8
    · rw [if_pos hp, Nat.div_eq_of_lt hp, Nat.mod_eq_of_lt hp]
      rfl
    · obtain ⟨q, rfl⟩ := Nat.exists_eq_add_of_le (Nat.le_of_not_lt hp)
      rw [if_neg hp, Nat.add_sub_cancel_left, ih, Nat.add_mod_left, Nat.add_comm 8 q,
        Nat.add_div_right q (by decide)]
      rfl

namespace Register

/-- **The bits of the words of a string are the bits of its bytes.** -/
theorem bitAt_words {n : Nat} {bs : Bytes} (h : bs.length = 4 * n) (p : Nat) :
    bitAt (words bs) p = (bs.getD (p / 8) 0).toBitVec.getLsbD (p % 8) := by
  induction n generalizing bs p with
  | zero =>
    cases List.eq_nil_of_length_eq_zero h
    simp [bitAt, words]
  | succ n ih =>
    obtain ⟨a, b, c, d, rest, rfl, hrest⟩ := exists_word h
    unfold bitAt words
    by_cases hp : p < 32
    · rw [Nat.div_eq_of_lt hp, Nat.mod_eq_of_lt hp]
      show (BitVec.ofNat 32 (LittleEndian.decode [a, b, c, d])).getLsbD p = _
      rw [BitVec.getLsbD_ofNat, LittleEndian.testBit_decode, decide_eq_true hp, Bool.true_and]
      have hbyte : p / 8 < 4 := by omega
      match p / 8, hbyte with
      | 0, _ | 1, _ | 2, _ | 3, _ => rfl
    · obtain ⟨q, rfl⟩ := Nat.exists_eq_add_of_le (Nat.le_of_not_lt hp)
      have hrow := ih hrest q
      unfold bitAt at hrow
      rw [show (32 + q) / 32 = q / 32 + 1 by omega, show (32 + q) % 32 = q % 32 by omega,
        show (32 + q) / 8 = q / 8 + 4 by omega, show (32 + q) % 8 = q % 8 by omega]
      exact hrow

end Register

end OtpToken
