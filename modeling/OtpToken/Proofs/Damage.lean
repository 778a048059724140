/-
  OtpToken.Proofs.Damage
  ──────────────────────
  **DAMAGED REPORTS ARE NOT TAKEN FOR SOUND ONES.**

  Behind the id byte a report is sixteen words of four bytes.  It is damaged
  (`Report.Damaged`) if something is changed within one of the words, however
  much of it, or if exactly two bits are changed anywhere.

  Damage to a report with the right checksum leaves it with a wrong one
  (`Report.Damaged.unsound`): the difference of both is one word, or two single
  bits, and neither leaves an empty register empty.  The id byte stands outside
  of all this, and nobody looks at it (`Report.SameFrame`).
-/
import OtpToken.Proofs.Words

namespace OtpToken

namespace Report

/-! ## §1. Reports as words. -/

/-- The words behind the id: fifteen of the contents, and the checksum. -/
def words (r : Report) : List (BitVec 32) := Register.words (r.bytes.drop 1)

theorem length_frame (r : Report) : (r.bytes.drop 1).length = 4 * 16 := by
  rw [List.length_drop, r.length_bytes]

theorem length_words (r : Report) : r.words.length = 16 := Register.length_words r.length_frame

/-- The last word is the checksum that the report carries. -/
theorem words_eq (r : Report) :
    r.words = Register.words r.body.bytes ++ [r.storedCrc.toBitVec] := by
  have hbody : r.body.bytes.length = 4 * 15 := r.body.length_bytes
  have hcrc : (r.bytes.drop 61).length = 4 * (0 + 1) := by
    rw [List.length_drop, r.length_bytes]
  obtain ⟨a, b, c, d, rest, hbytes, hrest⟩ := Register.exists_word hcrc
  cases List.eq_nil_of_length_eq_zero hrest
  unfold words storedCrc
  rw [r.drop_one, Register.words_append hbody, hbytes]
  rfl

/-- **A report carries the right checksum if its words leave the register
empty.** -/
theorem sound_iff (r : Report) :
    r.storedCrc = r.computedCrc ↔ r.words.foldl Register.feedWord Register.initial = 0 := by
  have hbody : r.body.bytes.length = 4 * 15 := r.body.length_bytes
  have hcomputed : r.computedCrc.toBitVec
      = (Register.words r.body.bytes).foldl Register.feedWord Register.initial := by
    rw [Register.words_eq_wordsOf hbody]
    exact Register.feed_reverseWords r.body.bytes Register.initial
  rw [words_eq, List.foldl_append, ← hcomputed, ← UInt32.toBitVec_inj]
  show _ ↔ Register.shifts 32 (r.computedCrc.toBitVec ^^^ r.storedCrc.toBitVec) = 0
  constructor
  · intro h
    rw [h, BitVec.xor_self]
    exact Register.shifts_zero 32
  · intro h
    have hempty := Decidable.not_not.mp fun hne => Register.shifts_ne_zero 32 hne h
    exact (BitVec.xor_eq_zero_iff.mp hempty).symm

/-! ## §2. Differences. -/

/-- The words in which the bits stand that two reports differ in. -/
def difference (r r' : Report) : List (BitVec 32) := r.words.zipWith (· ^^^ ·) r'.words

theorem length_difference (r r' : Report) : (r.difference r').length = 16 := by
  rw [difference, List.length_zipWith, r.length_words, r'.length_words, Nat.min_self]

/-- **What is made of a sound report is judged by the difference alone.** -/
theorem sound_iff_difference {r : Report} (h : r.storedCrc = r.computedCrc) (r' : Report) :
    r'.storedCrc = r'.computedCrc ↔ (r.difference r').foldl Register.feedWord 0 = 0 := by
  have hlength : r.words.length = r'.words.length := by rw [r.length_words, r'.length_words]
  have hboth := Register.feed_xor hlength Register.initial Register.initial
  rw [BitVec.xor_self, r.sound_iff.mp h] at hboth
  rw [r'.sound_iff, difference, show (0 : BitVec 32) = 0#32 from rfl, hboth,
    BitVec.ofNat_eq_ofNat, BitVec.zero_xor]

/-- The bit at a place behind the id, from the lowest bit of the first byte on. -/
def bit (r : Report) (p : Nat) : Bool := (r.byte (1 + p / 8)).toBitVec.getLsbD (p % 8)

/-- The places behind the id at which two reports have different bits. -/
def changes (r r' : Report) : List Nat := (List.range 512).filter fun p => r.bit p != r'.bit p

theorem bitAt_words (r : Report) (p : Nat) : Register.bitAt r.words p = r.bit p := by
  have hbyte : (r.bytes.drop 1).getD (p / 8) 0 = r.byte (1 + p / 8) := by
    rw [Block.byte, List.getD_eq_getElem?_getD, List.getElem?_drop, ← List.getD_eq_getElem?_getD]
  rw [words, Register.bitAt_words r.length_frame, hbyte, bit]

theorem bitAt_difference (r r' : Report) (p : Nat) :
    Register.bitAt (r.difference r') p = (r.bit p != r'.bit p) := by
  have hlength : r.words.length = r'.words.length := by rw [r.length_words, r'.length_words]
  rw [difference, Register.bitAt_xor hlength, bitAt_words, bitAt_words]

/-! ## §3. Damage. -/

/-- **Damage to a report**, whatever becomes of the id. -/
inductive Damaged (r r' : Report) : Prop
  /-- Something is changed, and nothing but bytes of one word. -/
  | word {k : Nat} (hk : k < 16)
      (hsome : ∃ offset, 1 ≤ offset ∧ offset < 65 ∧ r.byte offset ≠ r'.byte offset)
      (hword : ∀ offset, 1 ≤ offset → offset < 65 → r.byte offset ≠ r'.byte offset →
        1 + 4 * k ≤ offset ∧ offset < 1 + 4 * k + 4) : Damaged r r'
  /-- Exactly two bits are changed. -/
  | bits (htwo : (r.changes r').length = 2) : Damaged r r'

/-- Different bytes have a different bit. -/
theorem exists_bit_ne {r r' : Report} {offset : Nat} (hpos : 1 ≤ offset)
    (h : r.byte offset ≠ r'.byte offset) :
    ∃ p, 1 + p / 8 = offset ∧ r.bit p ≠ r'.bit p := by
  have hbits : ¬ ∀ i < 8, (r.byte offset).toBitVec.getLsbD i = (r'.byte offset).toBitVec.getLsbD i :=
    fun hsame => h (UInt8.toBitVec_inj.mp (BitVec.eq_of_getLsbD_eq hsame))
  simp only [Classical.not_forall] at hbits
  obtain ⟨i, hi, hbit⟩ := hbits
  have hdiv : 1 + (8 * (offset - 1) + i) / 8 = offset := by omega
  have hmod : (8 * (offset - 1) + i) % 8 = i := by omega
  refine ⟨8 * (offset - 1) + i, hdiv, ?_⟩
  unfold bit
  rw [hdiv, hmod]
  exact hbit

/-- **Damage to one word is a difference of a single word.** -/
theorem difference_of_word {r r' : Report} {k : Nat} (hk : k < 16)
    (hsome : ∃ offset, 1 ≤ offset ∧ offset < 65 ∧ r.byte offset ≠ r'.byte offset)
    (hword : ∀ offset, 1 ≤ offset → offset < 65 → r.byte offset ≠ r'.byte offset →
      1 + 4 * k ≤ offset ∧ offset < 1 + 4 * k + 4) :
    ∃ w, w ≠ 0 ∧ r.difference r' = Register.single 16 k w := by
  have hlength := r.length_difference r'
  -- outside of the word no bit is changed
  have houtside : ∀ p < 512, p / 32 ≠ k → Register.bitAt (r.difference r') p = false := by
    intro p hp hplace
    rw [bitAt_difference]
    unfold bit
    by_cases hsame : r.byte (1 + p / 8) = r'.byte (1 + p / 8)
    · rw [hsame]
      exact bne_self_eq_false _
    · have hinside := hword _ (Nat.le_add_right 1 _) (by omega) hsame
      omega
  have hsingle : r.difference r' = Register.single 16 k ((r.difference r').getD k 0) := by
    apply Register.ext_bitAt
    · rw [hlength, Register.single, List.length_set, List.length_replicate]
    · intro p hp
      rw [hlength] at hp
      rw [Register.bitAt_single hk]
      by_cases hplace : p / 32 = k
      · rw [if_pos hplace, ← hplace]
        rfl
      · rw [if_neg hplace]
        exact houtside p hp hplace
  refine ⟨(r.difference r').getD k 0, fun hzero => ?_, hsingle⟩
  -- some bit is changed, so the word is not zero
  obtain ⟨offset, hpos, -, hne⟩ := hsome
  obtain ⟨p, -, hbit⟩ := exists_bit_ne hpos hne
  have hchanged := r.bitAt_difference r' p
  rw [hsingle, Register.bitAt_single hk, hzero] at hchanged
  have hsame : (r.bit p != r'.bit p) = false := by rw [← hchanged]; simp
  exact hbit (by simpa using hsame)

/-- Sixteen words with a single one among their bits. -/
def one (p : Nat) : List (BitVec 32) := Register.single 16 (p / 32) (BitVec.twoPow 32 (p % 32))

theorem length_one (p : Nat) : (one p).length = 16 := by
  rw [one, Register.single, List.length_set, List.length_replicate]

theorem bitAt_one {p : Nat} (hp : p < 512) (i : Nat) :
    Register.bitAt (one p) i = decide (i = p) := by
  have hword : p / 32 < 16 := by omega
  rw [one, Register.bitAt_single hword, BitVec.getLsbD_twoPow]
  by_cases hplace : i / 32 = p / 32
  · rw [if_pos hplace, decide_eq_true (Nat.mod_lt p (by decide)), Bool.true_and, decide_eq_decide]
    omega
  · have hne : i ≠ p := fun h => hplace (h ▸ rfl)
    rw [if_neg hplace, decide_eq_false hne]

/-- **What a single one leaves in an empty register**: itself, shifted from its
place to behind the end. -/
theorem feed_one {p : Nat} (hp : p < 512) :
    (one p).foldl Register.feedWord 0 = Register.shifts (p % 32 + 32 * (16 - p / 32)) 1 := by
  have hword : p / 32 < 16 := by omega
  have hone : Register.shifts (p % 32) 1 = BitVec.twoPow 32 (p % 32) := by
    rw [BitVec.twoPow_eq]
    apply Register.shifts_of_clear
    intro i hi
    have hplace : i ≠ 0 := by omega
    rw [BitVec.ofNat_eq_ofNat, BitVec.getLsbD_one]
    simp [hplace]
  rw [one, Register.feed_single hword, Register.shifts_add, hone]

/-- **Two changed bits are a difference of two single ones.** -/
theorem difference_of_bits {r r' : Report} (h : (r.changes r').length = 2) :
    ∃ p q, p ≠ q ∧ p < 512 ∧ q < 512 ∧ r.difference r' = (one p).zipWith (· ^^^ ·) (one q) := by
  obtain ⟨p, q, hchanges⟩ : ∃ p q, r.changes r' = [p, q] := by
    match r.changes r', h with
    | [p, q], _ => exact ⟨p, q, rfl⟩
  have hmem : ∀ i, i ∈ r.changes r' ↔ i = p ∨ i = q := by
    intro i
    rw [hchanges, List.mem_cons, List.mem_singleton]
  have hchanged : ∀ i, i ∈ r.changes r' ↔ i < 512 ∧ (r.bit i != r'.bit i) = true := by
    intro i
    rw [changes, List.mem_filter, List.mem_range]
  have hne : p ≠ q := by
    have hnodup : (r.changes r').Nodup := List.nodup_range.filter _
    rw [hchanges, List.nodup_cons, List.mem_singleton] at hnodup
    exact hnodup.1
  have hp : p < 512 := ((hchanged p).mp ((hmem p).mpr (.inl rfl))).1
  have hq : q < 512 := ((hchanged q).mp ((hmem q).mpr (.inr rfl))).1
  have hlength : (one p).length = (one q).length := by rw [length_one, length_one]
  refine ⟨p, q, hne, hp, hq, Register.ext_bitAt ?_ ?_⟩
  · rw [length_difference, List.length_zipWith, length_one, length_one, Nat.min_self]
  · intro i hi
    rw [length_difference] at hi
    rw [bitAt_difference, Register.bitAt_xor hlength, bitAt_one hp, bitAt_one hq]
    have hone : (r.bit i != r'.bit i) = true ↔ i = p ∨ i = q := by
      rw [← hmem, hchanged, and_iff_right hi]
    rw [Bool.eq_iff_iff, hone]
    by_cases hip : i = p
    · subst hip
      simp [hne]
    · simp [hip]

/-- Any other byte behind the id is damage to its word. -/
theorem damaged_update {r : Report} {offset : Nat} {value : UInt8} (hpos : 1 ≤ offset)
    (hlt : offset < 65) (hvalue : r.byte offset ≠ value) : r.Damaged (r.update offset value) := by
  have hself : (r.update offset value).byte offset = value := by
    simp [Block.byte, Block.update, List.getD_eq_getElem?_getD, r.length_bytes, hlt]
  refine .word (k := (offset - 1) / 4) (by omega) ⟨offset, hpos, hlt, ?_⟩ ?_
  · rw [hself]
    exact hvalue
  · intro i hi _ hne
    by_cases hsame : offset = i
    · omega
    · -- nothing else is changed
      refine absurd ?_ hne
      simp [Block.byte, Block.update, List.getD_eq_getElem?_getD, List.getElem?_set_ne hsame]

/-- **A damaged report carries a wrong checksum.** -/
theorem Damaged.unsound {r r' : Report} (hdamaged : r.Damaged r')
    (h : r.storedCrc = r.computedCrc) : r'.storedCrc ≠ r'.computedCrc := by
  rw [Ne, sound_iff_difference h]
  intro hempty
  cases hdamaged with
  | word hk hsome hword =>
    obtain ⟨w, hw, hdifference⟩ := difference_of_word hk hsome hword
    rw [hdifference, Register.feed_single hk] at hempty
    exact Register.shifts_ne_zero _ hw hempty
  | bits htwo =>
    obtain ⟨p, q, hne, hp, hq, hdifference⟩ := difference_of_bits htwo
    have hlength : (one p).length = (one q).length := by rw [length_one, length_one]
    have hboth := Register.feed_xor hlength 0 0
    rw [BitVec.xor_self, ← hdifference, feed_one hp, feed_one hq] at hboth
    -- so both would come out as the same, though they were shifted differently far
    have hsame := BitVec.xor_eq_zero_iff.mp (hboth.symm.trans hempty)
    have hplace := Register.shifts_one_inj (by omega) (by omega) hsame
    omega

/-! ## §4. What is read of damaged reports. -/

/-- Two reports with nothing different but the id. -/
def SameFrame (r r' : Report) : Prop := r.bytes.drop 1 = r'.bytes.drop 1

theorem SameFrame.refl (r : Report) : r.SameFrame r := rfl

/-- Two such reports are one string behind different ids. -/
theorem SameFrame.exists_frame {r r' : Report} (h : r.SameFrame r') :
    ∃ id id' frame hr hr', r = ⟨id :: frame, hr⟩ ∧ r' = ⟨id' :: frame, hr'⟩ := by
  obtain ⟨bytes, hr⟩ := r
  obtain ⟨bytes', hr'⟩ := r'
  match bytes, bytes', hr, hr', h with
  | id :: frame, id' :: frame', hr, hr', h =>
    have hframe : frame = frame' := h
    subst hframe
    exact ⟨id, id', frame, hr, hr', rfl, rfl⟩

end Report

/-- **Nobody looks at the id of a request.** -/
theorem Request.ofReport_of_sameFrame {r r' : Report} (h : r.SameFrame r') :
    ofReport r' = ofReport r := by
  obtain ⟨id, id', frame, hr, hr', rfl, rfl⟩ := h.exists_frame
  rfl

/-- **Nobody looks at the id of a response.** -/
theorem Response.ofReport_of_sameFrame {r r' : Report} (h : r.SameFrame r') (verify : Bool) :
    ofReport r' verify = ofReport r verify := by
  obtain ⟨id, id', frame, hr, hr', rfl, rfl⟩ := h.exists_frame
  rfl

/-- **No request is read in a damaged one.** -/
theorem Request.ofReport_of_damaged {q : Request} {r : Report} (h : q.toReport.Damaged r) :
    ofReport r = .error (.checksum r.storedCrc r.computedCrc) := by
  have hunsound := h.unsound (Report.storedCrc_sealed 0 q.body)
  unfold ofReport
  rw [if_neg hunsound]

/-- **No response is read in a damaged one**, where the checksum is looked at. -/
theorem Response.ofReport_of_damaged {p : Response} {r : Report} (h : p.toReport.Damaged r) :
    ofReport r true = .error (.crcMismatch r.computedCrc r.storedCrc) := by
  have hunsound := h.unsound (Report.storedCrc_sealed 0 p.body)
  unfold ofReport
  rw [if_pos ⟨rfl, hunsound⟩]

end OtpToken
