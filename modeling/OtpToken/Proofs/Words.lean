/-
  OtpToken.Proofs.Words
  ─────────────────────
  **THE CHECKSUM, WORD BY WORD.**

  The hardware takes a string in words of four bytes, the least significant byte first,
  and fills the last word up with zeros (`Register.wordsOf`).  Each word enters the
  register as a whole and is shifted through.

  `checksum` is fed byte by byte instead, from the top of each word down.  Four such bytes
  do what their word does (`Register.feed_word`), whatever is in the register, and so all
  of them do what the words of the string do (`Register.feed_reverseWords`).  Zeros that
  fill the last word up change no word, and therefore no checksum.
-/
import OtpToken.Proofs.Checksum

namespace OtpToken

/-- Zeros at the upper end of a number do not count. -/
theorem LittleEndian.decode_append_zeros (bs : Bytes) (n : Nat) :
    decode (bs ++ List.replicate n 0) = decode bs := by
  induction bs with
  | nil =>
    induction n with
    | zero => rfl
    | succ n ih => simp_all [List.replicate_succ, decode]
  | cons b bs ih => simp only [List.cons_append, decode, ih]

namespace Register

/-! ## §1. The words of any string. -/

/-- How many words a string has, the last one perhaps only in part. -/
def wordCount (bs : Bytes) : Nat := (bs.length + 3) / 4

/-- One word of a string, the least significant byte first.  Bytes that the string does
not have count as zero. -/
def wordAt (bs : Bytes) (k : Nat) : BitVec 32 :=
  BitVec.ofNat 32 (LittleEndian.decode ((bs.drop (4 * k)).take 4))

/-- The words of a string. -/
def wordsOf (bs : Bytes) : List (BitVec 32) := (List.range (wordCount bs)).map (wordAt bs)

/-- Four bytes are a word, and the words behind them are those of the rest. -/
theorem wordsOf_cons (a b c d : UInt8) (rest : Bytes) :
    wordsOf (a :: b :: c :: d :: rest) = word a b c d :: wordsOf rest := by
  have hcount : wordCount (a :: b :: c :: d :: rest) = wordCount rest + 1 := by
    unfold wordCount
    simp only [List.length_cons]
    omega
  unfold wordsOf
  rw [hcount, List.range_succ_eq_map, List.map_cons, List.map_map]
  rfl

/-- A string of whole words has no other words. -/
theorem words_eq_wordsOf {n : Nat} {bs : Bytes} (h : bs.length = 4 * n) :
    words bs = wordsOf bs := by
  induction n generalizing bs with
  | zero =>
    cases List.eq_nil_of_length_eq_zero h
    rfl
  | succ n ih =>
    obtain ⟨a, b, c, d, rest, rfl, hrest⟩ := exists_word h
    rw [wordsOf_cons, ← ih hrest]
    rfl

/-- Zeros behind a string change none of its words. -/
theorem wordAt_append_zeros (bs : Bytes) (n k : Nat) :
    wordAt (bs ++ List.replicate n 0) k = wordAt bs k := by
  unfold wordAt
  rw [List.drop_append, List.take_append, List.drop_replicate, List.take_replicate,
    LittleEndian.decode_append_zeros]

/-- **Filling the last word up changes no word.** -/
theorem wordsOf_append_zeros (bs : Bytes) (n : Nat) (h : 4 * wordCount bs = bs.length + n) :
    wordsOf (bs ++ List.replicate n 0) = wordsOf bs := by
  have hcount : wordCount (bs ++ List.replicate n 0) = wordCount bs := by
    show ((bs ++ List.replicate n 0).length + 3) / 4 = _
    rw [List.length_append, List.length_replicate, ← h]
    omega
  unfold wordsOf
  rw [hcount]
  exact List.map_congr_left fun k _ => wordAt_append_zeros bs n k

/-- The string filled up to whole words has the words of the string. -/
theorem wordsOf_padTo (bs : Bytes) :
    wordsOf (Bytes.padTo (4 * wordCount bs) bs) = wordsOf bs := by
  apply wordsOf_append_zeros
  unfold wordCount
  omega

/-! ## §2. Bytes from the top of a word down. -/

/-- The bytes of a word from the top down. -/
theorem encode_word (a b c d : UInt8) : BigEndian.encode 4 (word a b c d).toNat = [d, c, b, a] := by
  have hbytes : LittleEndian.encode 4 (word a b c d).toNat = [a, b, c, d] := by
    have hlt := LittleEndian.decode_lt [a, b, c, d]
    simp only [List.length_cons, List.length_nil] at hlt
    unfold word
    rw [BitVec.toNat_ofNat, Nat.mod_eq_of_lt hlt]
    exact LittleEndian.encode_decode [a, b, c, d]
  unfold BigEndian.encode
  rw [hbytes]
  rfl

/-- Every word is made of four bytes. -/
theorem exists_word_eq (w : BitVec 32) : ∃ a b c d, w = word a b c d := by
  have hw : w.toNat < Nat.pow 256 4 := w.isLt
  match hbytes : LittleEndian.encode 4 w.toNat, LittleEndian.length_encode 4 w.toNat with
  | [a, b, c, d], _ =>
    refine ⟨a, b, c, d, ?_⟩
    unfold word
    rw [← hbytes, LittleEndian.decode_encode_of_lt 4 hw, BitVec.ofNat_toNat, BitVec.setWidth_eq]

/-- **The bytes of a word from the top down do what the word does.** -/
theorem feed_word (r w : BitVec 32) :
    (BigEndian.encode 4 w.toNat).foldl feedByte r = feedWord r w := by
  obtain ⟨a, b, c, d, rfl⟩ := exists_word_eq w
  rw [encode_word]
  exact feed_bytes r a b c d

/-- The same for many words. -/
theorem feed_words (ws : List (BitVec 32)) (r : BitVec 32) :
    (ws.flatMap fun w => BigEndian.encode 4 w.toNat).foldl feedByte r = ws.foldl feedWord r := by
  induction ws generalizing r with
  | nil => rfl
  | cons w ws ih => rw [List.flatMap_cons, List.foldl_append, feed_word, ih, List.foldl_cons]

/-- The bytes of a single word. -/
theorem flatMap_wordsOf (a b c d : UInt8) :
    ((wordsOf [a, b, c, d]).flatMap fun w => BigEndian.encode 4 w.toNat) = [d, c, b, a] := by
  rw [wordsOf_cons, List.flatMap_cons, encode_word]
  rfl

/-- **What `checksum` feeds are the words of the string, each from the top down.** -/
theorem reverseWords_eq (bs : Bytes) :
    reverseWords bs = (wordsOf bs).flatMap fun w => BigEndian.encode 4 w.toNat := by
  fun_induction reverseWords bs with
  | case1 => rfl
  -- the last word is filled up
  | case2 a =>
    rw [← wordsOf_append_zeros [a] 3 (by simp [wordCount])]
    exact (flatMap_wordsOf a 0 0 0).symm
  | case3 a b =>
    rw [← wordsOf_append_zeros [a, b] 2 (by simp [wordCount])]
    exact (flatMap_wordsOf a b 0 0).symm
  | case4 a b c =>
    rw [← wordsOf_append_zeros [a, b, c] 1 (by simp [wordCount])]
    exact (flatMap_wordsOf a b c 0).symm
  | case5 a b c d rest ih =>
    rw [wordsOf_cons, List.flatMap_cons, encode_word, ← ih]
    rfl

/-- **Feeding bytes is feeding their words**, whatever is in the register. -/
theorem feed_reverseWords (bs : Bytes) (r : BitVec 32) :
    (reverseWords bs).foldl feedByte r = (wordsOf bs).foldl feedWord r := by
  rw [reverseWords_eq, feed_words]

end Register

/-! ## §3. The checksum. -/

/-- The checksum is what the hardware leaves in its register. -/
theorem checksum_eq_ofWords (bs : Bytes) :
    checksum bs = ⟨Register.ofWords (Register.wordsOf bs)⟩ :=
  congrArg UInt32.ofBitVec (Register.feed_reverseWords bs Register.initial)

/-- **The checksum is that of the hardware**, for a string of any length: the bytes it is
fed are those of the words from the top down, the register holds what the words one by
one leave in it, and the zeros that fill the last word up do not count. -/
theorem checksum_by_words (bs : Bytes) :
    reverseWords bs = ((Register.wordsOf bs).flatMap fun w => BigEndian.encode 4 w.toNat)
    ∧ checksum bs = ⟨Register.ofWords (Register.wordsOf bs)⟩
    ∧ checksum (Bytes.padTo (4 * Register.wordCount bs) bs) = checksum bs := by
  refine ⟨Register.reverseWords_eq bs, checksum_eq_ofWords bs, ?_⟩
  rw [checksum_eq_ofWords, Register.wordsOf_padTo, checksum_eq_ofWords]

example : checksum [0x78, 0x56, 0x34, 0x12] = 0xDF8A8A2B := by decide +kernel

end OtpToken
