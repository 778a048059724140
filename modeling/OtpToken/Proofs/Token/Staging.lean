/-
  OtpToken.Proofs.Token.Staging
  ─────────────────────────────
  **A SECRET THAT COMES IN PIECES.**

  The host cuts a secret into pieces of thirty bytes; the wire fills the last
  one up with zeros; the token lays each piece over a buffer of its own width.
  `overlay_padTo` is one piece: what was there up to some offset is there up
  to the end of the piece afterwards, filled up with zeros as before.  With
  all pieces in place the buffer holds the whole secret (`afterPieces_count`).

  The host may take the buffer for wider than it is.  Then a piece that reaches
  past the end is cut there, and a piece that starts behind it is refused: the
  buffer holds the secret as far as there is room (`overlay_take_padTo`).
-/
import OtpToken.Client.Operation
import OtpToken.Token.Basic

namespace OtpToken

/-! ## §1. One piece. -/

/-- **A piece that is laid behind a filled-up prefix gives the longer prefix,
filled up.** -/
theorem Staged.overlay_padTo {capacity offset width : Nat} {secret : Bytes}
    (hoffset : offset ≤ secret.length) (hlen : secret.length ≤ capacity) :
    overlay (Bytes.padTo capacity (secret.take offset)) offset
        (Bytes.padTo width ((secret.drop offset).take width))
      = Bytes.padTo capacity (secret.take (offset + width)) := by
  have hprefix : (secret.take offset).length = offset := List.length_take_of_le hoffset
  have hsplit : secret.take (offset + width)
      = secret.take offset ++ (secret.drop offset).take width := List.take_add
  have hpiece : ((secret.drop offset).take width).length ≤ capacity - offset := by
    rw [List.length_take, List.length_drop]
    omega
  rw [hsplit]
  -- from here on only the two parts and their lengths matter
  generalize secret.take offset = front at hprefix
  generalize (secret.drop offset).take width = piece at hpiece
  subst hprefix
  have hbuffer : (Bytes.padTo capacity front).length = capacity := Bytes.length_padTo (by omega)
  have htaken : (Bytes.padTo width piece).take (capacity - front.length)
      = piece ++ List.replicate (min (capacity - front.length - piece.length)
          (width - piece.length)) 0 := by
    rw [Bytes.padTo, List.take_append, List.take_of_length_le hpiece, List.take_replicate]
  unfold overlay
  rw [hbuffer, htaken]
  unfold Bytes.padTo
  rw [List.take_left]
  dsimp only
  rw [List.drop_append, List.drop_of_length_le (by omega), List.nil_append,
    List.drop_replicate, List.append_assoc, List.append_assoc, List.replicate_append_replicate,
    List.append_assoc]
  congr 3
  simp only [List.length_append, List.length_replicate]
  omega

/-- What reaches past the end of the buffer is dropped. -/
theorem Staged.overlay_take (buffer bytes : Bytes) (offset : Nat) :
    overlay buffer offset (bytes.take (buffer.length - offset)) = overlay buffer offset bytes := by
  unfold overlay
  rw [List.take_take, Nat.min_self]

/-- Zeros behind what is cut away anyway make no difference. -/
theorem Bytes.take_padTo_take (width n : Nat) (bs : Bytes) :
    (padTo width (bs.take n)).take n = (padTo width bs).take n := by
  by_cases hlen : n ≤ bs.length
  · have hcut : (bs.take n).length = n := List.length_take_of_le hlen
    unfold padTo
    rw [List.take_append_of_le_length (Nat.le_of_eq hcut.symm), List.take_take, Nat.min_self,
      List.take_append_of_le_length hlen]
  · rw [List.take_of_length_le (Nat.le_of_not_le hlen)]

/-- **The same for a secret that may be longer than the buffer**: what is there is
the secret as far as there is room. -/
theorem Staged.overlay_take_padTo {capacity offset width : Nat} {secret : Bytes}
    (hoffset : offset ≤ secret.length) (hinside : offset ≤ capacity) :
    overlay (Bytes.padTo capacity ((secret.take capacity).take offset)) offset
        (Bytes.padTo width ((secret.drop offset).take width))
      = Bytes.padTo capacity ((secret.take capacity).take (offset + width)) := by
  have hcut : (secret.take capacity).length ≤ capacity := List.length_take_le _ _
  have hoffset' : offset ≤ (secret.take capacity).length := by
    rw [List.length_take]
    omega
  have hbuffer : (Bytes.padTo capacity ((secret.take capacity).take offset)).length = capacity := by
    refine Bytes.length_padTo (Nat.le_trans ?_ hcut)
    exact (List.take_sublist _ _).length_le
  -- of the piece only so much matters as a piece of the cut secret has
  have hpiece : ((secret.take capacity).drop offset).take width
      = ((secret.drop offset).take width).take (capacity - offset) := by
    rw [List.drop_take, List.take_take, List.take_take, Nat.min_comm]
  rw [← overlay_padTo hoffset' hcut, hpiece, ← overlay_take, ← overlay_take _ (Bytes.padTo width
    (((secret.drop offset).take width).take (capacity - offset))), hbuffer, Bytes.take_padTo_take]

/-! ## §2. All pieces. -/

/-- How many pieces the host cuts a secret into. -/
def Operation.pieceCount (secret : Bytes) : Nat := (secret.length + chunkWidth - 1) / chunkWidth

/-- The piece of a number. -/
def Operation.piece (secret : Bytes) (k : Nat) : UInt8 × Bytes :=
  (UInt8.ofNat k, (secret.drop (chunkWidth * k)).take chunkWidth)

theorem Operation.pieces_eq (secret : Bytes) :
    pieces chunkWidth secret = (List.range' 0 (pieceCount secret)).map (piece secret) := by
  rw [← List.range_eq_range']
  rfl

/-- Every piece but the last ends inside the secret. -/
theorem Operation.lt_length_of_lt_pieceCount {secret : Bytes} {k : Nat}
    (h : k < pieceCount secret) : chunkWidth * k < secret.length := by
  unfold pieceCount chunkWidth at h
  unfold chunkWidth
  omega

namespace Staged

/-- What is staged once a name and the first `k` pieces of a secret came
in. -/
def afterPieces (name : String) (capacity : Nat) (secret : Bytes) (k : Nat) : Staged where
  name := some name
  secret :=
    if k = 0 then none else some (Bytes.padTo capacity (secret.take (chunkWidth * k)))

/-- The buffer that the next piece is laid over. -/
theorem getD_afterPieces (name : String) (capacity : Nat) (secret : Bytes) (k : Nat) :
    (afterPieces name capacity secret k).secret.getD (List.replicate capacity 0)
      = Bytes.padTo capacity (secret.take (chunkWidth * k)) := by
  unfold afterPieces
  by_cases hk : k = 0
  · subst hk
    rfl
  · rw [if_neg hk]
    rfl

section Piece

variable {name : String} {capacity : Nat} {secret : Bytes} {k : Nat}

/-- A piece has its number in one byte. -/
theorem toNat_piece (hlen : secret.length ≤ Hmac.blockLength) (hk : k < Operation.pieceCount secret) :
    (Operation.piece secret k).1.toNat = k := by
  have hinside : chunkWidth * k < secret.length := Operation.lt_length_of_lt_pieceCount hk
  show (UInt8.ofNat k).toNat = k
  rw [UInt8.toNat_ofNat']
  unfold Hmac.blockLength at hlen
  unfold chunkWidth at hinside
  omega

/-- **The next piece is taken, and then one more piece is staged.** -/
theorem withChunk_afterPieces (hlen : secret.length ≤ Hmac.blockLength)
    (hk : k < Operation.pieceCount secret) (hroom : chunkWidth * k < capacity) :
    (afterPieces name capacity (secret.take capacity) k).withChunk capacity
        (Operation.piece secret k).1 (Bytes.padTo chunkWidth (Operation.piece secret k).2)
      = (.ok (), afterPieces name capacity (secret.take capacity) (k + 1)) := by
  have hinside : chunkWidth * k < secret.length := Operation.lt_length_of_lt_pieceCount hk
  have hpiece : (Operation.piece secret k).2.length ≤ chunkWidth := List.length_take_le _ _
  -- the offset lies inside the buffer, and the piece is not cut again
  unfold withChunk
  dsimp only
  rw [toNat_piece hlen hk, Nat.mul_comm k, if_neg (Nat.not_le_of_lt hroom), getD_afterPieces,
    List.take_of_length_le (Nat.le_of_eq (Bytes.length_padTo hpiece))]
  show (Except.ok (), Staged.mk _ (some (overlay _ _
    (Bytes.padTo chunkWidth ((secret.drop (chunkWidth * k)).take chunkWidth))))) = _
  rw [overlay_take_padTo (Nat.le_of_lt hinside) (Nat.le_of_lt hroom), ← Nat.mul_succ]
  rfl

/-- A piece behind the end of the buffer is refused. -/
theorem withChunk_of_no_room (s : Staged) (hlen : secret.length ≤ Hmac.blockLength)
    (hk : k < Operation.pieceCount secret) (hroom : ¬ chunkWidth * k < capacity) (data : Bytes) :
    s.withChunk capacity (Operation.piece secret k).1 data = (.error .notSupported, s) := by
  unfold withChunk
  dsimp only
  rw [toNat_piece hlen hk, Nat.mul_comm k, if_pos (Nat.le_of_not_lt hroom)]

end Piece

/-- **With all pieces the whole secret is staged, as far as there is room**, and
without any piece no secret. -/
theorem afterPieces_count (name : String) (capacity : Nat) (secret : Bytes) :
    afterPieces name capacity (secret.take capacity) (Operation.pieceCount secret)
      = ⟨some name,
          if secret = [] then none else some (Bytes.padTo capacity (secret.take capacity))⟩ := by
  unfold afterPieces
  by_cases hempty : secret = []
  · subst hempty
    rfl
  · have hpos : 0 < secret.length := List.length_pos_iff.mpr hempty
    have hcount : Operation.pieceCount secret ≠ 0 := by
      unfold Operation.pieceCount chunkWidth
      omega
    have hwhole : (secret.take capacity).length ≤ chunkWidth * Operation.pieceCount secret := by
      rw [List.length_take]
      unfold Operation.pieceCount chunkWidth
      omega
    rw [if_neg hcount, if_neg hempty, List.take_of_length_le hwhole]

end Staged

end OtpToken
