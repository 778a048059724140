/-
  OtpToken.Proofs.Token.Chunk
  ───────────────────────────
  **WHERE A PIECE OF A SECRET GOES.**

  A piece has thirty bytes, and a token has room for twenty or forty, so some piece
  always reaches past the end.  It is cut there, whatever is in it: the wire fills
  every piece up with zeros, and a token cannot tell those from the bytes of a key.

      room       piece 0             piece 1             from piece 2 on
      20         bytes 0 to 19       refused             refused
      40         bytes 0 to 29       bytes 30 to 39      refused

  `getElem?_overlay` is one piece, byte by byte; `chunks_over_runs` says what every
  piece does to every token.
-/
import OtpToken.Proofs.Token.Alike
import OtpToken.Proofs.Token.Sound
import OtpToken.Proofs.Token.Staging

namespace OtpToken

/-! ## §1. One piece, byte by byte. -/

namespace Staged

variable {buffer bytes bytes' : Bytes} {offset i : Nat}

/-- **Under the piece is the piece, and beside it is what was there.** -/
theorem getElem?_overlay (hi : i < buffer.length) :
    (overlay buffer offset bytes)[i]?
      = if offset ≤ i ∧ i < offset + bytes.length then bytes[i - offset]? else buffer[i]? := by
  have hcut : (bytes.take (buffer.length - offset)).length
      = min (buffer.length - offset) bytes.length := List.length_take
  have hfront : (buffer.take offset).length = min offset buffer.length := List.length_take
  unfold overlay
  dsimp only
  by_cases hbefore : i < offset
  · -- in front of the piece
    rw [if_neg (by omega), List.append_assoc, List.getElem?_append_left (by omega),
      List.getElem?_take_of_lt hbefore]
  · rw [List.append_assoc, List.getElem?_append_right (by omega), hfront]
    by_cases hinside : i < offset + bytes.length
    · -- under the piece, which is cut only behind the end of the buffer
      rw [if_pos (by omega), List.getElem?_append_left (by omega),
        List.getElem?_take_of_lt (by omega)]
      congr 1
      omega
    · rw [if_neg (by omega), List.getElem?_append_right (by omega), List.getElem?_drop]
      congr 1
      omega

/-- What would lie behind the end of the buffer makes no difference. -/
theorem overlay_congr (buffer : Bytes) (offset : Nat)
    (h : bytes.take (buffer.length - offset) = bytes'.take (buffer.length - offset)) :
    overlay buffer offset bytes = overlay buffer offset bytes' := by
  rw [← overlay_take buffer bytes, h, overlay_take]

end Staged

/-! ## §2. One command. -/

namespace Token

variable (t : Token) (temp : Secret) (chunk : UInt8) (data : Secret)

/-- What a piece of a secret is laid over: what is staged, or zeros. -/
def stagedBuffer : Bytes :=
  t.staged.secret.getD (List.replicate t.capabilities.secretLength 0)

/-- **All that a piece of a secret can do.** -/
theorem execute_sendSecret :
    t.execute (.sendOtpData temp .secret chunk data)
      = if t.session.admits .admin temp.bytes then
          if chunk.toNat * chunkWidth < t.capabilities.secretLength then
            (.ok .empty, { t with
              staged := { t.staged with
                secret := some (Staged.overlay t.stagedBuffer (chunk.toNat * chunkWidth)
                  (data.bytes.take chunkWidth)) } })
          else (.error .notSupported, t)
        else (.error .notAuthorized, t) := by
  show t.withTemp .admin temp (t.stage .secret chunk data.bytes) = _
  unfold withTemp stage Staged.withChunk
  dsimp only
  by_cases hroom : chunk.toNat * chunkWidth < t.capabilities.secretLength
  · rw [if_pos hroom, if_neg (Nat.not_le.mpr hroom)]
    rfl
  · rw [if_neg hroom, if_pos (Nat.not_lt.mp hroom)]
    rfl

theorem sendSecret_ok_iff :
    (t.execute (.sendOtpData temp .secret chunk data)).1.status = .ok
      ↔ t.session.admits .admin temp.bytes = true
        ∧ chunk.toNat * chunkWidth < t.capabilities.secretLength := by
  rw [execute_sendSecret]
  by_cases htemp : t.session.admits .admin temp.bytes = true
  · rw [if_pos htemp]
    by_cases hroom : chunk.toNat * chunkWidth < t.capabilities.secretLength
    · rw [if_pos hroom]
      exact iff_of_true rfl ⟨htemp, hroom⟩
    · rw [if_neg hroom]
      exact iff_of_false Status.noConfusion fun h => hroom h.2
  · rw [if_neg htemp]
    exact iff_of_false Status.noConfusion fun h => htemp h.1

/-- A piece that is not taken changes nothing. -/
theorem sendSecret_refused
    (h : (t.execute (.sendOtpData temp .secret chunk data)).1.status ≠ .ok) :
    (t.execute (.sendOtpData temp .secret chunk data)).2 = t := by
  rw [execute_sendSecret] at h ⊢
  split
  · split
    · next htemp hroom =>
      rw [if_pos htemp, if_pos hroom] at h
      exact absurd rfl h
    · rfl
  · rfl

/-- A piece that is taken, on a token whose buffer has the full length. -/
theorem staged_sendSecret (hbuffer : t.stagedBuffer.length = t.capabilities.secretLength)
    (hdone : (t.execute (.sendOtpData temp .secret chunk data)).1.status = .ok) :
    ∃ after, (t.execute (.sendOtpData temp .secret chunk data)).2
          = { t with staged := { t.staged with secret := some after } }
      ∧ after.length = t.capabilities.secretLength
      ∧ ∀ i < t.capabilities.secretLength,
          after[i]? = if chunk.toNat * chunkWidth ≤ i
                ∧ i < chunk.toNat * chunkWidth + (data.bytes.take chunkWidth).length
              then (data.bytes.take chunkWidth)[i - chunk.toNat * chunkWidth]?
              else t.stagedBuffer[i]? := by
  rw [execute_sendSecret] at hdone ⊢
  split at hdone
  · split at hdone
    · next htemp hroom =>
      rw [if_pos htemp, if_pos hroom]
      refine ⟨_, rfl, ?_, fun i hi => Staged.getElem?_overlay (hbuffer ▸ hi)⟩
      rw [Staged.length_overlay (hbuffer ▸ Nat.le_of_lt hroom), hbuffer]
    · cases hdone
  · cases hdone

/-- Bytes without room are not looked at. -/
theorem sendSecret_congr {data data' : Secret}
    (hbuffer : t.stagedBuffer.length = t.capabilities.secretLength)
    (h : (data.bytes.take chunkWidth).take (t.capabilities.secretLength - chunk.toNat * chunkWidth)
      = (data'.bytes.take chunkWidth).take
          (t.capabilities.secretLength - chunk.toNat * chunkWidth)) :
    t.execute (.sendOtpData temp .secret chunk data)
      = t.execute (.sendOtpData temp .secret chunk data') := by
  have hsame := Staged.overlay_congr t.stagedBuffer (chunk.toNat * chunkWidth) (hbuffer ▸ h)
  rw [execute_sendSecret, execute_sendSecret, hsame]

/-- A sound token has a buffer of the full length. -/
theorem Sound.length_stagedBuffer {t : Token} (h : t.Sound) :
    t.stagedBuffer.length = t.capabilities.secretLength := Staged.length_buffer h.staged

end Token

/-! ## §3. Dialogues. -/

namespace Dialogue

/-- **A piece of a secret**, sent to a token that has heard any reports.

* It is taken exactly if the admin is logged in with what it presents and it begins
  where there is room.
* A piece that is not taken changes nothing at all.
* A piece that is taken is staged as far as there is room: its bytes stand at their
  places, every other byte is as it was, and zero if there was none.
* Its bytes without room are dropped: whatever they are, the answer is the same, and so
  is the token. -/
theorem chunks_over_runs (config : TokenConfig) (reports : List Report) (temp data : Secret)
    (chunk : UInt8) :
    let t := ((start config).run reports).token
    let r := t.execute (.sendOtpData temp .secret chunk data)
    let room := t.capabilities.secretLength
    let offset := chunk.toNat * chunkWidth
    let piece := data.bytes.take chunkWidth
    (r.1.status = .ok ↔ t.session.admits .admin temp.bytes = true ∧ offset < room)
      ∧ (r.1.status ≠ .ok → r.2 = t)
      ∧ (r.1.status = .ok →
          ∃ after, r.2 = { t with staged := { t.staged with secret := some after } }
            ∧ after.length = room
            ∧ ∀ i < room, after[i]?
                = if offset ≤ i ∧ i < offset + piece.length then piece[i - offset]?
                  else (t.staged.secret.getD (List.replicate room 0))[i]?)
      ∧ ∀ data' : Secret,
          (data'.bytes.take chunkWidth).take (room - offset) = piece.take (room - offset) →
          t.execute (.sendOtpData temp .secret chunk data') = r := by
  intro t r room offset piece
  have hbuffer := (sound_run config reports).length_stagedBuffer
  refine ⟨t.sendSecret_ok_iff temp chunk data, t.sendSecret_refused temp chunk data,
    t.staged_sendSecret temp chunk data hbuffer, fun data' hsame => ?_⟩
  exact t.sendSecret_congr temp chunk hbuffer hsame

/-- A token on which the admin is logged in. -/
def loggedIn : Dialogue :=
  (start .factory).run <| Command.reports .binary
    [.firstAuthenticate (.ofText "12345678") (.ofText "temp")]

set_option maxRecDepth 20000 in
/-- It is not true that a piece is taken only if what has no room is zero: of these
thirty bytes ten have room, and the piece is taken. -/
theorem not_all_chunks_whole :
    ¬ ∀ (config : TokenConfig) (reports : List Report) (temp data : Secret) (chunk : UInt8),
        let t := ((start config).run reports).token
        data.bytes.length = chunkWidth →
        (t.execute (.sendOtpData temp .secret chunk data)).1.status = .ok →
        ∀ i, t.capabilities.secretLength ≤ chunk.toNat * chunkWidth + i →
          data.bytes.getD i 0 = 0 := by
  intro h
  have hdone : (loggedIn.token.execute (.sendOtpData (.ofText "temp") .secret 1
      ⟨List.replicate chunkWidth 1⟩)).1.status = .ok := by decide +kernel
  have hroom : loggedIn.token.capabilities.secretLength ≤ (1 : UInt8).toNat * chunkWidth + 10 := by
    decide +kernel
  unfold loggedIn at hdone hroom
  have hzero := h _ _ _ _ _ rfl hdone 10 hroom
  cases hzero

end Dialogue

end OtpToken
