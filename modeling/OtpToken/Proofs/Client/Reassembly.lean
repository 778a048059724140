/-
  OtpToken.Proofs.Client.Reassembly
  ─────────────────────────────────
  **THE PIECES OF A SECRET MAY COME IN ANY ORDER.**

  The host cuts a secret into pieces, the wire fills the last one up with zeros, and the
  token lays every piece at its own place.  So it does not matter in which order they come
  nor how often: `Staged.gathered` is the buffer with some pieces in place, one more piece
  is one more place (`overlay_gathered`), and with all of them in place the buffer holds
  the secret (`gathered_all`).  The zeros behind the last piece fall on zeros, or behind
  the end of the buffer.

  Nothing of what was staged before is left: the name comes first and starts over.
-/
import OtpToken.Proofs.Client.SlotWrite
import OtpToken.Proofs.Token.Chunk

namespace OtpToken

/-! ## §1. Some pieces in place. -/

/-- Byte by byte a string that is filled up has zeros where there was nothing. -/
theorem Bytes.getElem?_padTo {width i : Nat} {bs : Bytes} (hi : i < width) :
    (padTo width bs)[i]? = some (bs.getD i 0) := by
  unfold padTo
  by_cases h : i < bs.length
  · rw [List.getElem?_append_left h, List.getElem?_eq_getElem h, List.getD_eq_getElem?_getD,
      List.getElem?_eq_getElem h]
    rfl
  · rw [List.getElem?_append_right (Nat.not_lt.mp h), List.getElem?_replicate_of_lt (by omega),
      List.getD_eq_getElem?_getD, List.getElem?_eq_none (Nat.not_lt.mp h)]
    rfl

/-- Strings of one length are the same if they are so byte by byte. -/
theorem Bytes.eq_of_getElem? {n : Nat} {a b : Bytes} (ha : a.length = n) (hb : b.length = n)
    (h : ∀ i < n, a[i]? = b[i]?) : a = b := by
  apply List.ext_getElem?
  intro i
  by_cases hi : i < n
  · exact h i hi
  · rw [List.getElem?_eq_none (by omega), List.getElem?_eq_none (by omega)]

namespace Staged

/-- The buffer with the pieces of these numbers in place, and zeros everywhere else. -/
def gathered (capacity : Nat) (secret : Bytes) (ks : List Nat) : Bytes :=
  (List.range capacity).map fun i => if i / chunkWidth ∈ ks then secret.getD i 0 else 0

variable {capacity k : Nat} {secret : Bytes} {ks : List Nat}

theorem length_gathered (capacity : Nat) (secret : Bytes) (ks : List Nat) :
    (gathered capacity secret ks).length = capacity := by
  unfold gathered
  rw [List.length_map, List.length_range]

theorem getElem?_gathered {i : Nat} (hi : i < capacity) :
    (gathered capacity secret ks)[i]?
      = some (if i / chunkWidth ∈ ks then secret.getD i 0 else 0) := by
  unfold gathered
  rw [List.getElem?_map, List.getElem?_range hi]
  rfl

/-- No piece is in place at first. -/
theorem gathered_nil (capacity : Nat) (secret : Bytes) :
    gathered capacity secret [] = List.replicate capacity 0 := by
  unfold gathered
  simp only [List.not_mem_nil, if_false, List.map_const', List.length_range]

/-- A piece of a secret is what the secret has at its place. -/
theorem getElem?_piece {i : Nat} (hlow : k * chunkWidth ≤ i)
    (hhigh : i < k * chunkWidth + chunkWidth) :
    (Bytes.padTo chunkWidth (Operation.piece secret k).2)[i - k * chunkWidth]?
      = some (secret.getD i 0) := by
  rw [Bytes.getElem?_padTo (by omega)]
  show some ((((secret.drop (chunkWidth * k)).take chunkWidth).getD _ 0)) = _
  rw [List.getD_eq_getElem?_getD, List.getElem?_take_of_lt (by omega), List.getElem?_drop,
    List.getD_eq_getElem?_getD]
  congr 3
  rw [Nat.mul_comm chunkWidth k]
  omega

/-- **One more piece is one more place**, whichever pieces are in place already. -/
theorem overlay_gathered (hroom : k * chunkWidth < capacity) :
    overlay (gathered capacity secret ks) (k * chunkWidth)
        (Bytes.padTo chunkWidth (Operation.piece secret k).2)
      = gathered capacity secret (k :: ks) := by
  have hlength : (Bytes.padTo chunkWidth (Operation.piece secret k).2).length = chunkWidth :=
    Bytes.length_padTo (List.length_take_le _ _)
  have hbuffer := length_gathered capacity secret ks
  have hover : (overlay (gathered capacity secret ks) (k * chunkWidth)
      (Bytes.padTo chunkWidth (Operation.piece secret k).2)).length = capacity := by
    rw [length_overlay (by omega), hbuffer]
  refine Bytes.eq_of_getElem? hover (length_gathered _ _ _) fun i hi => ?_
  rw [getElem?_overlay (by omega), getElem?_gathered hi, getElem?_gathered hi, hlength]
  -- the piece covers just the places with its number
  have hplace : k * chunkWidth ≤ i ∧ i < k * chunkWidth + chunkWidth ↔ i / chunkWidth = k := by
    unfold chunkWidth
    omega
  by_cases hk : i / chunkWidth = k
  · obtain ⟨hlow, hhigh⟩ := hplace.mpr hk
    have hmem : i / chunkWidth ∈ k :: ks := by
      rw [hk]
      exact List.mem_cons_self
    rw [if_pos ⟨hlow, hhigh⟩, getElem?_piece hlow hhigh, if_pos hmem]
  · rw [if_neg fun h => hk (hplace.mp h)]
    congr 2
    simp [hk]

/-- **With all pieces in place the buffer holds the secret**, filled up with zeros. -/
theorem gathered_all (hlen : secret.length ≤ capacity)
    (hall : ∀ k < Operation.pieceCount secret, k ∈ ks) :
    gathered capacity secret ks = Bytes.padTo capacity secret := by
  refine Bytes.eq_of_getElem? (length_gathered _ _ _) (Bytes.length_padTo hlen) fun i hi => ?_
  rw [getElem?_gathered hi, Bytes.getElem?_padTo hi]
  by_cases hinside : i < secret.length
  · -- every byte of the secret is in some piece
    have hpiece : i / chunkWidth < Operation.pieceCount secret := by
      unfold Operation.pieceCount chunkWidth
      omega
    rw [if_pos (hall _ hpiece)]
  · have hzero : secret.getD i 0 = 0 := by
      rw [List.getD_eq_getElem?_getD, List.getElem?_eq_none (Nat.not_lt.mp hinside)]
      rfl
    rw [hzero, ite_self]

end Staged

/-! ## §2. Commands that are all done. -/

/-- A host has requests for these commands, a token answers every one of them that it is
done, and is `t'` afterwards. -/
def Token.Accepts (t : Token) (c : Client) (cs : List Command) (t' : Token) : Prop :=
  ∃ qs, cs.mapM c.request = .ok qs
    ∧ t.replies (qs.map Request.toReport)
      = qs.map (fun q => .ok (Token.respond q (.ok .empty)).toReport)
    ∧ t.after (qs.map Request.toReport) = t'

/-- Slot data can be written if the temporary password and the data fit their fields. -/
theorem Command.fits_sendOtpData {encoding : CounterEncoding} {temp data : Secret}
    {kind : DataKind} {number : UInt8} (htemp : temp.length ≤ credentialWidth)
    (hdata : data.length ≤ chunkWidth) :
    (Command.sendOtpData temp kind number data).Fits encoding := by
  refine ⟨?_, fun _ _ h => by cases h⟩
  intro a ha
  rcases List.mem_cons.mp ha with rfl | ha
  · exact htemp
  · rcases List.mem_singleton.mp ha with rfl
    exact hdata

namespace Token

variable {t t' t'' : Token} {c : Client} {x : Command} {cs : List Command}

theorem Accepts.nil (t : Token) (c : Client) : t.Accepts c [] t := ⟨[], rfl, rfl, rfl⟩

/-- One more command before the others. -/
theorem Accepts.cons (hplug : t.pluggedIn = true) (hwrite : x.id ≠ .writeToSlot)
    (hfits : x.Fits c.capabilities.encoding) (hdone : t.execute x.norm = (.ok .empty, t'))
    (h : t'.Accepts c cs t'') : t.Accepts c (x :: cs) t'' := by
  obtain ⟨q, hq⟩ :=
    (x.toRequest_isOk_iff c.capabilities.encoding).mpr (Command.forall_fits_iff.mpr hfits)
  obtain ⟨qs, hqs, hreplies, hafter⟩ := h
  -- the token reads the request in its own way, which makes no difference here
  have hread : x.toRequest t.encoding = .ok q :=
    (x.toRequest_of_not_write hwrite _ _).trans hq
  have hsend : t.send q.toReport = (.ok (respond q (.ok .empty)).toReport, t') := by
    have h := send_toReport hplug q
    rw [handle_request hread, hdone] at h
    exact h
  refine ⟨q :: qs, ?_, ?_, ?_⟩
  · have hrequest : c.request x = .ok q := by
      show (x.toRequest _).mapError _ = _
      rw [hq]
      rfl
    rw [List.mapM_cons, hrequest, hqs]
    rfl
  · show (t.send q.toReport).1 :: (t.send q.toReport).2.replies _ = _
    rw [hsend]
    exact congrArg (List.cons _) hreplies
  · show (t.send q.toReport).2.after _ = t''
    rw [hsend]
    exact hafter

end Token

/-! ## §3. Pieces in any order. -/

namespace Token

variable {t : Token} {c : Client} {temp name secret : Secret}

/-- The token with a name staged and the pieces of these numbers in place. -/
def gathering (t : Token) (name : String) (secret : Bytes) (ks : List Nat) : Token :=
  { t with staged := ⟨some name,
      if ks = [] then none
      else some (Staged.gathered t.capabilities.secretLength secret ks)⟩ }

theorem stagedBuffer_gathering (t : Token) (name : String) (secret : Bytes) (ks : List Nat) :
    (t.gathering name secret ks).stagedBuffer
      = Staged.gathered t.capabilities.secretLength secret ks := by
  show (ite _ _ _ : Option Bytes).getD _ = _
  cases ks with
  | nil => exact (Staged.gathered_nil _ _).symm
  | cons k ks => rfl

/-- With all pieces in place the whole secret is staged. -/
theorem gathering_all {told : String} {bytes : Bytes} {ks : List Nat} (hpos : 1 ≤ bytes.length)
    (hlen : bytes.length ≤ t.capabilities.secretLength)
    (hall : ∀ k < Operation.pieceCount bytes, k ∈ ks) :
    t.gathering told bytes ks = { t with staged := ⟨some told,
      some (Bytes.padTo t.capabilities.secretLength bytes)⟩ } := by
  have hcount : 0 < Operation.pieceCount bytes := by
    unfold Operation.pieceCount chunkWidth
    omega
  have hks : ks ≠ [] := List.ne_nil_of_mem (hall 0 hcount)
  unfold gathering
  rw [if_neg hks, Staged.gathered_all hlen hall]

/-- A name that fits is taken, and starts over. -/
theorem execute_sendName (hlive : t.session.admits .admin temp.bytes = true)
    (hname : name.length ≤ nameWidth) (number : UInt8) :
    t.execute (.sendOtpData temp .name number name)
      = (.ok .empty, { t with staged := .withName (Utf8.decodeLossy name.bytes) }) := by
  show t.withTemp .admin temp (t.stage .name number name.bytes) = _
  unfold withTemp stage
  rw [if_pos hlive]
  exact if_neg (Nat.not_lt.mpr hname)

/-- **A piece is taken, and then it is in place as well.** -/
theorem execute_piece {k : Nat} {told : String} {ks : List Nat}
    (hlive : t.session.admits .admin temp.bytes = true)
    (hlen : secret.length ≤ t.capabilities.secretLength)
    (hk : k < Operation.pieceCount secret.bytes) :
    (t.gathering told secret.bytes ks).execute
        (.sendOtpData temp .secret (Operation.piece secret.bytes k).1
          ⟨Bytes.padTo chunkWidth (Operation.piece secret.bytes k).2⟩)
      = (.ok .empty, t.gathering told secret.bytes (k :: ks)) := by
  have hinside : chunkWidth * k < secret.bytes.length := Operation.lt_length_of_lt_pieceCount hk
  have hroom : k * chunkWidth < t.capabilities.secretLength := by
    rw [Nat.mul_comm]
    exact Nat.lt_of_lt_of_le hinside hlen
  have hnumber : (Operation.piece secret.bytes k).1.toNat = k :=
    Staged.toNat_piece (Nat.le_trans hlen (Capabilities.secretLength_le _)) hk
  have hwhole : (Bytes.padTo chunkWidth (Operation.piece secret.bytes k).2).take chunkWidth
      = Bytes.padTo chunkWidth (Operation.piece secret.bytes k).2 := by
    refine List.take_of_length_le (Nat.le_of_eq (Bytes.length_padTo ?_))
    exact List.length_take_le _ _
  rw [execute_sendSecret, stagedBuffer_gathering, hnumber, hwhole,
    Staged.overlay_gathered hroom]
  exact (if_pos hlive).trans (if_pos hroom)

/-- **Pieces in any order are all taken**, and then they are in place as well. -/
theorem accepts_pieces {told : String} (hplug : t.pluggedIn = true)
    (htemp : temp.length ≤ credentialWidth)
    (hlive : t.session.admits .admin temp.untilNul.bytes = true)
    (hlen : secret.length ≤ t.capabilities.secretLength) {order : List Nat}
    (horder : ∀ k ∈ order, k < Operation.pieceCount secret.bytes) (ks : List Nat) :
    (t.gathering told secret.bytes ks).Accepts c (order.map (askPiece temp secret.bytes))
      (t.gathering told secret.bytes (order.reverse ++ ks)) := by
  induction order generalizing ks with
  | nil => exact .nil _ c
  | cons k order ih =>
    obtain ⟨hk, horder⟩ := List.forall_mem_cons.mp horder
    have hfits : (askPiece temp secret.bytes k).Fits c.capabilities.encoding :=
      Command.fits_sendOtpData htemp (List.length_take_le _ _)
    rw [List.reverse_cons, List.append_assoc]
    refine .cons hplug CommandId.noConfusion hfits ?_ (ih horder (k :: ks))
    exact execute_piece hlive hlen hk

end Token

/-- Pieces that come from those of a secret have their numbers. -/
theorem Operation.exists_numbers {secret : Bytes} {order : List (UInt8 × Bytes)}
    (h : ∀ p ∈ order, p ∈ pieces chunkWidth secret) :
    ∃ ks : List Nat, order = ks.map (piece secret) ∧ ∀ k ∈ ks, k < pieceCount secret := by
  induction order with
  | nil => exact ⟨[], rfl, nofun⟩
  | cons p order ih =>
    obtain ⟨hp, horder⟩ := List.forall_mem_cons.mp h
    obtain ⟨ks, hks, hlt⟩ := ih horder
    rw [pieces_eq, ← List.range_eq_range'] at hp
    obtain ⟨k, hk, rfl⟩ := List.mem_map.mp hp
    refine ⟨k :: ks, ?_, List.forall_mem_cons.mpr ⟨List.mem_range.mp hk, hlt⟩⟩
    rw [hks]
    rfl

/-- Where every piece of a secret is, every number is. -/
theorem Operation.mem_numbers {secret : Bytes} {ks : List Nat}
    (hlen : secret.length ≤ Hmac.blockLength) (hks : ∀ k ∈ ks, k < pieceCount secret)
    (h : ∀ p ∈ pieces chunkWidth secret, p ∈ ks.map (piece secret)) :
    ∀ k < pieceCount secret, k ∈ ks := by
  intro k hk
  have hp : piece secret k ∈ pieces chunkWidth secret := by
    rw [pieces_eq, ← List.range_eq_range']
    exact List.mem_map.mpr ⟨k, List.mem_range.mpr hk, rfl⟩
  obtain ⟨k', hk', hsame⟩ := List.mem_map.mp (h _ hp)
  -- a piece has its number in it
  have hnumbers : k' = k := by
    rw [← Staged.toNat_piece hlen hk, ← Staged.toNat_piece hlen (hks k' hk'), hsame]
  rw [← hnumbers]
  exact hk'

/-- **The pieces of a secret in any order.**  A token on which the admin is logged in is
sent a name that fits, and then the pieces that the host cuts a secret into, in any order
and as often as one likes, but each at least once.

* The name is taken, and nothing is left of what was staged before.
* All pieces are taken, and then the whole secret is staged, filled up with zeros. -/
theorem Token.pieces_in_any_order {t : Token} {temp name secret : Secret}
    {order : List (UInt8 × Bytes)} (c : Client) (number : UInt8) (hplug : t.pluggedIn = true)
    (htemp : temp.length ≤ credentialWidth)
    (hlive : t.session.admits .admin temp.untilNul.bytes = true)
    (hname : name.length ≤ chunkWidth) (hshort : name.untilNul.length ≤ nameWidth)
    (hpos : 1 ≤ secret.length) (hlen : secret.length ≤ t.capabilities.secretLength)
    (horder : ∀ p, p ∈ order ↔ p ∈ Operation.pieces chunkWidth secret.bytes) :
    let first := Command.sendOtpData temp .name number name
    let told := Utf8.decodeLossy name.untilNul.bytes
    t.Accepts c [first] { t with staged := .withName told }
      ∧ t.Accepts c
          (first :: order.map fun p => .sendOtpData temp .secret p.1 ⟨p.2⟩)
          { t with staged := ⟨some told,
            some (Bytes.padTo t.capabilities.secretLength secret.bytes)⟩ } := by
  intro first told
  have hfits : first.Fits c.capabilities.encoding := Command.fits_sendOtpData htemp hname
  have hfirst : t.execute first.norm = (.ok .empty, { t with staged := .withName told }) :=
    execute_sendName hlive hshort number
  refine ⟨.cons hplug CommandId.noConfusion hfits hfirst (.nil _ c), ?_⟩
  refine .cons hplug CommandId.noConfusion hfits hfirst ?_
  -- the numbers of the pieces say everything about them
  have hblock := Nat.le_trans hlen (Capabilities.secretLength_le _)
  obtain ⟨ks, rfl, hks⟩ := Operation.exists_numbers fun p hp => (horder p).mp hp
  have hall := Operation.mem_numbers hblock hks fun p hp => (horder p).mpr hp
  have hreversed : ∀ k < Operation.pieceCount secret.bytes, k ∈ ks.reverse ++ [] := by
    intro k hk
    rw [List.append_nil, List.mem_reverse]
    exact hall k hk
  rw [← gathering_all hpos hlen hreversed, List.map_map]
  exact accepts_pieces hplug htemp hlive hlen hks []

/-- Forty different bytes. -/
def longSecret : Secret := ⟨(List.range 40).map UInt8.ofNat⟩

set_option maxRecDepth 20000 in
/-- The second piece first, then the first, then the second once more, to a token on which
another write was given up half way. -/
theorem Token.pieces_in_any_order_abandoned :
    let p := Operation.piece longSecret.bytes
    let first := Command.sendOtpData (.ofText "temp") .name 0 (.ofText "mail")
    (∀ x, x ∈ [p 1, p 0, p 1] ↔ x ∈ Operation.pieces chunkWidth longSecret.bytes)
      ∧ Token.abandoned.session.admits .admin (Secret.ofText "temp").untilNul.bytes = true
      ∧ Token.abandoned.Accepts (.fresh default) [first]
          { Token.abandoned with staged := ⟨some "mail", none⟩ }
      ∧ Token.abandoned.Accepts (.fresh default)
          (first :: [p 1, p 0, p 1].map fun x => .sendOtpData (.ofText "temp") .secret x.1 ⟨x.2⟩)
          { Token.abandoned with staged := ⟨some "mail", some longSecret.bytes⟩ } := by
  intro p first
  have horder : ∀ x, x ∈ [p 1, p 0, p 1] ↔ x ∈ Operation.pieces chunkWidth longSecret.bytes := by
    have hpieces : Operation.pieces chunkWidth longSecret.bytes = [p 0, p 1] := by decide +kernel
    intro x
    rw [hpieces]
    simp only [List.mem_cons, List.not_mem_nil, or_false]
    constructor
    · rintro (h | h | h)
      · exact .inr h
      · exact .inl h
      · exact .inr h
    · rintro (h | h)
      · exact .inr (.inl h)
      · exact .inl h
  have hlive : Token.abandoned.session.admits .admin
      (Secret.ofText "temp").untilNul.bytes = true := by decide +kernel
  have hname : Utf8.decodeLossy (Secret.ofText "mail").untilNul.bytes = "mail" := by decide +kernel
  have hwhole : Bytes.padTo Token.abandoned.capabilities.secretLength longSecret.bytes
      = longSecret.bytes := by decide +kernel
  have h := pieces_in_any_order (.fresh default) 0 rfl (by decide +kernel) hlive
    (by decide +kernel : (Secret.ofText "mail").length ≤ chunkWidth) (by decide +kernel)
    (by decide +kernel) (by decide +kernel) horder
  rw [hname, hwhole] at h
  exact ⟨horder, hlive, h⟩

end OtpToken
