/-
  OtpToken.Proofs.Client.Padding
  ──────────────────────────────
  **ZEROS BEHIND A SECRET ARE FREE, UP TO THE BLOCK OF THE HASH.**

  A secret is filled up with zeros twice: by the token, whose slots have room for twenty
  or forty bytes, and by the hash, whose block has sixty-four.  Within the block it does
  not matter who put the zeros there.  Past the block a key is hashed with its zeros, and
  then they count.

  `Secret.zeros_are_free` says so of the codes, of a token that is given the filled
  secret instead of the bare one, and of a slot that a host has written.
-/
import OtpToken.Proofs.Client.Override
import OtpToken.Proofs.Token.Filled

namespace OtpToken

/-! ## §1. Widths. -/

namespace Secret

variable {width : Nat} {secret : Secret}

/-- There is room for the secret. -/
theorem zeroPadded_of_le (h : secret.length ≤ width) :
    secret.zeroPadded width = .ok ⟨Bytes.padTo width secret.bytes⟩ :=
  if_neg (Nat.not_lt.mpr h)

end Secret

/-! ## §2. Slots. -/

/-- **A write that is done has stored the secret filled up**, if there was room for it. -/
theorem Call.program_of_write {call : Call} {c c' : Client} {t t' : Token} {kind : CodeKind}
    {index : UInt8} {data : SlotData} {moving : UInt64} {secret : Secret} {v : Value}
    (hne : secret.bytes ≠ []) (hwrite : call.write? kind index = some (data, moving))
    (hsecret : Secret.ofHex data.secret t.capabilities.secretLength = .ok secret)
    (h : call.perform Token.line c t = (.ok v, c', t')) :
    ∃ details, t' = { t with staged := .empty }.program kind index
      ⟨details, ⟨Bytes.padTo t.capabilities.secretLength secret.bytes⟩⟩ := by
  have htyped : data.secret ≠ "" := by
    intro hempty
    rw [hempty] at hsecret
    cases hsecret
    exact hne rfl
  rcases Call.write_ends hwrite h with
    ⟨why, hwhy, -⟩ | ⟨read, slot, -, -, -, -, -, -, htakes, ht', -⟩
  · cases hwhy
  · obtain ⟨bytes, hbytes, -, -, hslot⟩ := (htakes.holds hsecret).typed htyped
    cases (Secret.of_ofHex hsecret).1.symm.trans hbytes
    refine ⟨slot.details, ht'.trans ?_⟩
    rw [← hslot]
    rfl

/-- **Zeros behind a secret are free, up to the block of the hash.**

* A secret that is filled up to a width within the block has the codes of the secret, at
  every counter and with either number of digits.
* Past the block it has the codes of its hash.
* A token that keeps it filled up to its own capacity replies, to every run of reports,
  what it would reply if it kept it as it is.
* That is how a token keeps a secret that a host has written. -/
theorem Secret.zeros_are_free (secret : Secret) (hne : secret.bytes ≠ []) :
    (∀ width, secret.length ≤ width → width ≤ Hmac.blockLength →
      ∃ padded, secret.zeroPadded width = .ok padded ∧ padded.length = width
        ∧ ∀ counter digits,
          codeValue padded.bytes counter digits = codeValue secret.bytes counter digits)
    ∧ (∀ width, secret.length ≤ width → Hmac.blockLength < width →
      ∃ padded, secret.zeroPadded width = .ok padded ∧ padded.length = width
        ∧ ∀ counter digits,
          codeValue padded.bytes counter digits
            = codeValue (Sha1.hash padded.bytes) counter digits)
    ∧ (∀ (t : Token) kind index details, secret.length ≤ t.capabilities.secretLength →
      ∃ stored, secret.zeroPadded t.capabilities.secretLength = .ok stored
        ∧ ∀ reports, (t.program kind index ⟨details, stored⟩).replies reports
          = (t.program kind index ⟨details, secret⟩).replies reports)
    ∧ ∀ (call : Call) (c c' : Client) (t t' : Token) (data : SlotData) kind index moving v,
      call.write? kind index = some (data, moving) →
      Secret.ofHex data.secret t.capabilities.secretLength = .ok secret →
      call.perform Token.line c t = (.ok v, c', t') →
      ∃ stored details, secret.zeroPadded t.capabilities.secretLength = .ok stored
        ∧ t' = { t with staged := .empty }.program kind index ⟨details, stored⟩ := by
  refine ⟨fun width hwidth hblock => ?_, fun width hwidth hlong => ?_,
    fun t kind index details hroom => ?_,
    fun call c c' t t' data kind index moving v hwrite hsecret h => ?_⟩
  · exact ⟨_, zeroPadded_of_le hwidth, Bytes.length_padTo hwidth,
      codeValue_padTo hblock hwidth hne⟩
  · have hlength : (Bytes.padTo width secret.bytes).length = width := Bytes.length_padTo hwidth
    refine ⟨_, zeroPadded_of_le hwidth, hlength, codeValue_of_long ?_⟩
    rw [hlength]
    exact hlong
  · have hfilled := filled_padTo t.capabilities.secretLength_le hne
    have hsame := t.filled_program hfilled kind index details
    exact ⟨_, zeroPadded_of_le hroom, Token.replies_of_filled hsame⟩
  · obtain ⟨details, ht'⟩ := Call.program_of_write hne hwrite hsecret h
    exact ⟨_, details, zeroPadded_of_le (Secret.of_ofHex hsecret).2, ht'⟩

/-- A write of a secret of one byte. -/
def Call.shortest : Call := .writeHotp 0 ⟨"a", "01", {}, ""⟩ 0 (.ofText "temp")

set_option maxRecDepth 20000 in
/-- The block is the exact bound: with one zero more a secret has another code.  A token
with old firmware keeps nineteen zeros behind it. -/
theorem Secret.zeros_are_free_bound :
    (∃ padded, Secret.zeroPadded ⟨[1]⟩ 64 = .ok padded ∧ padded.length = 64
      ∧ ∀ counter digits, codeValue padded.bytes counter digits = codeValue [1] counter digits)
    ∧ (codeValue (Bytes.padTo 65 [1]) 0 .six).toOption ≠ (codeValue [1] 0 .six).toOption
    ∧ ∃ details, (Call.shortest.perform Token.line .misled .old).2.2
        = { Token.old with staged := .empty }.program .hotp 0
          ⟨details, ⟨1 :: List.replicate 19 0⟩⟩ := by
  obtain ⟨hwithin, -, -, hwritten⟩ := Secret.zeros_are_free ⟨[1]⟩ (List.cons_ne_nil 1 [])
  refine ⟨hwithin 64 (by decide) (by decide), by decide +kernel, ?_⟩
  have hwrite : Call.shortest.write? .hotp 0 = some (⟨"a", "01", {}, ""⟩, 0) := rfl
  have hsecret : Secret.ofHex "01" Token.old.capabilities.secretLength = .ok ⟨[1]⟩ :=
    ok_of_toOption (by decide +kernel)
  have hdone : (Call.shortest.perform Token.line .misled .old).1 = .ok .nothing :=
    ok_of_toOption (by decide +kernel)
  have hends : ∀ r : Except Error Value × Client × Token, r.1 = .ok .nothing →
      r = (.ok .nothing, r.2.1, r.2.2) := by
    intro r h
    rw [← h]
  obtain ⟨stored, details, hstored, ht'⟩ :=
    hwritten _ _ _ _ _ _ .hotp 0 0 .nothing hwrite hsecret (hends _ hdone)
  have hzeros : Secret.zeroPadded ⟨[1]⟩ 20 = .ok ⟨1 :: List.replicate 19 0⟩ := rfl
  cases hzeros.symm.trans hstored
  exact ⟨details, ht'⟩

end OtpToken
