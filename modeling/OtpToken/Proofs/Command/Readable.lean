/-
  OtpToken.Proofs.Command.Readable
  ────────────────────────────────
  **WHAT A TOKEN MAKES OF ANY REQUEST.**

  A request may come from anybody, with any command byte and any payload:

      no command has the byte            the command is unknown
      the command is spoiled             an error without a name
      anything else                      a command

  An argument that was read has lost whatever would get lost in a request: it ends before
  its first zero byte, or is a whole piece, and it is no longer than its field
  (`Argument.Settled`).  A text may be longer, but only if its bytes are no UTF-8.  So a
  command that was read can be sent again, and is read as the same command
  (`exists_sent_again`).
-/
import OtpToken.Proofs.Command.Carry

namespace OtpToken

/-! ## §1. Arguments that were read. -/

namespace Block

variable {n : Nat} (b : Block n) {start width : Nat}

/-- What is in a field up to its first zero byte is UTF-8. -/
def IsText (start width : Nat) : Prop :=
  ∃ s, Utf8.encode s = Bytes.untilNul (b.field start width)

variable {b}

/-- A text is kept byte for byte if it is one. -/
theorem IsText.encode_text (h : b.IsText start width) :
    Utf8.encode (b.text start width) = Bytes.untilNul (b.field start width) := by
  obtain ⟨s, hs⟩ := h
  rw [text, ← hs, Utf8.decodeLossy_encode]

end Block

namespace Command

/-- The argument fits, and it would arrive as it is. -/
def Argument.Settled (a : Argument) : Prop := a.Fits ∧ a.Whole

section Settled

variable {n : Nat} {b : Block n} {start width : Nat}

theorem settled_untilNul :
    Argument.Settled ⟨Bytes.untilNul (b.field start width), width, true⟩ :=
  ⟨b.length_untilNul_field_le, Bytes.zero_not_mem_untilNul _⟩

theorem settled_secret : Argument.Settled ⟨(b.secret start width).bytes, width, true⟩ :=
  settled_untilNul

theorem settled_text (h : b.IsText start width) :
    Argument.Settled ⟨Utf8.encode (b.text start width), width, true⟩ := by
  rw [h.encode_text]
  exact settled_untilNul

/-- A whole piece needs no filling up. -/
theorem settled_field (h : start + width ≤ n) :
    Argument.Settled ⟨b.field start width, width, false⟩ :=
  ⟨Nat.le_of_eq (b.length_field h), Nat.le_of_eq (b.length_field h).symm⟩

end Settled

/-- Where the texts of a command stand: a token id, the name of a slot of the safe, a
login. -/
def textFields : CommandId → List (Nat × Nat)
  | .writeToSlot => [(35, 13)]
  | .setSafePrimary => [(1, 11)]
  | .setSafeLogin => [(1, 32)]
  | _ => []

/-- **All arguments that were read are settled**, texts if they are texts. -/
theorem settled_of_byOffset? {encoding : CounterEncoding} {b : Block 59} {id : CommandId}
    {c : Command} (hfound : byOffset? encoding b id = some c)
    (htexts : ∀ x ∈ textFields id, b.IsText x.1 x.2) : ∀ a ∈ c.arguments, a.Settled := by
  cases id with
  | sendOtpData =>
    obtain ⟨kind, -, rfl⟩ := Option.map_eq_some_iff.mp hfound
    refine List.forall_mem_cons.mpr ⟨settled_secret, ?_⟩
    rw [List.forall_mem_singleton]
    cases kind with
    | name => exact settled_secret
    | secret => exact settled_field (by decide)
  | writeToSlot =>
    obtain ⟨counter, -, rfl⟩ := Option.map_eq_some_iff.mp hfound
    refine List.forall_mem_cons.mpr ⟨settled_secret, ?_⟩
    rw [List.forall_mem_singleton]
    exact settled_text (htexts _ List.mem_cons_self)
  | setSafePrimary =>
    cases hfound
    refine List.forall_mem_cons.mpr ⟨settled_text (htexts _ List.mem_cons_self), ?_⟩
    rw [List.forall_mem_singleton]
    exact settled_secret
  | setSafeLogin =>
    cases hfound
    refine List.forall_mem_singleton.mpr ?_
    exact settled_text (htexts _ List.mem_cons_self)
  | _ =>
    cases hfound
    simp [arguments, settled_secret]

/-- **A command that was read can be sent again, and is read as the same command.** -/
theorem exists_sent_again {q : Request} {encoding : CounterEncoding} {c : Command}
    (hparse : parse q encoding = .ok c)
    (htexts : ∀ x ∈ textFields c.id, q.payload.IsText x.1 x.2) :
    ∃ again, c.toRequest encoding = .ok again ∧ again.command = q.command
      ∧ parse again encoding = .ok c := by
  obtain ⟨id, hid, hfound⟩ := found_of_parse hparse
  cases id_of_byOffset? hfound
  have hsettled := settled_of_byOffset? hfound htexts
  have hfits : c.Fits encoding := by
    refine ⟨fun a ha => (hsettled a ha).1, ?_⟩
    rintro rfl
    exact counter_le_of_parse hparse
  obtain ⟨again, hsent⟩ := (toRequest_isOk_iff c encoding).mpr (forall_fits_iff.mpr hfits)
  refine ⟨again, hsent, ?_, ?_⟩
  · rw [command_of_toRequest hsent, hid]
  · rw [parse_toRequest hsent, norm_of_whole fun a ha => (hsettled a ha).2]

/-! ## §2. Requests that cannot be read. -/

open Decoder

section Spoiled

variable {encoding : CounterEncoding} {q : Request}

/-- The request is for one of the two commands that can be spoiled, and it is spoiled: slot
data of another kind than `N` and `S`, or a write with a counter that cannot be read. -/
def Spoiled (q : Request) (encoding : CounterEncoding) : Prop :=
  q.command = CommandId.sendOtpData.toByte
      ∧ q.payload.byte 25 ≠ 0x4E ∧ q.payload.byte 25 ≠ 0x53
    ∨ q.command = CommandId.writeToSlot.toByte
      ∧ encoding = .ascii
      ∧ ∀ n, (counter .ascii).decode (q.payload.slice 26 8 (by decide)).bytes ≠ .ok n

theorem value?_eq_none_iff {field : Bytes} (hlength : field.length = 8) :
    encoding.value? field = none
      ↔ encoding = .ascii ∧ ∀ n, (counter .ascii).decode field ≠ .ok n := by
  cases encoding with
  | binary => exact iff_of_false nofun fun h => CounterEncoding.noConfusion h.1
  | ascii =>
    rw [and_iff_right rfl]
    cases hvalue : CounterEncoding.ascii.value? field with
    | none =>
      obtain ⟨e, he⟩ := (counter_fails hlength hvalue).decode []
      rw [List.append_nil] at he
      rw [he]
      exact iff_of_true rfl nofun
    | some n =>
      have hread := (counter_reads_value hlength hvalue).decode []
      rw [List.append_nil] at hread
      exact iff_of_false nofun fun h => h n hread

theorem spoiled_iff : Spoiled q encoding ↔
    ∃ id : CommandId, id.toByte = q.command ∧ byOffset? encoding q.payload id = none := by
  have hvalue : encoding.value? (q.payload.field 26 8) = none ↔ encoding = .ascii
      ∧ ∀ n, (counter .ascii).decode (q.payload.slice 26 8 (by decide)).bytes ≠ .ok n :=
    value?_eq_none_iff (q.payload.slice 26 8 (by decide)).length_bytes
  simp only [byOffset?_eq_none_iff]
  unfold Spoiled
  rw [← hvalue]
  constructor
  · rintro (⟨hid, hkind⟩ | ⟨hid, hcounter⟩)
    · exact ⟨_, hid.symm, .inl ⟨rfl, hkind⟩⟩
    · exact ⟨_, hid.symm, .inr ⟨rfl, hcounter⟩⟩
  · rintro ⟨id, hid, ⟨rfl, hkind⟩ | ⟨rfl, hcounter⟩⟩
    · exact .inl ⟨hid.symm, hkind⟩
    · exact .inr ⟨hid.symm, hcounter⟩

/-- **Every command byte that is known is read, unless the command is spoiled.** -/
theorem parse_cases (q : Request) (encoding : CounterEncoding) :
    (parse q encoding = .error .unknownCommand ∧ ∀ id : CommandId, id.toByte ≠ q.command)
      ∨ (parse q encoding = .error .unknown
          ∧ (∃ id : CommandId, id.toByte = q.command) ∧ Spoiled q encoding)
      ∨ ∃ c, parse q encoding = .ok c
          ∧ (∃ id : CommandId, id.toByte = q.command) ∧ ¬ Spoiled q encoding := by
  by_cases hknown : ∃ id : CommandId, id.toByte = q.command
  · obtain ⟨id, hid⟩ := hknown
    have hparse := parse_of_id encoding hid
    cases hfound : byOffset? encoding q.payload id with
    | none =>
      rw [hfound] at hparse
      exact .inr (.inl ⟨hparse, ⟨id, hid⟩, spoiled_iff.mpr ⟨id, hid, hfound⟩⟩)
    | some c =>
      rw [hfound] at hparse
      refine .inr (.inr ⟨c, hparse, ⟨id, hid⟩, fun hspoiled => ?_⟩)
      obtain ⟨id', hid', hnone⟩ := spoiled_iff.mp hspoiled
      cases CommandId.toByte_inj (hid'.trans hid.symm)
      rw [hfound] at hnone
      cases hnone
  · exact .inl ⟨parse_of_no_id (not_exists.mp hknown), not_exists.mp hknown⟩

end Spoiled

/-! ## §3. Any request. -/

/-- **What a token makes of any request.**

It answers that the command is unknown if no command has its byte, and that something is
wrong if the command is spoiled; in all other cases it has a command, with each argument from
its own place in the payload.  No argument is ever missing.

A command that was read, with nothing but UTF-8 where its texts stand, can be sent again,
under the same command byte, and is read as the same command. -/
theorem requests_read (q : Request) (encoding : CounterEncoding) :
    (parse q encoding = .error .unknownCommand ↔ ∀ id : CommandId, id.toByte ≠ q.command)
      ∧ (parse q encoding = .error .unknown ↔ Spoiled q encoding)
      ∧ ((∃ c, parse q encoding = .ok c) ↔
          (∃ id : CommandId, id.toByte = q.command) ∧ ¬ Spoiled q encoding)
      ∧ (∀ c, parse q encoding = .ok c ↔
          ∃ id : CommandId, id.toByte = q.command ∧ byOffset? encoding q.payload id = some c)
      ∧ (∀ id e, (read encoding id).decode q.payload.bytes = .error e → e.isShort = false)
      ∧ ∀ c, parse q encoding = .ok c →
          (∀ x ∈ textFields c.id, q.payload.IsText x.1 x.2) →
          ∃ again, c.toRequest encoding = .ok again ∧ again.command = q.command
            ∧ parse again encoding = .ok c := by
  have hknown_of_spoiled : Spoiled q encoding → ∃ id : CommandId, id.toByte = q.command := by
    intro h
    obtain ⟨id, hid, -⟩ := spoiled_iff.mp h
    exact ⟨id, hid⟩
  have houtcome : (parse q encoding = .error .unknownCommand
        ↔ ∀ id : CommandId, id.toByte ≠ q.command)
      ∧ (parse q encoding = .error .unknown ↔ Spoiled q encoding)
      ∧ ((∃ c, parse q encoding = .ok c) ↔
          (∃ id : CommandId, id.toByte = q.command) ∧ ¬ Spoiled q encoding) := by
    rw [← not_exists]
    rcases parse_cases q encoding with
      ⟨hparse, hno⟩ | ⟨hparse, hknown, hbad⟩ | ⟨c, hparse, hknown, hgood⟩
    · rw [← not_exists] at hno
      have hgood : ¬ Spoiled q encoding := fun h => hno (hknown_of_spoiled h)
      simp [hparse, hno, hgood]
    · simp [hparse, hknown, hbad]
    · simp [hparse, hknown, hgood]
  obtain ⟨hunknown, hspoiled, hread⟩ := houtcome
  exact ⟨hunknown, hspoiled, hread, fun c => parse_eq_ok_iff, fun id e => isShort_of_decode,
    fun c => exists_sent_again⟩

end Command

end OtpToken
