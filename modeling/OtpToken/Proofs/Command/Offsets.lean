/-
  OtpToken.Proofs.Command.Offsets
  ───────────────────────────────
  **COMMANDS BY THE OFFSETS OF THEIR ARGUMENTS.**

  A request is read from the left, one argument after the other.  `Command.byOffset?` says
  where in the payload each argument stands, for all 28 commands; `read_finds` says that
  this is what is read, and that no argument reaches past the end of the payload.

  So 26 of the command bytes are read whatever follows them (`parse_of_total`).  Only two
  commands can fail to be read:

      slot data       whose kind is neither of the two letters
      a write         whose counter is no number where digits are written
-/
import OtpToken.Proofs.Command

namespace OtpToken

/-! ## §1. Fields at an offset. -/

namespace Block

variable {n : Nat}

/-- The bytes from an offset on, as far as there are any. -/
def field (b : Block n) (start width : Nat) : Bytes := (b.bytes.drop start).take width

/-- The credential in a field. -/
def secret (b : Block n) (start width : Nat) : Secret := ⟨Bytes.untilNul (b.field start width)⟩

/-- The text in a field. -/
def text (b : Block n) (start width : Nat) : String :=
  Utf8.decodeLossy (Bytes.untilNul (b.field start width))

/-- The number in a field of eight bytes. -/
def word64 (b : Block n) (start : Nat) : UInt64 :=
  UInt64.ofNat (LittleEndian.decode (b.field start 8))

theorem length_field (b : Block n) {start width : Nat} (h : start + width ≤ n) :
    (b.field start width).length = width := by
  have := b.length_bytes
  simp only [field, List.length_take, List.length_drop]
  omega

theorem length_untilNul_field_le (b : Block n) {start width : Nat} :
    (Bytes.untilNul (b.field start width)).length ≤ width :=
  Nat.le_trans (Bytes.length_untilNul_le _) (List.length_take_le _ _)

theorem headD_field (b : Block n) (start : Nat) : (b.field start 1).headD 0 = b.byte start := by
  unfold field byte
  rw [List.getD_eq_getElem?_getD, ← List.head?_drop, List.headD_eq_head?_getD, List.head?_take]
  rfl

end Block

namespace CounterEncoding

/-- The counter in eight bytes, in the one way or in the other. -/
def value? : CounterEncoding → Bytes → Option UInt64
  | .binary, field => some (UInt64.ofNat (LittleEndian.decode field))
  | .ascii, field => Decoder.asciiCounter? field

/-- No counter above the maximum can be read. -/
theorem value?_le {encoding : CounterEncoding} {field : Bytes} {n : UInt64}
    (hlength : field.length = 8) (h : encoding.value? field = some n) : n ≤ encoding.maximum := by
  cases encoding with
  | binary => exact le_maximum_iff.mpr nofun
  | ascii => exact Decoder.asciiCounter?_le hlength h

end CounterEncoding

namespace Decoder

variable {α β : Type} {n : Nat} {b : Block n} {start mid stop : Nat}

/-- Set to an offset of a payload, the decoder gives this value and stops at another offset.
Where there is no value it fails, but not because bytes are missing. -/
def Finds (m : Decoder α) (b : Block n) (start stop : Nat) : Option α → Prop
  | some a => m ⟨start, b.bytes.drop start⟩ = (.ok a, ⟨stop, b.bytes.drop stop⟩)
  | none => ∃ e, e.isShort = false ∧ (m ⟨start, b.bytes.drop start⟩).1 = .error e

theorem Finds.pure (a : α) : (Pure.pure a : Decoder α).Finds b start start (some a) := rfl

theorem Finds.bind {m : Decoder α} {next : α → Decoder β} {a : α} {result : Option β}
    (hm : m.Finds b start mid (some a)) (hn : (next a).Finds b mid stop result) :
    (m >>= next).Finds b start stop result := by
  have hstep : (m >>= next) ⟨start, b.bytes.drop start⟩ = next a ⟨mid, b.bytes.drop mid⟩ :=
    bind_of_ok hm next
  cases result with
  | some c => exact hstep.trans hn
  | none =>
    obtain ⟨e, hshort, he⟩ := hn
    exact ⟨e, hshort, (congrArg Prod.fst hstep).trans he⟩

/-- What fails is not gone on with. -/
theorem Finds.bind_none {m : Decoder α} {next : α → Decoder β}
    (hm : m.Finds b start mid none) : (m >>= next).Finds b start stop none := by
  obtain ⟨e, hshort, he⟩ := hm
  exact ⟨e, hshort, bind_of_error he next⟩

theorem take_finds (b : Block n) {start width : Nat} (h : start + width ≤ n) :
    (take width).Finds b start (start + width) (some (b.field start width)) := by
  have hlength : width ≤ (b.bytes.drop start).length := by
    rw [List.length_drop, b.length_bytes]
    omega
  show take width ⟨start, b.bytes.drop start⟩ = _
  rw [take, if_pos hlength, List.drop_drop]
  rfl

theorem byte_finds (b : Block n) {start : Nat} (h : start + 1 ≤ n) :
    byte.Finds b start (start + 1) (some (b.byte start)) := by
  rw [← b.headD_field start]
  exact (take_finds b h).bind (.pure _)

theorem word64_finds (b : Block n) {start : Nat} (h : start + 8 ≤ n) :
    word64.Finds b start (start + 8) (some (b.word64 start)) :=
  (take_finds b h).bind (.pure _)

theorem text_finds (b : Block n) {start width : Nat} (h : start + width ≤ n) :
    (text width).Finds b start (start + width) (some (b.text start width)) :=
  (take_finds b h).bind (.pure _)

theorem secret_finds (b : Block n) {start width : Nat} (h : start + width ≤ n) :
    (secret width).Finds b start (start + width) (some (b.secret start width)) :=
  (take_finds b h).bind (.pure _)

theorem block_finds (b : Block n) {start width : Nat} (h : start + width ≤ n) :
    (block width).Finds b start (start + width) (some (b.slice start width h)) := by
  have hlength : width ≤ (b.bytes.drop start).length := by
    rw [List.length_drop, b.length_bytes]
    omega
  show block width ⟨start, b.bytes.drop start⟩ = _
  rw [block, dif_pos hlength, List.drop_drop]
  rfl

theorem counter_finds (encoding : CounterEncoding) (b : Block n) {start : Nat}
    (h : start + 8 ≤ n) :
    (counter encoding).Finds b start (start + 8) (encoding.value? (b.field start 8)) := by
  cases encoding with
  | binary => exact word64_finds b h
  | ascii =>
    refine (take_finds b h).bind ?_
    show Finds _ b (start + 8) (start + 8) (asciiCounter? (b.field start 8))
    cases asciiCounter? (b.field start 8) with
    | some counter => exact .pure counter
    | none => exact ⟨.asciiCounter, rfl, rfl⟩

/-- A payload that is read from its start holds the value, or is refused if there is none. -/
theorem Finds.decode_cases {m : Decoder α} {result : Option α} (h : m.Finds b 0 stop result) :
    (∃ a, result = some a ∧ m.decode b.bytes = .ok a)
      ∨ (result = none ∧ ∃ e, e.isShort = false ∧ m.decode b.bytes = .error e) := by
  cases result with
  | some a => exact .inl ⟨a, rfl, congrArg Prod.fst h⟩
  | none => exact .inr ⟨rfl, h⟩

end Decoder

/-! ## §2. Where the arguments stand. -/

/-- The kind that a letter stands for. -/
def DataKind.ofByte? (b : UInt8) : Option DataKind :=
  if b = 0x4E then some .name else if b = 0x53 then some .secret else none

namespace Command

open Decoder

/-- The piece of slot data in a payload. -/
def dataByOffset (b : Block 59) : DataKind → Secret
  | .name => b.secret 27 30
  | .secret => ⟨b.field 27 30⟩

/-- **The command in a payload, each argument at its offset**, if there is one. -/
def byOffset? (encoding : CounterEncoding) (b : Block 59) : CommandId → Option Command
  | .getStatus => some getStatus
  | .sendOtpData => (DataKind.ofByte? (b.byte 25)).map fun kind =>
      sendOtpData (b.secret 0 25) kind (b.byte 26) (dataByOffset b kind)
  | .writeToSlot => (encoding.value? (b.field 26 8)).map fun counter =>
      writeToSlot (b.secret 0 25) (b.byte 25) counter (.ofByte (b.byte 34)) (b.text 35 13)
  | .readSlotName => some (readSlotName (b.byte 0))
  | .readSlot => some (readSlot (b.byte 0))
  | .getCode => some (getCode (b.byte 0) (b.word64 1) (b.word64 9) (b.byte 17) (b.secret 18 25))
  | .writeConfig => some (writeConfig ⟨b.slice 0 5 (by decide)⟩ (b.secret 5 25))
  | .eraseSlot => some (eraseSlot (b.byte 0) (b.secret 1 25))
  | .firstAuthenticate => some (firstAuthenticate (b.secret 0 25) (b.secret 25 25))
  | .userAuthenticate => some (userAuthenticate (b.secret 0 25) (b.secret 25 25))
  | .getAdminRetryCount => some getAdminRetryCount
  | .getUserRetryCount => some getUserRetryCount
  | .setTime => some (setTime (b.byte 0 != 0) (b.word64 1))
  | .unlockUserPassword => some (unlockUserPassword (b.secret 0 25) (b.secret 25 25))
  | .lockDevice => some lockDevice
  | .factoryReset => some (factoryReset (b.secret 0 20))
  | .changeUserPin => some (changeUserPin (b.secret 0 25) (b.secret 25 25))
  | .changeAdminPin => some (changeAdminPin (b.secret 0 25) (b.secret 25 25))
  | .safeStatus => some safeStatus
  | .safeName => some (safeName (b.byte 0))
  | .safePassword => some (safePassword (b.byte 0))
  | .safeLogin => some (safeLogin (b.byte 0))
  | .setSafePrimary => some (setSafePrimary (b.byte 0) (b.text 1 11) (b.secret 12 20))
  | .setSafeLogin => some (setSafeLogin (b.byte 0) (b.text 1 32))
  | .eraseSafe => some (eraseSafe (b.byte 0))
  | .enableSafe => some (enableSafe (b.secret 0 30))
  | .detectAes => some (detectAes (b.secret 0 20))
  | .newAesKey => some (newAesKey (b.secret 0 20))

theorem readKind_finds (b : Block 59) :
    readKind.Finds b 25 26 (DataKind.ofByte? (b.byte 25)) := by
  refine (byte_finds b (by decide)).bind ?_
  show Finds (if b.byte 25 = 0x4E then Pure.pure DataKind.name
    else if b.byte 25 = 0x53 then Pure.pure DataKind.secret
    else fail (.dataKind (b.byte 25))) b 26 26 _
  unfold DataKind.ofByte?
  by_cases hname : b.byte 25 = 0x4E
  · rw [if_pos hname, if_pos hname]
    exact .pure _
  by_cases hsecret : b.byte 25 = 0x53
  · rw [if_neg hname, if_neg hname, if_pos hsecret, if_pos hsecret]
    exact .pure _
  · rw [if_neg hname, if_neg hname, if_neg hsecret, if_neg hsecret]
    exact ⟨.dataKind (b.byte 25), rfl, rfl⟩

theorem readData_finds (b : Block 59) (kind : DataKind) :
    (readData kind).Finds b 27 57 (some (dataByOffset b kind)) := by
  cases kind with
  | name => exact secret_finds b (by decide)
  | secret => exact (take_finds b (by decide)).bind (.pure _)

/-- A command with a slot number. -/
theorem numbered_finds (b : Block 59) (f : UInt8 → Command) :
    (do return f (← byte) : Decoder Command).Finds b 0 1 (some (f (b.byte 0))) :=
  (byte_finds b (by decide)).bind (.pure _)

/-- A command with one credential. -/
theorem credential_finds (b : Block 59) {width : Nat} (h : 0 + width ≤ 59) (f : Secret → Command) :
    (do return f (← secret width) : Decoder Command).Finds b 0 (0 + width)
      (some (f (b.secret 0 width))) :=
  (secret_finds b h).bind (.pure _)

/-- A command with two credentials. -/
theorem credentials_finds (b : Block 59) (f : Secret → Secret → Command) :
    (do
      let s ← secret credentialWidth
      let s' ← secret credentialWidth
      return f s s' : Decoder Command).Finds b 0 50
        (some (f (b.secret 0 25) (b.secret 25 25))) :=
  (secret_finds b (by decide)).bind ((secret_finds b (by decide)).bind (.pure _))

/-- **Whoever reads the arguments from the left finds each of them at its offset.** -/
theorem read_finds (encoding : CounterEncoding) (b : Block 59) (id : CommandId) :
    ∃ stop, (read encoding id).Finds b 0 stop (byOffset? encoding b id) := by
  cases id with
  -- no arguments
  | getStatus => exact ⟨0, .pure _⟩
  | getAdminRetryCount => exact ⟨0, .pure _⟩
  | getUserRetryCount => exact ⟨0, .pure _⟩
  | lockDevice => exact ⟨0, .pure _⟩
  | safeStatus => exact ⟨0, .pure _⟩
  -- the two that may hold no command
  | sendOtpData =>
    refine ⟨57, (secret_finds b (by decide)).bind ?_⟩
    have hkind := readKind_finds b
    unfold byOffset?
    cases hfound : DataKind.ofByte? (b.byte 25) with
    | none =>
      rw [hfound] at hkind
      exact hkind.bind_none
    | some kind =>
      rw [hfound] at hkind
      refine hkind.bind ((byte_finds b (by decide)).bind ?_)
      exact (readData_finds b kind).bind (.pure _)
  | writeToSlot =>
    refine ⟨48, (secret_finds b (by decide)).bind ((byte_finds b (by decide)).bind ?_)⟩
    have hcounter : (counter encoding).Finds b 26 34 (encoding.value? (b.field 26 8)) :=
      counter_finds encoding b (by decide)
    unfold byOffset?
    cases hfound : encoding.value? (b.field 26 8) with
    | none =>
      rw [hfound] at hcounter
      exact hcounter.bind_none
    | some counter =>
      rw [hfound] at hcounter
      refine hcounter.bind ((byte_finds b (by decide)).bind ?_)
      exact (text_finds b (by decide)).bind (.pure _)
  -- one slot number
  | readSlotName => exact ⟨1, numbered_finds b _⟩
  | readSlot => exact ⟨1, numbered_finds b _⟩
  | safeName => exact ⟨1, numbered_finds b _⟩
  | safePassword => exact ⟨1, numbered_finds b _⟩
  | safeLogin => exact ⟨1, numbered_finds b _⟩
  | eraseSafe => exact ⟨1, numbered_finds b _⟩
  -- one credential
  | factoryReset => exact ⟨20, credential_finds b (by decide) _⟩
  | newAesKey => exact ⟨20, credential_finds b (by decide) _⟩
  | detectAes => exact ⟨20, credential_finds b (by decide) _⟩
  | enableSafe => exact ⟨30, credential_finds b (by decide) _⟩
  -- two credentials
  | firstAuthenticate => exact ⟨50, credentials_finds b _⟩
  | userAuthenticate => exact ⟨50, credentials_finds b _⟩
  | unlockUserPassword => exact ⟨50, credentials_finds b _⟩
  | changeUserPin => exact ⟨50, credentials_finds b _⟩
  | changeAdminPin => exact ⟨50, credentials_finds b _⟩
  -- the rest, in the order of the layout
  | getCode =>
    refine ⟨43, (byte_finds b (by decide)).bind ((word64_finds b (by decide)).bind ?_)⟩
    refine (word64_finds b (by decide)).bind ((byte_finds b (by decide)).bind ?_)
    exact (secret_finds b (by decide)).bind (.pure _)
  | writeConfig =>
    exact ⟨30, (block_finds b (by decide)).bind ((secret_finds b (by decide)).bind (.pure _))⟩
  | eraseSlot =>
    exact ⟨26, (byte_finds b (by decide)).bind ((secret_finds b (by decide)).bind (.pure _))⟩
  | setTime =>
    exact ⟨9, (byte_finds b (by decide)).bind ((word64_finds b (by decide)).bind (.pure _))⟩
  | setSafePrimary =>
    refine ⟨32, (byte_finds b (by decide)).bind ((text_finds b (by decide)).bind ?_)⟩
    exact (secret_finds b (by decide)).bind (.pure _)
  | setSafeLogin =>
    exact ⟨33, (byte_finds b (by decide)).bind ((text_finds b (by decide)).bind (.pure _))⟩

/-! ## §3. Requests that are read. -/

section Read

variable {encoding : CounterEncoding} {q : Request} {c : Command}

/-- No argument is ever missing. -/
theorem isShort_of_decode {b : Block 59} {id : CommandId} {e : DecodeError}
    (h : (read encoding id).decode b.bytes = .error e) : e.isShort = false := by
  obtain ⟨stop, hfinds⟩ := read_finds encoding b id
  rcases hfinds.decode_cases with ⟨found, -, hdecode⟩ | ⟨-, why, hshort, hdecode⟩
  · cases hdecode.symm.trans h
  · cases hdecode.symm.trans h
    exact hshort

theorem parse_of_id (encoding : CounterEncoding) {id : CommandId} (hid : id.toByte = q.command) :
    parse q encoding = match byOffset? encoding q.payload id with
      | some c => .ok c
      | none => .error .unknown := by
  obtain ⟨stop, hfinds⟩ := read_finds encoding q.payload id
  unfold parse
  rw [CommandId.ofByte?_eq_some_iff.mpr hid]
  dsimp only
  rcases hfinds.decode_cases with ⟨found, hfound, hdecode⟩ | ⟨hfound, e, -, hdecode⟩
  · rw [hfound, hdecode]
  · rw [hfound, hdecode]

theorem parse_of_no_id (h : ∀ id : CommandId, id.toByte ≠ q.command) :
    parse q encoding = .error .unknownCommand := by
  unfold parse
  cases hid : CommandId.ofByte? q.command with
  | none => rfl
  | some id => exact absurd (CommandId.ofByte?_eq_some_iff.mp hid) (h id)

/-- A payload holds any command but the two that can be spoiled. -/
theorem byOffset?_eq_none_iff {b : Block 59} {id : CommandId} :
    byOffset? encoding b id = none ↔
      id = .sendOtpData ∧ b.byte 25 ≠ 0x4E ∧ b.byte 25 ≠ 0x53
        ∨ id = .writeToSlot ∧ encoding.value? (b.field 26 8) = none := by
  cases id with
  | sendOtpData =>
    simp only [byOffset?, Option.map_eq_none_iff, DataKind.ofByte?]
    split
    · next hname => simp [hname]
    · split
      · next hsecret => simp [hsecret]
      · next hname hsecret => simp [hname, hsecret]
  | writeToSlot => simp [byOffset?]
  | _ => simp [byOffset?]

/-- Which command is in a payload is not up to the payload. -/
theorem id_of_byOffset? {b : Block 59} {id : CommandId} (hfound : byOffset? encoding b id = some c) :
    c.id = id := by
  cases id with
  | sendOtpData =>
    obtain ⟨kind, -, rfl⟩ := Option.map_eq_some_iff.mp hfound
    rfl
  | writeToSlot =>
    obtain ⟨counter, -, rfl⟩ := Option.map_eq_some_iff.mp hfound
    rfl
  | _ =>
    cases hfound
    rfl

/-- **A command that was read stands in the payload of the request.** -/
theorem found_of_parse (h : parse q encoding = .ok c) :
    ∃ id : CommandId, id.toByte = q.command ∧ byOffset? encoding q.payload id = some c := by
  by_cases hknown : ∃ id : CommandId, id.toByte = q.command
  · obtain ⟨id, hid⟩ := hknown
    rw [parse_of_id encoding hid] at h
    refine ⟨id, hid, ?_⟩
    cases hfound : byOffset? encoding q.payload id with
    | none =>
      rw [hfound] at h
      cases h
    | some found =>
      rw [hfound] at h
      cases h
      rfl
  · rw [parse_of_no_id (not_exists.mp hknown)] at h
    cases h

/-- And nothing else is read. -/
theorem parse_eq_ok_iff : parse q encoding = .ok c ↔
    ∃ id : CommandId, id.toByte = q.command ∧ byOffset? encoding q.payload id = some c := by
  constructor
  · exact found_of_parse
  · rintro ⟨id, hid, hfound⟩
    rw [parse_of_id encoding hid, hfound]

/-- A request with the byte of any other command is a request for it. -/
theorem parse_of_total (encoding : CounterEncoding) {id : CommandId}
    (hid : CommandId.ofByte? q.command = some id) (hdata : id ≠ .sendOtpData)
    (hwrite : id ≠ .writeToSlot) : ∃ c, c.id = id ∧ parse q encoding = .ok c := by
  have hparse := parse_of_id encoding (CommandId.ofByte?_eq_some_iff.mp hid)
  cases hfound : byOffset? encoding q.payload id with
  | none =>
    rcases byOffset?_eq_none_iff.mp hfound with ⟨h, -⟩ | ⟨h, -⟩
    · exact absurd h hdata
    · exact absurd h hwrite
  | some c =>
    rw [hfound] at hparse
    exact ⟨c, id_of_byOffset? hfound, hparse⟩

end Read

end Command

end OtpToken
