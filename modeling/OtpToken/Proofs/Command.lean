/-
  OtpToken.Proofs.Command
  ───────────────────────
  **COMMANDS SURVIVE THE WIRE.**

  A command is laid out by `Command.fields` and read by `Command.read`, two
  separate lists of 28 layouts.  `read_reads` says that they agree: what a
  layout wrote is read back as `Command.norm`, the command with every
  credential and text cut at its first zero byte and every piece of a secret
  filled up to a whole piece.

  `parse_toRequest` carries this over to requests, `toRequest_isOk_iff` says
  which commands have a request at all.
-/
import OtpToken.Command.Parse
import OtpToken.Proofs.Field

namespace OtpToken

namespace Command

/-! ## §1. What arrives of a command. -/

/-- The command that a token makes of a request for `c`. -/
def norm : Command → Command
  | sendOtpData adminTemp .name chunk data =>
      sendOtpData adminTemp.untilNul .name chunk data.untilNul
  | sendOtpData adminTemp .secret chunk data =>
      sendOtpData adminTemp.untilNul .secret chunk ⟨Bytes.padTo chunkWidth data.bytes⟩
  | writeToSlot adminTemp slot counter flags tokenId =>
      writeToSlot adminTemp.untilNul slot counter flags (Utf8.untilNul tokenId)
  | getCode slot challenge lastTime lastInterval userTemp =>
      getCode slot challenge lastTime lastInterval userTemp.untilNul
  | writeConfig config adminTemp => writeConfig config adminTemp.untilNul
  | eraseSlot slot adminTemp => eraseSlot slot adminTemp.untilNul
  | firstAuthenticate pin temp => firstAuthenticate pin.untilNul temp.untilNul
  | userAuthenticate pin temp => userAuthenticate pin.untilNul temp.untilNul
  | unlockUserPassword adminPin newUserPin =>
      unlockUserPassword adminPin.untilNul newUserPin.untilNul
  | factoryReset adminPin => factoryReset adminPin.untilNul
  | changeUserPin old new => changeUserPin old.untilNul new.untilNul
  | changeAdminPin old new => changeAdminPin old.untilNul new.untilNul
  | setSafePrimary slot name password =>
      setSafePrimary slot (Utf8.untilNul name) password.untilNul
  | setSafeLogin slot login => setSafeLogin slot (Utf8.untilNul login)
  | enableSafe userPin => enableSafe userPin.untilNul
  | detectAes userPin => detectAes userPin.untilNul
  | newAesKey adminPin => newAesKey adminPin.untilNul
  | c => c

theorem id_norm (c : Command) : c.norm.id = c.id := by
  cases c with
  | sendOtpData adminTemp kind chunk data => cases kind <;> rfl
  | _ => rfl

/-! ## §2. Reading back a layout. -/

open Decoder

theorem readKind_reads (kind : DataKind) :
    readKind.Reads (Field.byte "data type" kind.toByte).padded kind := by
  rw [← List.append_nil (Field.padded _)]
  refine Reads.bind (byte_reads _ _) ?_
  cases kind with
  | name => exact Reads.pure _
  | secret => exact Reads.pure _

/-- The piece of data that arrives: a name is cut, a secret is filled up. -/
theorem readData_reads {kind : DataKind} {data : Secret}
    (hf : (Field.secret "OTP data" chunkWidth data).Fits) :
    (readData kind).Reads (Field.secret "OTP data" chunkWidth data).padded
      (match kind with
        | .name => data.untilNul
        | .secret => ⟨Bytes.padTo chunkWidth data.bytes⟩) := by
  cases kind with
  | name => exact secret_reads hf
  | secret => exact field_reads hf rfl fun bs => (⟨bs⟩ : Secret)

/-- **What a layout wrote is read back as the normal form of the
command.** -/
theorem read_reads {encoding : CounterEncoding} {c : Command}
    (h : ∀ f ∈ c.fields encoding, f.Fits) :
    (read encoding c.id).Reads ((c.fields encoding).flatMap Field.padded) c.norm := by
  cases c with
  -- no arguments
  | getStatus => exact Reads.pure _
  | getAdminRetryCount => exact Reads.pure _
  | getUserRetryCount => exact Reads.pure _
  | lockDevice => exact Reads.pure _
  | safeStatus => exact Reads.pure _
  -- slot data: how a piece is read depends on the kind in front of it
  | sendOtpData adminTemp kind chunk data =>
    simp only [fields, List.forall_mem_cons] at h
    obtain ⟨htemp, -, -, hdata, -⟩ := h
    refine Reads.bind (secret_reads htemp) (Reads.bind (readKind_reads kind) ?_)
    refine Reads.bind (byte_reads _ _) (Reads.bind (readData_reads hdata) ?_)
    cases kind with
    | name => exact Reads.pure _
    | secret => exact Reads.pure _
  | writeToSlot adminTemp slot counter flags tokenId =>
    simp only [fields, List.forall_mem_cons] at h
    obtain ⟨htemp, -, hcounter, -, hid, -⟩ := h
    refine Reads.bind (secret_reads htemp) (Reads.bind (byte_reads _ _) ?_)
    refine Reads.bind (counter_reads hcounter) (Reads.bind (byte_reads _ _) ?_)
    refine Reads.bind (text_reads hid) ?_
    rw [SlotFlags.ofByte_toByte]
    exact Reads.pure _
  -- one slot number
  | readSlotName slot => exact Reads.bind (byte_reads _ _) (Reads.pure _)
  | readSlot slot => exact Reads.bind (byte_reads _ _) (Reads.pure _)
  | safeName slot => exact Reads.bind (byte_reads _ _) (Reads.pure _)
  | safePassword slot => exact Reads.bind (byte_reads _ _) (Reads.pure _)
  | safeLogin slot => exact Reads.bind (byte_reads _ _) (Reads.pure _)
  | eraseSafe slot => exact Reads.bind (byte_reads _ _) (Reads.pure _)
  -- credentials and texts, in the order of the layout
  | getCode slot challenge lastTime lastInterval userTemp =>
    simp only [fields, List.forall_mem_cons] at h
    obtain ⟨-, -, -, -, htemp, -⟩ := h
    refine Reads.bind (byte_reads _ _) (Reads.bind (word64_reads _ _) ?_)
    refine Reads.bind (word64_reads _ _) (Reads.bind (byte_reads _ _) ?_)
    exact Reads.bind (secret_reads htemp) (Reads.pure _)
  | writeConfig config adminTemp =>
    simp only [fields, List.forall_mem_cons] at h
    obtain ⟨-, htemp, -⟩ := h
    refine Reads.bind (block_reads _ _) (Reads.bind (secret_reads htemp) ?_)
    exact Reads.pure _
  | eraseSlot slot adminTemp =>
    simp only [fields, List.forall_mem_cons] at h
    obtain ⟨-, htemp, -⟩ := h
    exact Reads.bind (byte_reads _ _) (Reads.bind (secret_reads htemp) (Reads.pure _))
  | firstAuthenticate pin temp =>
    simp only [fields, List.forall_mem_cons] at h
    obtain ⟨hpin, htemp, -⟩ := h
    exact Reads.bind (secret_reads hpin) (Reads.bind (secret_reads htemp) (Reads.pure _))
  | userAuthenticate pin temp =>
    simp only [fields, List.forall_mem_cons] at h
    obtain ⟨hpin, htemp, -⟩ := h
    exact Reads.bind (secret_reads hpin) (Reads.bind (secret_reads htemp) (Reads.pure _))
  | setTime reset time =>
    refine Reads.bind (byte_reads _ _) (Reads.bind (word64_reads _ _) ?_)
    cases reset with
    | false => exact Reads.pure _
    | true => exact Reads.pure _
  | unlockUserPassword adminPin newUserPin =>
    simp only [fields, List.forall_mem_cons] at h
    obtain ⟨hpin, hnew, -⟩ := h
    exact Reads.bind (secret_reads hpin) (Reads.bind (secret_reads hnew) (Reads.pure _))
  | factoryReset adminPin =>
    exact Reads.bind (secret_reads (h _ List.mem_cons_self)) (Reads.pure _)
  | changeUserPin old new =>
    simp only [fields, List.forall_mem_cons] at h
    obtain ⟨hold, hnew, -⟩ := h
    exact Reads.bind (secret_reads hold) (Reads.bind (secret_reads hnew) (Reads.pure _))
  | changeAdminPin old new =>
    simp only [fields, List.forall_mem_cons] at h
    obtain ⟨hold, hnew, -⟩ := h
    exact Reads.bind (secret_reads hold) (Reads.bind (secret_reads hnew) (Reads.pure _))
  | setSafePrimary slot name password =>
    simp only [fields, List.forall_mem_cons] at h
    obtain ⟨-, hname, hpassword, -⟩ := h
    refine Reads.bind (byte_reads _ _) (Reads.bind (text_reads hname) ?_)
    exact Reads.bind (secret_reads hpassword) (Reads.pure _)
  | setSafeLogin slot login =>
    simp only [fields, List.forall_mem_cons] at h
    obtain ⟨-, hlogin, -⟩ := h
    exact Reads.bind (byte_reads _ _) (Reads.bind (text_reads hlogin) (Reads.pure _))
  | enableSafe userPin =>
    exact Reads.bind (secret_reads (h _ List.mem_cons_self)) (Reads.pure _)
  | detectAes userPin =>
    exact Reads.bind (secret_reads (h _ List.mem_cons_self)) (Reads.pure _)
  | newAesKey adminPin =>
    exact Reads.bind (secret_reads (h _ List.mem_cons_self)) (Reads.pure _)

/-! ## §3. Requests. -/

/-- No layout is longer than the payload of a request. -/
theorem sum_width_fields_le (encoding : CounterEncoding) (c : Command) :
    Field.totalWidth (c.fields encoding) ≤ 59 := by
  cases c with
  | writeToSlot adminTemp slot counter flags tokenId =>
    cases encoding <;> exact Nat.le_of_ble_eq_true rfl
  | _ => exact Nat.le_of_ble_eq_true rfl

/-- **A command has a request exactly when its arguments fit their
fields.** -/
theorem toRequest_isOk_iff (c : Command) (encoding : CounterEncoding) :
    (∃ q, c.toRequest encoding = .ok q) ↔ ∀ f ∈ c.fields encoding, f.Fits := by
  constructor
  · rintro ⟨q, hq⟩
    cases hl : layOut 59 (c.fields encoding) with
    | error e => rw [toRequest, hl] at hq; cases hq
    | ok block => exact (fits_of_layOut hl).1
  · intro h
    obtain ⟨block, hl⟩ := layOut_of_fits 59 _ h (sum_width_fields_le encoding c)
    exact ⟨⟨c.id.toByte, block⟩, by rw [toRequest, hl]; rfl⟩

/-- All commands but a write are laid out in the same way for all tokens. -/
theorem toRequest_of_not_write {c : Command} (h : c.id ≠ .writeToSlot)
    (encoding encoding' : CounterEncoding) : c.toRequest encoding = c.toRequest encoding' := by
  cases c with
  | writeToSlot temp slot counter flags tokenId => exact absurd rfl h
  | _ => rfl

theorem command_of_toRequest {c : Command} {encoding : CounterEncoding} {q : Request}
    (h : c.toRequest encoding = .ok q) : q.command = c.id.toByte := by
  unfold toRequest at h
  cases hl : layOut 59 (c.fields encoding) with
  | error e =>
    rw [hl] at h
    cases h
  | ok payload =>
    rw [hl] at h
    cases h
    rfl

/-- **The token reads a request as the normal form of the command that it
was made for.** -/
theorem parse_toRequest {c : Command} {encoding : CounterEncoding} {q : Request}
    (h : c.toRequest encoding = .ok q) : parse q encoding = .ok c.norm := by
  rw [toRequest] at h
  cases hl : layOut 59 (c.fields encoding) with
  | error e => rw [hl] at h; cases h
  | ok block =>
    rw [hl] at h
    cases h
    obtain ⟨hfits, zeros, hbytes⟩ := fits_of_layOut hl
    have hid : CommandId.ofByte? c.id.toByte = some c.id := CommandId.ofByte?_eq_some_iff.mpr rfl
    have hread := (read_reads hfits).decode zeros
    rw [parse]
    simp only [hid, hbytes, hread]

end Command

end OtpToken
