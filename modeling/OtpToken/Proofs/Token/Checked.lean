/-
  OtpToken.Proofs.Token.Checked
  ─────────────────────────────
  **NO STEP OF A TOKEN FAILS.**

  Reports and payloads are blocks, and a slice of a block lies inside it by its
  type.  What else could fail on the way from a report to its reply are steps
  on bytes and numbers that the report or the state chooses:

      the fields of a request            could reach past the payload
      a piece of a secret                could be cut, or laid, out of bounds
      the truncation of a tag            could read past its end
      the reduction to digits            could divide by zero
      the time step                      could divide by zero
      the next counter                   could overflow

  Here each of them is written with its check, and `none` is what comes of a
  check that fails.  `send?` is a token with all the checks; a token that is
  sound never fails one of them, and `send?` does what `send` does
  (`send?_eq`).
-/
import OtpToken.Proofs.Code
import OtpToken.Proofs.Token.Sound

namespace OtpToken

/-! ## §1. Steps that can fail. -/

namespace Bytes

/-- The bytes from `start` up to `stop`, if they are there. -/
def slice? (bs : Bytes) (start stop : Nat) : Option Bytes :=
  if start ≤ stop ∧ stop ≤ bs.length then some ((bs.drop start).take (stop - start)) else none

/-- `piece` in the place of the bytes from `start` up to `stop`, if they are
there and are as many. -/
def replace? (bs : Bytes) (start stop : Nat) (piece : Bytes) : Option Bytes :=
  (bs.slice? start stop).bind fun hole =>
    if hole.length = piece.length then some (bs.take start ++ piece ++ bs.drop stop) else none

variable {bs piece : Bytes} {start stop : Nat}

theorem slice?_of_le (h : start ≤ stop) (hstop : stop ≤ bs.length) :
    bs.slice? start stop = some ((bs.drop start).take (stop - start)) :=
  if_pos ⟨h, hstop⟩

theorem replace?_of_le (hlength : start + piece.length = stop) (hstop : stop ≤ bs.length) :
    bs.replace? start stop piece = some (bs.take start ++ piece ++ bs.drop stop) := by
  unfold replace?
  rw [slice?_of_le (by omega) hstop]
  refine if_pos ?_
  simp only [List.length_take, List.length_drop]
  omega

end Bytes

/-- A sum that does not overflow. -/
def sum? (a b : UInt64) : Option UInt64 :=
  if a.toNat + b.toNat < UInt64.size then some (a + b) else none

/-- A remainder, unless it is by zero. -/
def remainder? (a b : Nat) : Option Nat := if b = 0 then none else some (a % b)

/-! ## §2. Codes. -/

/-- `truncate` with its bounds checked. -/
def truncate? (tag : Bytes) : Option Nat :=
  (tag.getLast?).bind fun last =>
    let offset := last.toNat % 16
    (tag.slice? offset (offset + 4)).map fun bytes => BigEndian.decode bytes % 0x80000000

/-- `codeValue` with its bounds checked. -/
def codeValue? (secret : Bytes) (counter : UInt64) (digits : Digits) :
    Option (Except CodeError UInt32) :=
  if secret.isEmpty then some (.error .emptySecret)
  else
    (truncate? (Hmac.tag secret (BigEndian.encode 8 counter.toNat))).bind fun n =>
      (remainder? n digits.bound).map fun code => .ok (UInt32.ofNat code)

/-- `timeStep` with its division checked. -/
def timeStep? (time : UInt64) (period : UInt32) : Option UInt64 :=
  if period = 0 then none else some (time / period.toUInt64)

/-- **The four bytes that a tag names lie inside it.** -/
theorem truncate?_eq {tag : Bytes} (h : tag.length = 20) :
    truncate? tag = some (truncate tag) := by
  have hne : tag ≠ [] := by
    rintro rfl
    cases h
  unfold truncate? truncate
  rw [List.getLast?_eq_some_getLast hne, List.getLastD_eq_getLast?,
    List.getLast?_eq_some_getLast hne]
  have hoffset : (tag.getLast hne).toNat % 16 + 4 ≤ tag.length := by omega
  dsimp only [Option.bind_some, Option.getD_some]
  rw [Bytes.slice?_of_le (Nat.le_add_right _ _) hoffset, Nat.add_sub_cancel_left]
  rfl

theorem codeValue?_eq (secret : Bytes) (counter : UInt64) (digits : Digits) :
    codeValue? secret counter digits = some (codeValue secret counter digits) := by
  have hbound : digits.bound ≠ 0 := by
    cases digits <;> decide
  unfold codeValue? codeValue
  split
  · rfl
  · rw [truncate?_eq (Hmac.length_tag _ _)]
    dsimp only [Option.bind_some]
    rw [remainder?, if_neg hbound]
    rfl

theorem timeStep_of_step? (time : UInt64) {period : UInt32} (h : period ≠ 0) :
    timeStep? time period = some (time / period.toUInt64)
      ∧ timeStep time period = .ok (time / period.toUInt64) :=
  ⟨if_neg h, if_neg h⟩

/-! ## §3. Slots. -/

namespace Store

/-- `nextHotp` with its steps checked. -/
def nextHotp? (s : Store) (index : UInt8) (maximum : UInt64) :
    Option (Except Status CodeRecord × Store) :=
  match s.code .hotp index with
  | .error status => some (.error status, s)
  | .ok slot =>
      if maximum ≤ slot.details.counter then some (.error .notSupported, s)
      else
        (codeValue? slot.secret.bytes slot.details.counter slot.details.flags.digits).bind
          fun
          | .error _ => some (.error .unknown, s)
          | .ok code =>
              (sum? slot.details.counter 1).map fun counter =>
                let details := { slot.details with counter }
                (.ok ⟨code, details.flags⟩,
                  { s with codes := s.codes.set .hotp index (some { slot with details }) })

/-- `totp` with its steps checked. -/
def totp? (s : Store) (index : UInt8) (time : UInt64) : Option (Except Status CodeRecord) :=
  match s.code .totp index with
  | .error status => some (.error status)
  | .ok slot =>
      if UInt32.size ≤ slot.details.counter.toNat then some (.error .unknown)
      else
        (timeStep? time slot.details.counter.toUInt32).bind fun step =>
          (codeValue? slot.secret.bytes step slot.details.flags.digits).map fun
            | .error _ => .error .unknown
            | .ok code => .ok ⟨code, slot.details.flags⟩

variable {s : Store} {index : UInt8}

/-- **A counter below some maximum moves on without an overflow.** -/
theorem sum?_of_lt {counter maximum : UInt64} (h : counter < maximum) :
    sum? counter 1 = some (counter + 1) := by
  have hlt : counter.toNat < maximum.toNat := UInt64.lt_iff_toNat_lt.mp h
  have hmax : maximum.toNat < 18446744073709551616 := maximum.toNat_lt
  refine if_pos ?_
  show counter.toNat + 1 < 18446744073709551616
  omega

theorem nextHotp?_eq (s : Store) (index : UInt8) (maximum : UInt64) :
    s.nextHotp? index maximum = some (s.nextHotp index maximum) := by
  unfold nextHotp? nextHotp
  cases s.code .hotp index with
  | error status => rfl
  | ok slot =>
    dsimp only
    split
    · rfl
    · next hroom =>
      rw [codeValue?_eq]
      cases codeValue slot.secret.bytes slot.details.counter slot.details.flags.digits with
      | error why => rfl
      | ok code =>
        dsimp only [Option.bind_some]
        rw [sum?_of_lt (UInt64.not_le.mp hroom)]
        rfl

/-- **A period of at least one is never divided by as zero.** -/
theorem totp?_eq (time : UInt64)
    (hperiod : ∀ slot, s.codes.at? .totp index = some slot → 1 ≤ slot.details.counter) :
    s.totp? index time = some (s.totp index time) := by
  unfold totp? totp
  rcases s.code_cases .totp index with ⟨status, -, hcode⟩ | ⟨slot, hslot, hcode⟩
  · rw [hcode]
  · rw [hcode]
    dsimp only
    split
    · rfl
    · next hsmall =>
      have hne : slot.details.counter.toUInt32 ≠ 0 :=
        toUInt32_ne_zero (hperiod slot (congrArg Option.join hslot)) (Nat.not_le.mp hsmall)
      obtain ⟨hstep?, hstep⟩ := timeStep_of_step? time hne
      have hbind : ((.ok (time / slot.details.counter.toUInt32.toUInt64) :
          Except CodeError UInt64).bind fun step =>
            codeValue slot.secret.bytes step slot.details.flags.digits)
          = codeValue slot.secret.bytes (time / slot.details.counter.toUInt32.toUInt64)
              slot.details.flags.digits := rfl
      rw [hstep?, hstep, hbind]
      dsimp only [Option.bind_some]
      rw [codeValue?_eq]
      cases codeValue slot.secret.bytes _ slot.details.flags.digits with
      | error why => rfl
      | ok code => rfl

end Store

/-! ## §4. Tokens. -/

/-- `withChunk` with its bounds checked. -/
def Staged.withChunk? (s : Staged) (capacity : Nat) (chunk : UInt8) (data : Bytes) :
    Option (Except Status Unit × Staged) :=
  let offset := chunk.toNat * chunkWidth
  if capacity ≤ offset then some (.error .notSupported, s)
  else
    let stop := min (offset + chunkWidth) capacity
    let buffer := s.secret.getD (List.replicate capacity 0)
    let length := min (stop - offset) data.length
    (data.slice? 0 length).bind fun piece =>
      (buffer.replace? offset (offset + length) piece).map fun secret =>
        (.ok (), { s with secret := some secret })

/-- **Every piece lies inside a staged buffer of the full length.** -/
theorem Staged.withChunk?_eq {s : Staged} {capacity : Nat}
    (h : ∀ secret, s.secret = some secret → secret.length = capacity) (chunk : UInt8)
    (data : Bytes) : s.withChunk? capacity chunk data = some (s.withChunk capacity chunk data) := by
  have hbuffer := length_buffer h
  unfold withChunk? withChunk
  dsimp only
  generalize chunk.toNat * chunkWidth = offset
  generalize s.secret.getD (List.replicate capacity 0) = buffer at hbuffer
  split
  · rfl
  · next hroom =>
    -- as many bytes as there are, as belong to a piece, and as have room
    have hlength : min (min (offset + chunkWidth) capacity - offset) data.length
        = min (capacity - offset) (min chunkWidth data.length) := by omega
    have hpiece : (data.drop 0).take (min (capacity - offset) (min chunkWidth data.length) - 0)
        = (data.take chunkWidth).take (capacity - offset) := by
      rw [List.drop_zero, Nat.sub_zero, List.take_take, ← Nat.min_assoc, List.take_eq_take_iff]
      omega
    have hcount : ((data.take chunkWidth).take (capacity - offset)).length
        = min (capacity - offset) (min chunkWidth data.length) := by
      rw [List.length_take, List.length_take]
    rw [hlength, Bytes.slice?_of_le (Nat.zero_le _) (by omega), hpiece]
    dsimp only [Option.bind_some]
    rw [Bytes.replace?_of_le (by rw [hcount]) (by omega)]
    unfold overlay
    dsimp only [Option.map_some]
    rw [hbuffer, hcount]

-- a buffer that is too short for the second piece would not do
example : Staged.withChunk? ⟨none, some [1, 2, 3]⟩ 40 1 [4] = none := by decide

namespace Token

variable {t : Token}

/-- `stage` with its bounds checked. -/
def stage? (t : Token) (kind : DataKind) (chunk : UInt8) (data : Bytes) :
    Option (Answer × Token) :=
  match kind with
  | .name => some (t.stage .name chunk data)
  | .secret =>
      (t.staged.withChunk? t.capabilities.secretLength chunk data).map fun step =>
        (step.1.map fun _ => .empty, { t with staged := step.2 })

/-- `giveCode` with its steps checked. -/
def giveCode? (t : Token) (number : UInt8) : Option (Answer × Token) :=
  match CodeKind.ofSlotNumber? number with
  | none => some (t.refuse .wrongSlot)
  | some (.hotp, index) =>
      (t.store.nextHotp? index t.encoding.maximum).map fun
        | (.error status, store) => refuse { t with store } status
        | (.ok record, store) => tell { t with store } record.encode
  | some (.totp, index) =>
      (t.store.totp? index t.clock).map fun
        | .error status => t.refuse status
        | .ok record => t.tell record.encode

/-- `execute` with its steps checked; only pieces and codes have such steps. -/
def execute? (t : Token) : Command → Option (Answer × Token)
  | .sendOtpData adminTemp kind chunk data =>
      if t.session.admits .admin adminTemp.bytes then t.stage? kind chunk data.bytes
      else some (t.refuse .notAuthorized)
  | .getCode number _ _ _ userTemp =>
      if t.store.config.protectsCodes && !t.session.admits .user userTemp.bytes then
        some (t.refuse .notAuthorized)
      else t.giveCode? number
  | c => some (t.execute c)

/-- `handle` with its steps checked: a field past the end of the payload fails
here, and so does a step of the command. -/
def handle? (t : Token) (q : Request) : Option (Answer × Token) :=
  match CommandId.ofByte? q.command with
  | none => some (t.refuse .unknownCommand)
  | some id =>
      match (Command.read t.encoding id).decode q.payload.bytes with
      | .ok c => t.execute? c
      | .error why => if why.isShort then none else some (t.refuse .unknown)

/-- `send` with its steps checked. -/
def send? (t : Token) (r : Report) : Option (Except LineError Report × Token) :=
  if !t.pluggedIn then some (.error .disconnected, t)
  else match Request.ofReport r with
    | .error _ => some (.ok (respondWrongCrc r).toReport, t)
    | .ok q => (t.handle? q).map fun (answer, t) => (.ok (respond q answer).toReport, t)

theorem stage?_eq (h : t.Sound) (kind : DataKind) (chunk : UInt8) (data : Bytes) :
    t.stage? kind chunk data = some (t.stage kind chunk data) := by
  cases kind with
  | name => rfl
  | secret =>
    unfold stage? stage
    dsimp only
    rw [Staged.withChunk?_eq h.staged]
    rfl

theorem giveCode?_eq (h : t.Sound) (number : UInt8) :
    t.giveCode? number = some (t.giveCode number) := by
  unfold giveCode? giveCode withSlot
  cases CodeKind.ofSlotNumber? number with
  | none => rfl
  | some slot =>
    obtain ⟨kind, index⟩ := slot
    cases kind with
    | hotp =>
      dsimp only
      rw [Store.nextHotp?_eq]
      obtain ⟨status | record, store⟩ := t.store.nextHotp index t.encoding.maximum
      · rfl
      · rfl
    | totp =>
      have hperiod : ∀ slot, t.store.codes.at? .totp index = some slot →
          1 ≤ slot.details.counter := fun slot hslot => (h.slots .totp index slot hslot).period rfl
      dsimp only
      rw [Store.totp?_eq t.clock hperiod]
      cases t.store.totp index t.clock with
      | error status => rfl
      | ok record => rfl

theorem execute?_eq (h : t.Sound) (c : Command) : t.execute? c = some (t.execute c) := by
  cases c with
  | sendOtpData adminTemp kind chunk data =>
    unfold execute? execute withTemp
    dsimp only
    rw [stage?_eq h]
    split
    · rfl
    · rfl
  | getCode number challenge lastTime lastInterval userTemp =>
    unfold execute? execute withTemp
    dsimp only
    rw [giveCode?_eq h]
    cases t.store.config.protectsCodes with
    | false => rfl
    | true => cases t.session.admits .user userTemp.bytes <;> rfl
  | _ => rfl

theorem handle?_eq (h : t.Sound) (q : Request) : t.handle? q = some (t.handle q) := by
  unfold handle? handle Command.parse
  cases CommandId.ofByte? q.command with
  | none => rfl
  | some id =>
    dsimp only
    cases hread : (Command.read t.encoding id).decode q.payload.bytes with
    | ok c => exact execute?_eq h c
    | error why =>
      dsimp only
      rw [Command.isShort_of_decode hread]
      rfl

/-- **A sound token never fails a step, whatever report comes in.** -/
theorem send?_eq (h : t.Sound) (r : Report) : t.send? r = some (t.send r) := by
  unfold send? send
  split
  · rfl
  · cases Request.ofReport r with
    | error why => rfl
    | ok q =>
      dsimp only
      rw [handle?_eq h]
      rfl

/-! ## §5. Replies. -/

/-- **A plugged-in token replies to every report with a response that a host
can read**, and which repeats the command byte and the checksum of the
report. -/
theorem send_replies (hplug : t.pluggedIn = true) (r : Report) :
    ∃ reply p, (t.send r).1 = .ok reply ∧ Response.ofReport reply true = .ok p
      ∧ p.command = r.byte 1 ∧ p.requestCrc = r.storedCrc := by
  rw [send_of_plugged hplug]
  cases hq : Request.ofReport r with
  | error why =>
    exact ⟨_, respondWrongCrc r, rfl, Response.ofReport_toReport _ true, rfl, rfl⟩
  | ok q =>
    obtain ⟨hcommand, hcrc⟩ := Request.of_ofReport hq
    refine ⟨_, respond q (t.handle q).1, rfl, Response.ofReport_toReport _ true, ?_, ?_⟩
    · rw [command_respond, hcommand]
    · rw [requestCrc_respond, hcrc]

end Token

/-- **Every token is sound and replies without a step that fails**, whatever
reports it was sent and whatever comes next. -/
theorem Dialogue.sound_over_runs (config : TokenConfig) (reports : List Report) :
    let t := ((start config).run reports).token
    t.Sound ∧ ∀ r : Report, t.send? r = some (t.send r)
      ∧ ∃ reply p, (t.send r).1 = .ok reply ∧ Response.ofReport reply true = .ok p
          ∧ p.command = r.byte 1 ∧ p.requestCrc = r.storedCrc := by
  have hsound := sound_run config reports
  obtain ⟨-, hplug⟩ := fixed_run config reports
  exact ⟨hsound, fun r => ⟨Token.send?_eq hsound r, Token.send_replies hplug r⟩⟩

end OtpToken
