/-
  OtpToken.Proofs.Field.Steps
  ───────────────────────────
  **FIELDS STEP BY STEP.**

  A payload is written and read in steps, and a step that fails does not end the
  row: the next one goes on from where the last field ended.  So what a step does
  depends on the bytes that are left, and these on which of the steps before it
  were taken (`Draft.taken`).

      writing    fails if the contents are longer than the field, or the field
                 than what is left (`Draft.put_error_iff`); what is written are
                 the fields of the steps that were taken (`Draft.written_run`)
      reading    fails for want of bytes if the field is longer than what is left,
                 and then stays; every other step moves on by the field, whatever
                 is made of it (`Read.decoder_of_short`, `Read.decoder_of_le`)
-/
import OtpToken.Proofs.Field

namespace OtpToken

/-! ## §1. Steps of writing. -/

/-- One step of writing a payload. -/
inductive Write where
  /-- One byte. -/
  | byte (label : String) (value : UInt8)
  /-- Four bytes, least significant first. -/
  | word32 (label : String) (value : UInt32)
  /-- Eight bytes, least significant first. -/
  | word64 (label : String) (value : UInt64)
  /-- Any contents in a field of any width. -/
  | bytes (label : String) (contents : Bytes) (width : UInt64)
  /-- A counter, as the token writes counters. -/
  | counter (encoding : CounterEncoding) (value : UInt64)

namespace Write

/-- The field that a step writes. -/
def field : Write → Field
  | byte label value => .byte label value
  | word32 label value => .word32 label value
  | word64 label value => .word64 label value
  | bytes label contents width => ⟨label, width.toNat, contents⟩
  | counter encoding value => .counter encoding value

/-- The width of the field. -/
def width : Write → UInt64
  | byte .. => 1
  | word32 .. => 4
  | word64 .. => 8
  | bytes _ _ width => width
  | counter .. => 8

/-- What the field is to hold. -/
def contents : Write → Bytes
  | byte _ value => [value]
  | word32 _ value => LittleEndian.encode 4 value.toNat
  | word64 _ value => LittleEndian.encode 8 value.toNat
  | bytes _ contents _ => contents
  | counter .binary value => LittleEndian.encode 8 value.toNat
  | counter .ascii value => Utf8.encode (Decimal.text value.toNat)

/-- The field in the payload: its contents, and zeros up to its width. -/
def wire (w : Write) : Bytes :=
  w.contents ++ List.replicate (w.width.toNat - w.contents.length) 0

theorem width_field (w : Write) : w.field.width = w.width.toNat := by
  cases w with
  | counter encoding value => cases encoding <;> rfl
  | _ => rfl

theorem bytes_field (w : Write) : w.field.bytes = w.contents := by
  cases w with
  | counter encoding value => cases encoding <;> rfl
  | _ => rfl

theorem padded_field (w : Write) : w.field.padded = w.wire := by
  rw [Field.padded, width_field, bytes_field]
  rfl

theorem length_wire {w : Write} (h : w.field.Fits) : w.wire.length = w.width.toNat := by
  rw [← padded_field, Field.length_padded h, width_field]

end Write

/-! ## §2. Drafts. -/

namespace Draft

variable {size : Nat}

theorem put_of_not_fits (d : Draft size) {f : Field} (h : ¬ f.Fits) :
    d.put f = .error (.tooLong f.label f.bytes.length f.width) := by
  rw [put, dif_pos (Nat.not_le.mp h)]

theorem put_of_no_room (d : Draft size) {f : Field} (h : f.Fits) (hroom : d.room < f.width) :
    d.put f = .error (.tooLong f.label f.width d.room) := by
  rw [put, dif_neg (Nat.not_lt.mpr h), dif_pos hroom]

/-- **A field is refused if its contents are longer than the field, or the field
than what is left.** -/
theorem put_error_iff (d : Draft size) (f : Field) :
    (∃ e, d.put f = .error e) ↔ f.width < f.bytes.length ∨ d.room < f.width := by
  by_cases hfits : f.Fits
  · by_cases hroom : d.room < f.width
    · exact iff_of_true ⟨_, d.put_of_no_room hfits hroom⟩ (.inr hroom)
    · obtain ⟨d', hput, -⟩ := d.put_of_fits f hfits (Nat.not_lt.mp hroom)
      refine iff_of_false ?_ (not_or.mpr ⟨Nat.not_lt.mpr hfits, hroom⟩)
      rw [hput]
      rintro ⟨e, h⟩
      cases h
  · exact iff_of_true ⟨_, d.put_of_not_fits hfits⟩ (.inl (Nat.not_le.mp hfits))

/-- The draft after a step; one that fails leaves it as it is. -/
def step (d : Draft size) (w : Write) : Draft size :=
  match d.put w.field with
  | .ok d' => d'
  | .error _ => d

/-- The draft after some steps. -/
def run (d : Draft size) (ws : List Write) : Draft size := ws.foldl step d

/-- Those of the steps that do not fail. -/
def taken (d : Draft size) : List Write → List Write
  | [] => []
  | w :: ws =>
      match d.put w.field with
      | .ok d' => w :: d'.taken ws
      | .error _ => d.taken ws

theorem step_of_ok {d d' : Draft size} {w : Write} (h : d.put w.field = .ok d') :
    d.step w = d' := by
  rw [step, h]

theorem step_of_error {d : Draft size} {w : Write} {e : LibraryError}
    (h : d.put w.field = .error e) : d.step w = d := by
  rw [step, h]

theorem fits_of_mem_taken (d : Draft size) (ws : List Write) :
    ∀ w ∈ d.taken ws, w.field.Fits := by
  induction ws generalizing d with
  | nil => simp [taken]
  | cons w ws ih =>
    rw [taken]
    cases hput : d.put w.field with
    | error e => exact ih d
    | ok d' => exact List.forall_mem_cons.mpr ⟨(fits_of_put hput).1, ih d'⟩

/-- **After any steps, the fields of those that were taken are written**, one behind the
other. -/
theorem written_run (d : Draft size) (ws : List Write) :
    (d.run ws).written = d.written ++ (d.taken ws).flatMap Write.wire := by
  induction ws generalizing d with
  | nil => exact (List.append_nil _).symm
  | cons w ws ih =>
    show ((d.step w).run ws).written = _
    rw [taken]
    cases hput : d.put w.field with
    | error e => rw [step_of_error hput, ih]
    | ok d' =>
      rw [step_of_ok hput, ih, (fits_of_put hput).2, w.padded_field, List.flatMap_cons,
        List.append_assoc]

end Draft

/-! ## §3. Reading the fields again. -/

namespace Decoder

/-- Fields of these widths, one behind the other. -/
def takeAll : List Nat → Decoder (List Bytes)
  | [] => Pure.pure []
  | width :: widths => do return (← take width) :: (← takeAll widths)

/-- What was written with some widths is read with the same. -/
theorem takeAll_reads {ws : List Write} (h : ∀ w ∈ ws, w.field.Fits) :
    (takeAll (ws.map fun w => w.width.toNat)).Reads (ws.flatMap Write.wire)
      (ws.map Write.wire) := by
  induction ws with
  | nil => exact Reads.pure []
  | cons w ws ih =>
    have hfirst : (take w.width.toNat).Reads w.wire w.wire :=
      take_reads (Write.length_wire (h w List.mem_cons_self))
    have hrest := ih fun w hw => h w (List.mem_cons_of_mem _ hw)
    rw [List.flatMap_cons, ← List.append_nil (ws.flatMap Write.wire)]
    exact hfirst.bind (hrest.bind (Reads.pure _))

end Decoder

/-! ## §4. Steps of reading. -/

/-- One step of reading a payload. -/
inductive Read where
  /-- The bytes of a field. -/
  | take (width : UInt64)
  /-- One byte. -/
  | byte
  /-- Four bytes, least significant first. -/
  | word32
  /-- Eight bytes, least significant first. -/
  | word64
  /-- The bytes of a field of fixed width. -/
  | block (width : UInt64)
  /-- Text up to the first zero byte of a field. -/
  | text (width : UInt64)
  /-- A credential up to the first zero byte of a field. -/
  | secret (width : UInt64)
  /-- A counter, as the token writes counters. -/
  | counter (encoding : CounterEncoding)

namespace Read

/-- What a step gives. -/
def Value : Read → Type
  | take _ => Bytes
  | byte => UInt8
  | word32 => UInt32
  | word64 => UInt64
  | block width => Block width.toNat
  | text _ => String
  | secret _ => Secret
  | counter _ => UInt64

/-- How a step reads. -/
def decoder : (r : Read) → Decoder r.Value
  | take width => Decoder.take width.toNat
  | byte => Decoder.byte
  | word32 => Decoder.word32
  | word64 => Decoder.word64
  | block width => Decoder.block width.toNat
  | text width => Decoder.text width.toNat
  | secret width => Decoder.secret width.toNat
  | counter encoding => Decoder.counter encoding

/-- The width of the field. -/
def width : Read → UInt64
  | take width => width
  | byte => 1
  | word32 => 4
  | word64 => 8
  | block width => width
  | text width => width
  | secret width => width
  | counter _ => 8

/-- What a step makes of the bytes of its field. -/
def value : (r : Read) → Block r.width.toNat → Except DecodeError r.Value
  | take _, b => .ok b.bytes
  | byte, b => .ok (b.bytes.headD 0)
  | word32, b => .ok (UInt32.ofNat (LittleEndian.decode b.bytes))
  | word64, b => .ok (UInt64.ofNat (LittleEndian.decode b.bytes))
  | block _, b => .ok b
  | text _, b => .ok (Utf8.decodeLossy (Bytes.untilNul b.bytes))
  | secret _, b => .ok ⟨Bytes.untilNul b.bytes⟩
  | counter .binary, b => .ok (UInt64.ofNat (LittleEndian.decode b.bytes))
  | counter .ascii, b =>
      match Decoder.asciiCounter? b.bytes with
      | some n => .ok n
      | none => .error .asciiCounter

end Read

namespace Decoder

variable {β : Type} {n : Nat}

theorem block_of_short {c : Cursor} (h : c.rest.length < n) :
    block n c = (.error (.outOfBytes n c.offset (c.offset + c.rest.length)), c) := by
  rw [block, dif_neg (Nat.not_le.mpr h)]

/-- A field of bytes is a block whose length is no longer part of its type. -/
theorem take_eq_block (n : Nat) (c : Cursor) :
    take n c = ((block n c).1.map Block.bytes, (block n c).2) := by
  unfold take block
  split <;> rfl

/-- Whoever takes a field and then does not move on makes something of its block. -/
theorem take_bind_eq {next : Bytes → Decoder β} {f : Bytes → Except DecodeError β}
    (h : ∀ bs c, next bs c = (f bs, c)) (c : Cursor) :
    (take n >>= next) c = ((block n c).1.bind fun b => f b.bytes, (block n c).2) := by
  show Decoder.bind (take n) next c = _
  rw [Decoder.bind, take_eq_block]
  cases (block n c).1 with
  | error e => rfl
  | ok b => exact h b.bytes _

end Decoder

namespace Read

variable {r : Read} {c : Cursor}

/-- **Every step takes one field and makes something of it.** -/
theorem decoder_eq (r : Read) (c : Cursor) :
    r.decoder c = ((Decoder.block r.width.toNat c).1.bind r.value,
      (Decoder.block r.width.toNat c).2) := by
  cases r with
  | take width =>
    refine (Decoder.take_eq_block width.toNat c).trans (Prod.ext ?_ rfl)
    show Except.map Block.bytes (Decoder.block width.toNat c).1
      = Except.bind (Decoder.block width.toNat c).1 fun b => .ok b.bytes
    cases (Decoder.block width.toNat c).1 <;> rfl
  | block width =>
    refine Prod.ext ?_ rfl
    show (Decoder.block width.toNat c).1 = Except.bind (Decoder.block width.toNat c).1 .ok
    cases (Decoder.block width.toNat c).1 <;> rfl
  | byte => exact Decoder.take_bind_eq (fun _ _ => rfl) c
  | word32 => exact Decoder.take_bind_eq (fun _ _ => rfl) c
  | word64 => exact Decoder.take_bind_eq (fun _ _ => rfl) c
  | text width => exact Decoder.take_bind_eq (fun _ _ => rfl) c
  | secret width => exact Decoder.take_bind_eq (fun _ _ => rfl) c
  | counter encoding =>
    cases encoding with
    | binary => exact Decoder.take_bind_eq (fun _ _ => rfl) c
    | ascii =>
      refine Decoder.take_bind_eq (f := fun bs => match Decoder.asciiCounter? bs with
        | some n => .ok n
        | none => .error .asciiCounter) (fun bs c => ?_) c
      cases Decoder.asciiCounter? bs <;> rfl

/-- Whatever is made of a field, no bytes are missing. -/
theorem isShort_of_value {b : Block r.width.toNat} {e : DecodeError} (h : r.value b = .error e) :
    e.isShort = false := by
  cases r with
  | counter encoding =>
    cases encoding with
    | binary => cases h
    | ascii =>
      -- the only field that can be there and not be read
      simp only [value] at h
      split at h
      · cases h
      · cases h
        rfl
  | _ => cases h

/-- **A field that is longer than what is left is not read**, and the step stays where it
is. -/
theorem decoder_of_short (h : c.rest.length < r.width.toNat) :
    r.decoder c
      = (.error (.outOfBytes r.width.toNat c.offset (c.offset + c.rest.length)), c) := by
  rw [decoder_eq, Decoder.block_of_short h]
  rfl

/-- **A field that is there is passed over**, and no bytes are missing, whatever is made of
it. -/
theorem decoder_of_le (h : r.width.toNat ≤ c.rest.length) :
    (r.decoder c).2 = ⟨c.offset + r.width.toNat, c.rest.drop r.width.toNat⟩
      ∧ ∀ e, (r.decoder c).1 = .error e → e.isShort = false := by
  obtain ⟨b, hb⟩ := Decoder.block_total r.width.toNat c h
  rw [decoder_eq, hb]
  exact ⟨rfl, fun e he => isShort_of_value he⟩

/-- Bytes are missing exactly if fewer are left than the field is wide. -/
theorem short_iff :
    (∃ e, (r.decoder c).1 = .error e ∧ e.isShort = true) ↔ c.rest.length < r.width.toNat := by
  constructor
  · rintro ⟨e, he, hshort⟩
    refine Nat.not_le.mp fun hle => ?_
    rw [(decoder_of_le hle).2 e he] at hshort
    cases hshort
  · intro h
    rw [decoder_of_short h]
    exact ⟨_, rfl, rfl⟩

end Read

namespace Cursor

/-- The cursor after a step. -/
def step (c : Cursor) (r : Read) : Cursor := (r.decoder c).2

/-- The cursor after some steps, also behind failed ones. -/
def run (c : Cursor) (rs : List Read) : Cursor := rs.foldl step c

/-- The cursor stands in `data`, and what is left is what stands behind it. -/
def Within (c : Cursor) (data : Bytes) : Prop :=
  c.offset ≤ data.length ∧ c.rest = data.drop c.offset

variable {c : Cursor} {data : Bytes}

theorem Within.start (data : Bytes) : (Cursor.start data).Within data :=
  ⟨Nat.zero_le _, rfl⟩

theorem Within.length_rest (h : c.Within data) : c.rest.length = data.length - c.offset := by
  rw [h.2, List.length_drop]

theorem Within.step (h : c.Within data) (r : Read) : (c.step r).Within data := by
  have hlength := h.length_rest
  by_cases hroom : r.width.toNat ≤ c.rest.length
  · rw [Cursor.step, (Read.decoder_of_le hroom).1]
    refine ⟨?_, ?_⟩
    · show c.offset + r.width.toNat ≤ data.length
      have hin := h.1
      omega
    · show c.rest.drop r.width.toNat = data.drop (c.offset + r.width.toNat)
      rw [h.2, List.drop_drop]
  · rw [Cursor.step, Read.decoder_of_short (Nat.not_le.mp hroom)]
    exact h

end Cursor

end OtpToken
