/-
  OtpToken.Proofs.Field.Memory
  ────────────────────────────
  **FIELDS IN MEMORY.**

  A draft is a list of bytes that grows, and a cursor forgets what it has passed.
  In memory neither grows nor is forgotten: a payload is there as a whole from the
  start, and a position in it is a word.  Widths are words as well, up to the last
  one, so the sum that says where a field ends can wrap around.

      `Buffer`    bytes that are overwritten in place, and how many are written
      `Window`    bytes that stay, and how many are read

  `fieldEnd?_eq_some_iff` says that no end that has wrapped is ever taken for one.
  From there `Buffer.Shows` and `Window.Shows` hold after any steps: the bytes in
  memory are the finished draft, the position is its length, and every step is
  answered alike.  Contents that are shorter than their field are followed by zeros
  because nothing behind the position was ever written (`Block.bytes_store`).
  `fields_in_order` says what comes of any steps.
-/
import OtpToken.Proofs.Field.Steps

namespace OtpToken

/-! ## §1. Positions. -/

/-- Where a field ends that starts at `start`, if it lies within `size` bytes.  The
sum wraps around; it has done so if it comes before the start. -/
def fieldEnd? (size start width : UInt64) : Option UInt64 :=
  let stop := start + width
  if start ≤ stop ∧ stop ≤ size then some stop else none

section Positions

variable {size start width stop : UInt64}

/-- **What is taken for the end of a field is the end of the field.** -/
theorem fieldEnd?_eq_some_iff :
    fieldEnd? size start width = some stop
      ↔ stop.toNat = start.toNat + width.toNat ∧ stop.toNat ≤ size.toNat := by
  have hstart := start.toNat_lt
  have hwidth := width.toNat_lt
  have hstop := stop.toNat_lt
  unfold fieldEnd?
  dsimp only
  simp only [UInt64.le_iff_toNat_le, UInt64.toNat_add]
  constructor
  · intro h
    split at h
    · next hin =>
      obtain rfl := Option.some.inj h
      rw [UInt64.toNat_add]
      omega
    · cases h
  · rintro ⟨hend, hin⟩
    rw [if_pos (by omega)]
    refine congrArg some (UInt64.toNat_inj.mp ?_)
    rw [UInt64.toNat_add]
    omega

/-- There is no end if less is left than the field is wide. -/
theorem fieldEnd?_eq_none_iff (h : start.toNat ≤ size.toNat) :
    fieldEnd? size start width = none ↔ size.toNat - start.toNat < width.toNat := by
  have hsize := size.toNat_lt
  rw [Option.eq_none_iff_forall_ne_some]
  constructor
  · intro hnone
    refine Nat.not_le.mp fun hle => hnone (start + width) (fieldEnd?_eq_some_iff.mpr ?_)
    rw [UInt64.toNat_add]
    omega
  · intro hlt stop hstop
    have hend := fieldEnd?_eq_some_iff.mp hstop
    omega

theorem fieldEnd?_within (h : fieldEnd? size start width = some stop) :
    start.toNat + width.toNat ≤ size.toNat := by
  obtain ⟨hstop, hsize⟩ := fieldEnd?_eq_some_iff.mp h
  rwa [← hstop]

end Positions

/-! ## §2. Bytes in place. -/

/-- `piece` byte by byte in the place of what was there from `start` on. -/
def Block.store {n : Nat} (b : Block n) (start : Nat) : Bytes → Block n
  | [] => b
  | v :: piece => (b.update start v).store (start + 1) piece

/-- **Over zeros, a piece leaves the zeros that are behind it.** -/
theorem Block.bytes_store {n k : Nat} {b : Block n} {before piece : Bytes}
    (hbytes : b.bytes = before ++ List.replicate k 0) (h : piece.length ≤ k) :
    (b.store before.length piece).bytes
      = before ++ piece ++ List.replicate (k - piece.length) 0 := by
  induction piece generalizing b before k with
  | nil => simpa [store] using hbytes
  | cons v piece ih =>
    obtain ⟨k, rfl⟩ := Nat.exists_eq_add_one.mpr (Nat.lt_of_lt_of_le (Nat.succ_pos _) h)
    -- what stands before grows by the byte that was stored, and there is one zero less
    have hset : (b.update before.length v).bytes = (before ++ [v]) ++ List.replicate k 0 := by
      show b.bytes.set before.length v = _
      rw [hbytes, List.set_append_right _ _ (Nat.le_refl _), Nat.sub_self, List.replicate_succ,
        List.set_cons_zero, List.append_assoc]
      rfl
    have hrest := ih hset (Nat.le_of_succ_le_succ h)
    rw [List.length_append] at hrest
    rw [store]
    refine hrest.trans ?_
    rw [List.append_assoc before, List.length_cons, Nat.add_sub_add_right]
    rfl

/-- A payload that is written in memory: all of its bytes, and how many of them are
written. -/
structure Buffer (size : UInt64) where
  block : Block size.toNat
  cursor : UInt64

namespace Buffer

variable {size : UInt64}

/-- Nothing written yet. -/
def empty (size : UInt64) : Buffer size := ⟨.zero _, 0⟩

/-- The next field, with `contents` at its front. -/
def place (b : Buffer size) (label : String) (width : UInt64) (contents : Bytes) :
    Except LibraryError Unit × Buffer size :=
  match fieldEnd? size b.cursor width with
  | none => (.error (.tooLong label width.toNat (size.toNat - b.cursor.toNat)), b)
  | some stop => (.ok (), ⟨b.block.store b.cursor.toNat contents, stop⟩)

/-- The same for contents of any length. -/
def placeChecked (b : Buffer size) (label : String) (width : UInt64) (contents : Bytes) :
    Except LibraryError Unit × Buffer size :=
  if width.toNat < contents.length then
    (.error (.tooLong label contents.length width.toNat), b)
  else b.place label width contents

/-- One step. -/
def write (b : Buffer size) : Write → Except LibraryError Unit × Buffer size
  -- A number is as long as its field, so its length is not looked at.
  | .byte label value => b.place label 1 [value]
  | .word32 label value => b.place label 4 (LittleEndian.encode 4 value.toNat)
  | .word64 label value => b.place label 8 (LittleEndian.encode 8 value.toNat)
  | .bytes label contents width => b.placeChecked label width contents
  | .counter .binary value => b.place "counter" 8 (LittleEndian.encode 8 value.toNat)
  | .counter .ascii value => b.placeChecked "counter" 8 (Utf8.encode (Decimal.text value.toNat))

/-- The buffer after some steps, also behind failed ones. -/
def run (b : Buffer size) (ws : List Write) : Buffer size := ws.foldl (fun b w => (b.write w).2) b

theorem placeChecked_of_le (b : Buffer size) (label : String) {width : UInt64} {contents : Bytes}
    (h : contents.length ≤ width.toNat) :
    b.placeChecked label width contents = b.place label width contents :=
  if_neg (Nat.not_lt.mpr h)

/-- Every step could look at the length. -/
theorem write_eq (b : Buffer size) (w : Write) :
    b.write w = b.placeChecked w.field.label w.width w.contents := by
  cases w with
  | byte label value =>
    have hone : [value].length ≤ (1 : UInt64).toNat := Nat.le_refl 1
    exact (b.placeChecked_of_le label hone).symm
  | word32 label value =>
    exact (b.placeChecked_of_le label (Nat.le_of_eq (LittleEndian.length_encode 4 _))).symm
  | word64 label value =>
    exact (b.placeChecked_of_le label (Nat.le_of_eq (LittleEndian.length_encode 8 _))).symm
  | bytes label contents width => rfl
  | counter encoding value =>
    cases encoding with
    | binary =>
      exact (b.placeChecked_of_le "counter" (Nat.le_of_eq (LittleEndian.length_encode 8 _))).symm
    | ascii => rfl

/-- **A step that fails changes nothing**, whatever the buffer. -/
theorem snd_write_of_error {b : Buffer size} {w : Write} {e : LibraryError}
    (h : (b.write w).1 = .error e) : (b.write w).2 = b := by
  rw [write_eq] at h ⊢
  unfold placeChecked at h ⊢
  split at h
  · next hlong => rw [if_pos hlong]
  · next hfits =>
    rw [if_neg hfits]
    unfold place at h ⊢
    split at h
    · rfl
    · cases h

/-! ## §3. A draft in memory. -/

/-- The bytes are those of the finished draft, and the position is where it ends. -/
structure Shows (b : Buffer size) (d : Draft size.toNat) : Prop where
  block : b.block = d.finish
  cursor : b.cursor.toNat = d.written.length

variable {b : Buffer size} {d : Draft size.toNat}

theorem Shows.empty : (Buffer.empty size).Shows (Draft.empty size.toNat) :=
  ⟨Block.ext_bytes rfl, rfl⟩

theorem Shows.bytes (h : b.Shows d) :
    b.block.bytes = d.written ++ List.replicate d.room 0 := by
  rw [h.block]
  rfl

theorem Shows.room (h : b.Shows d) : d.room = size.toNat - b.cursor.toNat := by
  rw [h.cursor]
  rfl

theorem Shows.le (h : b.Shows d) : b.cursor.toNat ≤ size.toNat := by
  rw [h.cursor]
  exact d.fits

/-- Contents that have room are stored as the draft appends them: the zeros that fill the
field are there already. -/
theorem Shows.store (h : b.Shows d) {d' : Draft size.toNat} {f : Field} {stop : UInt64}
    (hfits : f.Fits) (hroom : f.width ≤ d.room) (hwritten : d'.written = d.written ++ f.padded)
    (hstop : stop.toNat = b.cursor.toNat + f.width) :
    Shows ⟨b.block.store b.cursor.toNat f.bytes, stop⟩ d' := by
  have hlength : d'.written.length = d.written.length + f.width := by
    rw [hwritten, List.length_append, Field.length_padded hfits]
  refine ⟨Block.ext_bytes ?_, ?_⟩
  · show (b.block.store b.cursor.toNat f.bytes).bytes
      = d'.written ++ List.replicate (size.toNat - d'.written.length) 0
    -- the zeros up to the width of the field, and those behind it
    have hzeros : d.room - f.bytes.length
        = f.width - f.bytes.length + (size.toNat - (d.written.length + f.width)) := by
      have hshort : f.bytes.length ≤ f.width := hfits
      rw [h.room, h.cursor] at hroom ⊢
      omega
    rw [h.cursor, Block.bytes_store h.bytes (Nat.le_trans hfits hroom), hlength, hwritten,
      Field.padded, Bytes.padTo, hzeros, ← List.replicate_append_replicate]
    simp only [List.append_assoc]
  · show stop.toNat = d'.written.length
    rw [hlength, hstop, h.cursor]

/-- **A step is answered alike in memory and on the draft**, and they stay the same
payload. -/
theorem Shows.write (h : b.Shows d) (w : Write) :
    (b.write w).1 = (d.put w.field).map (fun _ => ()) ∧ (b.write w).2.Shows (d.step w) := by
  rw [write_eq, placeChecked, ← w.bytes_field, ← w.width_field]
  by_cases hlong : w.field.width < w.field.bytes.length
  · have hput := d.put_of_not_fits (f := w.field) (Nat.not_le.mpr hlong)
    rw [if_pos hlong, Draft.step_of_error hput, hput]
    exact ⟨rfl, h⟩
  have hfits : w.field.Fits := Nat.not_lt.mp hlong
  rw [if_neg hlong, place]
  cases hend : fieldEnd? size b.cursor w.width with
  | none =>
    have hwide : d.room < w.field.width := by
      rw [h.room, w.width_field]
      exact (fieldEnd?_eq_none_iff h.le).mp hend
    have hput := d.put_of_no_room hfits hwide
    rw [Draft.step_of_error hput, hput, h.room, w.width_field]
    exact ⟨rfl, h⟩
  | some stop =>
    obtain ⟨hstop, hsize⟩ := fieldEnd?_eq_some_iff.mp hend
    rw [← w.width_field] at hstop
    have hroom : w.field.width ≤ d.room := by
      rw [h.room]
      omega
    obtain ⟨d', hput, hwritten⟩ := d.put_of_fits w.field hfits hroom
    rw [Draft.step_of_ok hput, hput]
    exact ⟨rfl, h.store hfits hroom hwritten hstop⟩

/-- **After any steps the buffer is the draft in memory.** -/
theorem Shows.run (h : b.Shows d) (ws : List Write) : (b.run ws).Shows (d.run ws) :=
  List.foldl_rel h fun w _ _ _ hsame => (hsame.write w).2

end Buffer

/-! ## §4. Bytes that are read in place. -/

/-- A payload that is read in memory, as far as its position says. -/
structure Window {length : UInt64} (data : Block length.toNat) where
  cursor : UInt64

namespace Window

variable {length : UInt64} {data : Block length.toNat}

/-- Before the first byte. -/
def start (data : Block length.toNat) : Window data := ⟨0⟩

/-- The bytes of the next field. -/
def field (w : Window data) (width : UInt64) :
    Except DecodeError (Block width.toNat) × Window data :=
  match hend : fieldEnd? length w.cursor width with
  | none => (.error (.outOfBytes width.toNat w.cursor.toNat length.toNat), w)
  | some stop => (.ok (data.slice w.cursor.toNat width.toNat (fieldEnd?_within hend)), ⟨stop⟩)

/-- One step. -/
def read (w : Window data) (r : Read) : Except DecodeError r.Value × Window data :=
  ((w.field r.width).1.bind r.value, (w.field r.width).2)

/-- The window after some steps, also behind failed ones. -/
def run (w : Window data) (rs : List Read) : Window data := rs.foldl (fun w r => (w.read r).2) w

/-- The position is that of the cursor, and the cursor has what stands behind it. -/
structure Shows (w : Window data) (c : Cursor) : Prop where
  cursor : w.cursor.toNat = c.offset
  within : c.Within data.bytes

variable {w : Window data} {c : Cursor}

theorem Shows.start (data : Block length.toNat) :
    (Window.start data).Shows (Cursor.start data.bytes) :=
  ⟨rfl, .start data.bytes⟩

theorem Shows.le (h : w.Shows c) : w.cursor.toNat ≤ length.toNat := by
  rw [h.cursor, ← data.length_bytes]
  exact h.within.1

theorem Shows.length_rest (h : w.Shows c) :
    c.rest.length = length.toNat - w.cursor.toNat := by
  rw [h.within.length_rest, data.length_bytes, h.cursor]

/-- The next field is found in memory exactly if the cursor has it, and is the same. -/
theorem Shows.field (h : w.Shows c) (width : UInt64) :
    (w.field width).1 = (Decoder.block width.toNat c).1
      ∧ (w.field width).2.Shows (Decoder.block width.toNat c).2 := by
  unfold Window.field
  split
  · next hend =>
    have hshort : c.rest.length < width.toNat := by
      rw [h.length_rest]
      exact (fieldEnd?_eq_none_iff h.le).mp hend
    have htotal : c.offset + c.rest.length = length.toNat := by
      rw [← h.cursor, h.length_rest]
      exact Nat.add_sub_cancel' h.le
    rw [Decoder.block_of_short hshort, htotal, h.cursor]
    exact ⟨rfl, h⟩
  · next stop hend =>
    obtain ⟨hstop, hsize⟩ := fieldEnd?_eq_some_iff.mp hend
    have hroom : width.toNat ≤ c.rest.length := by
      rw [h.length_rest]
      omega
    have hblock : Decoder.block width.toNat c
        = (.ok ⟨c.rest.take width.toNat, List.length_take_of_le hroom⟩,
          ⟨c.offset + width.toNat, c.rest.drop width.toNat⟩) := by
      rw [Decoder.block, dif_pos hroom]
    have hwithin := h.within.step (.block width)
    rw [Cursor.step, Read.decoder, hblock] at hwithin
    rw [hblock]
    refine ⟨congrArg Except.ok (Block.ext_bytes ?_), ?_, hwithin⟩
    · show (data.bytes.drop w.cursor.toNat).take width.toNat = c.rest.take width.toNat
      rw [h.within.2, h.cursor]
    · show stop.toNat = c.offset + width.toNat
      rw [hstop, h.cursor]

/-- **A step is answered alike in memory and by its decoder.** -/
theorem Shows.read (h : w.Shows c) (r : Read) :
    (w.read r).1 = (r.decoder c).1 ∧ (w.read r).2.Shows (r.decoder c).2 := by
  obtain ⟨hanswer, hshows⟩ := h.field r.width
  rw [Read.decoder_eq, Window.read, hanswer]
  exact ⟨rfl, hshows⟩

/-- **After any steps the position is that of the cursor.** -/
theorem Shows.run (h : w.Shows c) (rs : List Read) : (w.run rs).Shows (c.run rs) :=
  List.foldl_rel h fun r _ _ _ hsame => (hsame.read r).2

end Window

/-! ## §5. Fields in order. -/

/-- **Every step takes the next field or changes nothing.**

After any steps of writing, one fails exactly if its contents are longer than its field or
the field is wider than what is left, and then neither the bytes nor the position change.
The finished payload holds the fields of the steps that were taken, each with zeros up to its
width, and zeros behind them.  Read with the same widths, it gives these fields.

After any steps of reading, one runs out of bytes exactly if its field is wider than what is
left, and then stays where it is.  Every other step moves on by the width of its field, also
one that can make nothing of it, like a counter that is no numeral.

Widths may be any words.  In memory the steps end alike, with the same bytes and the same
position. -/
theorem fields_in_order {size length : UInt64} (writes : List Write) (next : Write)
    (data : Block length.toNat) (reads : List Read) (read : Read) :
    let draft := (Draft.empty size.toNat).run writes
    let taken := (Draft.empty size.toNat).taken writes
    let buffer := (Buffer.empty size).run writes
    let cursor := (Cursor.start data.bytes).run reads
    let window := (Window.start data).run reads
    -- a step of writing
    ((∃ e, draft.put next.field = .error e) ↔ next.width.toNat < next.contents.length
        ∨ size.toNat - draft.written.length < next.width.toNat)
      ∧ (buffer.write next).1 = (draft.put next.field).map (fun _ => ())
      ∧ (∀ e, (buffer.write next).1 = .error e → (buffer.write next).2 = buffer)
      -- what has been written
      ∧ draft.written = taken.flatMap Write.wire
      ∧ draft.finish.bytes = taken.flatMap Write.wire
          ++ List.replicate (size.toNat - draft.written.length) 0
      ∧ buffer.block = draft.finish
      ∧ buffer.cursor.toNat = draft.written.length
      ∧ (Decoder.takeAll (taken.map fun w => w.width.toNat)).decode draft.finish.bytes
          = .ok (taken.map Write.wire)
      -- a step of reading
      ∧ ((∃ e, (read.decoder cursor).1 = .error e ∧ e.isShort = true) ↔
          length.toNat - cursor.offset < read.width.toNat)
      ∧ (read.decoder cursor).2 = (if length.toNat - cursor.offset < read.width.toNat then cursor
          else ⟨cursor.offset + read.width.toNat,
            data.bytes.drop (cursor.offset + read.width.toNat)⟩)
      ∧ (window.read read).1 = (read.decoder cursor).1
      ∧ window.cursor.toNat = cursor.offset := by
  intro draft taken buffer cursor window
  have hbuffer : buffer.Shows draft := Buffer.Shows.empty.run writes
  have hwindow : window.Shows cursor := (Window.Shows.start data).run reads
  have hwritten : draft.written = taken.flatMap Write.wire := Draft.written_run _ writes
  have hfinish : draft.finish.bytes = taken.flatMap Write.wire
      ++ List.replicate (size.toNat - draft.written.length) 0 := by
    rw [← hwritten]
    rfl
  have hleft : cursor.rest.length = length.toNat - cursor.offset := by
    rw [hwindow.within.length_rest, data.length_bytes]
  refine ⟨?_, (hbuffer.write next).1, fun e => Buffer.snd_write_of_error, hwritten, hfinish,
    hbuffer.block, hbuffer.cursor, ?_, ?_, ?_, (hwindow.read read).1, hwindow.cursor⟩
  · rw [← next.bytes_field, ← next.width_field]
    exact draft.put_error_iff next.field
  · rw [hfinish]
    exact (Decoder.takeAll_reads (Draft.fits_of_mem_taken _ writes)).decode _
  · rw [← hleft]
    exact Read.short_iff
  · rw [← hleft]
    split
    · next hshort => rw [Read.decoder_of_short hshort]
    · next hroom =>
      rw [(Read.decoder_of_le (Nat.not_lt.mp hroom)).1, hwindow.within.2, List.drop_drop]

/-- A width that would wrap around is refused, and the next field goes on where the last one
ended. -/
example : (Buffer.empty 4).run [.byte "a" 1, .bytes "b" [2] 0xFFFFFFFFFFFFFFFF, .bytes "c" [3] 2]
    = ⟨⟨[1, 3, 0, 0], rfl⟩, 3⟩ := by rfl

end OtpToken
