/-
  OtpToken.Field.Draft
  ────────────────────
  **WRITING FIELDS.**

  A payload is filled from the left, one field after the other.  A field
  has a width; shorter contents are followed by zeros.  Of two faults, contents
  longer than the width win over a width that does not fit what is left.
-/
import OtpToken.Bytes.Block
import OtpToken.Bytes.Endian
import OtpToken.Capabilities
import OtpToken.Error

namespace OtpToken

/-! ## §1. Fields. -/

/-- Contents to be written in `width` bytes, with the name that an error
gives them. -/
structure Field where
  label : String
  width : Nat
  bytes : Bytes

namespace Field

/-- One byte. -/
def byte (label : String) (value : UInt8) : Field := ⟨label, 1, [value]⟩

/-- Four bytes, least significant first. -/
def word32 (label : String) (value : UInt32) : Field :=
  ⟨label, 4, LittleEndian.encode 4 value.toNat⟩

/-- Eight bytes, least significant first. -/
def word64 (label : String) (value : UInt64) : Field :=
  ⟨label, 8, LittleEndian.encode 8 value.toNat⟩

/-- The UTF-8 bytes of a text. -/
def text (label : String) (width : Nat) (value : String) : Field :=
  ⟨label, width, Utf8.encode value⟩

/-- The bytes of a credential. -/
def secret (label : String) (width : Nat) (value : Secret) : Field :=
  ⟨label, width, value.bytes⟩

/-- A counter in eight bytes, as the token writes counters. -/
def counter (encoding : CounterEncoding) (value : UInt64) : Field :=
  match encoding with
  | .binary => word64 "counter" value
  | .ascii => text "counter" 8 (Decimal.text value.toNat)

/-- The field as it stands on the wire. -/
def padded (f : Field) : Bytes := Bytes.padTo f.width f.bytes

end Field

/-! ## §2. Drafts. -/

/-- A payload of `size` bytes of which a first part is written. -/
structure Draft (size : Nat) where
  written : Bytes
  fits : written.length ≤ size

namespace Draft

variable {size : Nat}

/-- Nothing written yet. -/
def empty (size : Nat) : Draft size := ⟨[], Nat.zero_le _⟩

/-- How many bytes are left. -/
def room (d : Draft size) : Nat := size - d.written.length

/-- The draft with one more field. -/
def put (d : Draft size) (f : Field) : Except LibraryError (Draft size) :=
  if hf : f.width < f.bytes.length then
    .error (.tooLong f.label f.bytes.length f.width)
  else if hr : d.room < f.width then
    .error (.tooLong f.label f.width d.room)
  else
    .ok ⟨d.written ++ f.padded, by
      have := d.fits
      rw [List.length_append, Field.padded, Bytes.length_padTo (by omega)]
      unfold room at hr
      omega⟩

/-- The draft with all fields, or the first error. -/
def putAll (d : Draft size) : List Field → Except LibraryError (Draft size)
  | [] => .ok d
  | f :: fs => (d.put f).bind (·.putAll fs)

/-- The whole payload: what is written, and zeros. -/
def finish (d : Draft size) : Block size := .padded d.written d.fits

end Draft

/-- A payload of `size` bytes with these fields. -/
def layOut (size : Nat) (fields : List Field) : Except LibraryError (Block size) :=
  ((Draft.empty size).putAll fields).map Draft.finish

end OtpToken
