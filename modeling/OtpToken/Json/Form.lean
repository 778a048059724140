/-
  OtpToken.Json.Form
  ──────────────────
  **TYPES WITH A JSON FORM.**

  A form writes a value and reads it back.  Readers take every spelling that
  `Json.fields?` and `Json.name?` allow; writers always give an object with
  the keys in order.
-/
import OtpToken.Bytes.Block
import OtpToken.Capabilities
import OtpToken.Json.Reader
import OtpToken.Json.Writer
import OtpToken.Slot.Basic
import OtpToken.Status

namespace OtpToken.Json

/-! ## §1. Forms. -/

/-- A type whose values are written as JSON and read back. -/
class Form (α : Type) where
  toJson : α → Json
  ofJson? : Json → Option α

export Form (toJson ofJson?)

variable {α : Type} [Form α]

/-- A text as a value. -/
def decode? (α : Type) [Form α] (s : String) : Option α := (read? s).bind ofJson?

/-- A value on one line. -/
def encode (a : α) : String := (toJson a).compact

/-- A field that must be there. -/
def required? (field : Option Json) : Option α := field.bind ofJson?

/-- A field that may be missing. -/
def optional? (missing : α) : Option Json → Option α
  | none => some missing
  | some j => ofJson? j

/-- The member of a list with a given name. -/
def named? (all : List α) (name : α → String) (j : Json) : Option α :=
  j.name?.bind fun given => all.find? fun a => name a = given

/-! ## §2. Plain values. -/

instance : Form Bool := ⟨bool, bool?⟩

instance : Form String := ⟨text, text?⟩

instance : Form UInt8 := ⟨fun n => natural n.toNat, fun j => (j.natural? 256).map UInt8.ofNat⟩

instance : Form UInt64 :=
  ⟨fun n => natural n.toNat, fun j => (j.natural? UInt64.size).map UInt64.ofNat⟩

/-- An array of exactly `n` bytes. -/
instance (n : Nat) : Form (Block n) where
  toJson b := array (b.bytes.map toJson)
  ofJson? j := do
    let items ← j.array?
    let bytes : Bytes ← items.mapM ofJson?
    Block.ofBytes? n bytes

/-- Null for no value. -/
instance : Form (Option α) where
  toJson
    | none => null
    | some a => toJson a
  ofJson?
    | null => some none
    | j => (ofJson? j).map some

/-! ## §3. Statuses and slots. -/

instance : Form Status := ⟨fun s => text s.name, named? Status.all Status.name⟩

/-- The name of a family of code slots. -/
def kindName : CodeKind → String
  | .hotp => "Hotp"
  | .totp => "Totp"

instance : Form CodeKind := ⟨fun k => text (kindName k), named? [.hotp, .totp] kindName⟩

instance : Form Firmware where
  toJson f := record [("major", toJson f.major), ("minor", toJson f.minor)]
  ofJson? j := do
    match ← j.fields? ["major", "minor"] with
    | [major, minor] => return ⟨← required? major, ← required? minor⟩
    | _ => none

instance : Form Capabilities where
  toJson c :=
    record [("hasBinaryCounter", toJson c.binaryCounter),
      ("supports320bitSecret", toJson c.wideSecret)]
  ofJson? j := do
    match ← j.fields? ["hasBinaryCounter", "supports320bitSecret"] with
    | [binaryCounter, wideSecret] => return ⟨← required? binaryCounter, ← required? wideSecret⟩
    | _ => none

instance : Form SlotFlags where
  toJson f :=
    record [("use8Digits", toJson f.eightDigits), ("useEnter", toJson f.enter),
      ("useTokenId", toJson f.tokenId)]
  ofJson? j := do
    match ← j.fields? ["use8Digits", "useEnter", "useTokenId"] with
    | [eightDigits, enter, tokenId] =>
        return ⟨← required? eightDigits, ← required? enter, ← required? tokenId⟩
    | _ => none

instance : Form SlotDetails where
  toJson d :=
    record [("name", toJson d.name), ("flags", toJson d.flags), ("tokenId", toJson d.tokenId),
      ("counter", toJson d.counter)]
  ofJson? j := do
    match ← j.fields? ["name", "flags", "tokenId", "counter"] with
    | [name, flags, tokenId, counter] =>
        return ⟨← required? name, ← required? flags, ← required? tokenId, ← required? counter⟩
    | _ => none

instance : Form Config := ⟨fun c => toJson c.block, fun j => (ofJson? j).map Config.mk⟩

/-- An array of exactly one flag a slot. -/
instance : Form SafeStatus where
  toJson s := array (s.flags.toList.map bool)
  ofJson? j := do
    let flags ← (← j.array?).mapM bool?
    if h : flags.toArray.size = safeCapacity then some ⟨⟨flags.toArray, h⟩⟩ else none

end OtpToken.Json
