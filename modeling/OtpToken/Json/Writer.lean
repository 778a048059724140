/-
  OtpToken.Json.Writer
  ────────────────────
  **WRITING JSON.**

  Two layouts: compact, and pretty with two spaces a level.  In a string
  only the quote, the backslash and control characters below U+0020 are
  escaped; control characters without a short form are written as `\u00` and
  two lower-case hex digits.
-/
import OtpToken.Json.Basic
import OtpToken.Text.Hex

namespace OtpToken.Json

/-! ## §1. Strings. -/

/-- One code point inside a string. -/
def writePoint (n : Nat) : String :=
  match n with
  | 0x22 => "\\\""
  | 0x5C => "\\\\"
  | 0x08 => "\\b"
  | 0x09 => "\\t"
  | 0x0A => "\\n"
  | 0x0C => "\\f"
  | 0x0D => "\\r"
  | n =>
      if n < 0x20 ∨ 0xD800 ≤ n ∧ n ≤ 0xDFFF then "\\u" ++ Hex.padded 4 n
      else String.singleton (Char.ofNat n)

/-- A string in quotes. -/
def writeString (points : List Nat) : String :=
  "\"" ++ String.join (points.map writePoint) ++ "\""

/-! ## §2. Compact. -/

mutual

/-- A value without blanks. -/
def compact : Json → String
  | null => "null"
  | bool b => if b then "true" else "false"
  | number spelling => String.ofList spelling
  | string points => writeString points
  | array items => "[" ++ String.intercalate "," (compactItems items) ++ "]"
  | object entries => "\x7b" ++ String.intercalate "," (compactEntries entries) ++ "\x7d"

/-- Each item of an array. -/
def compactItems : List Json → List String
  | [] => []
  | item :: items => compact item :: compactItems items

/-- Each entry of an object. -/
def compactEntries : List (List Nat × Json) → List String
  | [] => []
  | (key, value) :: entries =>
      (writeString key ++ ":" ++ compact value) :: compactEntries entries

end

/-! ## §3. Pretty. -/

/-- A line break and the blanks of a level. -/
def lineBreak (level : Nat) : String := "\n" ++ String.ofList (List.replicate (2 * level) ' ')

/-- A bracketed list with one part a line; brackets alone if there is
none. -/
def spread (level : Nat) (opening closing : String) (parts : List String) : String :=
  if parts.isEmpty then opening ++ closing
  else
    opening ++ lineBreak (level + 1)
      ++ String.intercalate ("," ++ lineBreak (level + 1)) parts ++ lineBreak level ++ closing

mutual

/-- A value whose first line stands at `level`. -/
def prettyAt (level : Nat) : Json → String
  | null => "null"
  | bool b => if b then "true" else "false"
  | number spelling => String.ofList spelling
  | string points => writeString points
  | array items => spread level "[" "]" (prettyItems (level + 1) items)
  | object entries => spread level "\x7b" "\x7d" (prettyEntries (level + 1) entries)

/-- Each item of an array that stands at `level`. -/
def prettyItems (level : Nat) : List Json → List String
  | [] => []
  | item :: items => prettyAt level item :: prettyItems level items

/-- Each entry of an object that stands at `level`. -/
def prettyEntries (level : Nat) : List (List Nat × Json) → List String
  | [] => []
  | (key, value) :: entries =>
      (writeString key ++ ": " ++ prettyAt level value) :: prettyEntries level entries

end

/-- A value over several lines. -/
def pretty (j : Json) : String := prettyAt 0 j

end OtpToken.Json
