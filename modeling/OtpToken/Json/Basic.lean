/-
  OtpToken.Json.Basic
  ───────────────────
  **JSON VALUES.**

  A string is a list of code points, because an escape may name half of a
  surrogate pair: such a string is well formed but no text.  A number keeps
  its spelling, because only a spelling of digits alone counts as an integer.

  The readers below are strict.  A record is an object, or an array of its
  fields in order; unknown keys are passed over and no known key may come
  twice.  A name out of a fixed list is a string, or an object from the
  name to null.
-/
import OtpToken.Text.Decimal

namespace OtpToken

/-! ## §1. Values. -/

/-- A JSON value. -/
inductive Json where
  | null
  | bool (value : Bool)
  | number (spelling : List Char)
  | string (points : List Nat)
  | array (items : List Json)
  | object (entries : List (List Nat × Json))

namespace Json

/-- The code points of a text. -/
def pointsOf (s : String) : List Nat := s.toList.map Char.toNat

/-- The text of code points, unless one of them is half of a pair. -/
def textOf? (points : List Nat) : Option String :=
  if points.all fun n => decide n.isValidChar then some (String.ofList (points.map Char.ofNat))
  else none

/-- A text as a value. -/
def text (s : String) : Json := string (pointsOf s)

/-- A number without sign, fraction and exponent. -/
def natural (n : Nat) : Json := number (Decimal.digits n)

/-- An object with these keys in order. -/
def record (entries : List (String × Json)) : Json :=
  object (entries.map fun (key, value) => (pointsOf key, value))

/-! ## §2. Readers. -/

/-- The truth value that a value is. -/
def bool? : Json → Option Bool
  | bool b => some b
  | _ => none

/-- The text that a value is. -/
def text? : Json → Option String
  | string points => textOf? points
  | _ => none

/-- A number below `bound` that is spelled in digits alone. -/
def natural? (bound : Nat) : Json → Option Nat
  | number spelling =>
      if spelling.all Char.isDigit ∧ Decimal.value spelling < bound then
        some (Decimal.value spelling)
      else none
  | _ => none

/-- The items of an array. -/
def array? : Json → Option (List Json)
  | array items => some items
  | _ => none

/-- The name that a value of a fixed list is given by. -/
def name? : Json → Option String
  | string points => textOf? points
  | object [(points, null)] => textOf? points
  | _ => none

/-- The fields of a record in the order of `names`, `none` for a missing
one. -/
def fields? (names : List String) : Json → Option (List (Option Json))
  | array items =>
      if items.length ≤ names.length then
        some (items.map some ++ List.replicate (names.length - items.length) none)
      else none
  | object entries => do
      -- Every key has to be text, also one that is passed over.
      let entries ← entries.mapM fun (points, value) => (textOf? points).map (·, value)
      let given (name : String) := (entries.filter (·.1 = name)).map Prod.snd
      if names.all fun name => (given name).length ≤ 1 then
        some (names.map fun name => (given name).head?)
      else none
  | _ => none

end Json

end OtpToken
