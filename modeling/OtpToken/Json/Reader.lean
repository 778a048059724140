/-
  OtpToken.Json.Reader
  ────────────────────
  **READING JSON.**

  The grammar of RFC 8259 and nothing else: no comments, no trailing commas,
  only blanks after the value.  Each scanner takes what it can from the front
  and returns the rest.  Nesting needs a bound to recurse on; no text nests
  deeper than it is long, and `read` takes a bound past that.
-/
import OtpToken.Json.Basic

namespace OtpToken.Json

/-! ## §1. Blanks and words. -/

/-- The four characters that may stand between parts. -/
def isBlank (c : Char) : Bool := c = ' ' || c = '\n' || c = '\t' || c = '\r'

/-- The text after its leading blanks. -/
def skipBlanks (cs : List Char) : List Char := cs.dropWhile isBlank

/-! ## §2. Strings. -/

/-- The value of a hex digit. -/
def hexValue? (c : Char) : Option Nat :=
  if '0' ≤ c ∧ c ≤ '9' then some (c.toNat - 0x30)
  else if 'a' ≤ c ∧ c ≤ 'f' then some (c.toNat - 0x57)
  else if 'A' ≤ c ∧ c ≤ 'F' then some (c.toNat - 0x37)
  else none

/-- The number of four hex digits. -/
def unit? (a b c d : Char) : Option Nat := do
  return (((← hexValue? a) * 16 + (← hexValue? b)) * 16 + (← hexValue? c)) * 16 + (← hexValue? d)

/-- The code point of a one-letter escape. -/
def escape? (c : Char) : Option Nat :=
  match c with
  | '"' => some 0x22
  | '\\' => some 0x5C
  | '/' => some 0x2F
  | 'b' => some 0x08
  | 'f' => some 0x0C
  | 'n' => some 0x0A
  | 'r' => some 0x0D
  | 't' => some 0x09
  | _ => none

/-- The inside of a string up to its closing quote, each escape as the unit
that it names. -/
def units : List Char → Option (List Nat × List Char)
  | [] => none
  | '"' :: rest => some ([], rest)
  | '\\' :: 'u' :: a :: b :: c :: d :: rest => do
      let unit ← unit? a b c d
      let (us, rest) ← units rest
      return (unit :: us, rest)
  | '\\' :: c :: rest => do
      let unit ← escape? c
      let (us, rest) ← units rest
      return (unit :: us, rest)
  | c :: rest => do
      -- What is left of the backslashes starts no escape.
      if c < ' ' ∨ c = '\\' then none
      else
        let (us, rest) ← units rest
        return (c.toNat :: us, rest)

/-- Each leading half followed by a trailing half becomes one code point. -/
def joinPairs : List Nat → List Nat
  | hi :: lo :: rest =>
      if 0xD800 ≤ hi ∧ hi < 0xDC00 ∧ 0xDC00 ≤ lo ∧ lo < 0xE000 then
        (0x10000 + (hi - 0xD800) * 0x400 + (lo - 0xDC00)) :: joinPairs rest
      else hi :: joinPairs (lo :: rest)
  | us => us

/-- The inside of a string as code points. -/
def stringBody (cs : List Char) : Option (List Nat × List Char) :=
  (units cs).map fun (us, rest) => (joinPairs us, rest)

/-! ## §3. Numbers. -/

/-- A run of at least one digit. -/
def digitRun (cs : List Char) : Option (List Char × List Char) :=
  match cs.span Char.isDigit with
  | ([], _) => none
  | run => some run

/-- Zero alone, or digits that do not start with zero. -/
def integerPart : List Char → Option (List Char × List Char)
  | '0' :: rest => some (['0'], rest)
  | cs => digitRun cs

/-- A point and digits, or nothing. -/
def fractionPart : List Char → Option (List Char × List Char)
  | '.' :: rest => (digitRun rest).map fun (ds, rest) => ('.' :: ds, rest)
  | cs => some ([], cs)

/-- An exponent with its sign, or nothing. -/
def exponentPart : List Char → Option (List Char × List Char)
  | c :: rest =>
      if c = 'e' ∨ c = 'E' then
        match rest with
        | '+' :: rest => (digitRun rest).map fun (ds, rest) => (c :: '+' :: ds, rest)
        | '-' :: rest => (digitRun rest).map fun (ds, rest) => (c :: '-' :: ds, rest)
        | rest => (digitRun rest).map fun (ds, rest) => (c :: ds, rest)
      else some ([], c :: rest)
  | [] => some ([], [])

/-- A number as it is spelled. -/
def numberSpelling (cs : List Char) : Option (List Char × List Char) := do
  let (sign, cs) := match cs with
    | '-' :: rest => (['-'], rest)
    | cs => ([], cs)
  let (whole, cs) ← integerPart cs
  let (fraction, cs) ← fractionPart cs
  let (exponent, cs) ← exponentPart cs
  return (sign ++ whole ++ fraction ++ exponent, cs)

/-! ## §4. Values. -/

/-- What follows the word, if the text starts with it. -/
def after? (word : String) (cs : List Char) : Option (List Char) :=
  if cs.take word.length = word.toList then some (cs.drop word.length) else none

mutual

/-- A value after blanks, and the rest. -/
def value : Nat → List Char → Option (Json × List Char)
  | 0, _ => none
  | fuel + 1, cs =>
      match skipBlanks cs with
      | '\x7b' :: rest =>
          match skipBlanks rest with
          | '\x7d' :: rest => some (object [], rest)
          | rest => (entries fuel rest).map fun (es, rest) => (object es, rest)
      | '[' :: rest =>
          match skipBlanks rest with
          | ']' :: rest => some (array [], rest)
          | rest => (items fuel rest).map fun (xs, rest) => (array xs, rest)
      | '"' :: rest => (stringBody rest).map fun (points, rest) => (string points, rest)
      | 'n' :: rest => (after? "ull" rest).map (null, ·)
      | 't' :: rest => (after? "rue" rest).map (bool true, ·)
      | 'f' :: rest => (after? "alse" rest).map (bool false, ·)
      | rest => (numberSpelling rest).map fun (spelling, rest) => (number spelling, rest)

/-- The items of an array that has some, up to its closing bracket. -/
def items : Nat → List Char → Option (List Json × List Char)
  | 0, _ => none
  | fuel + 1, cs => do
      let (x, rest) ← value fuel cs
      match skipBlanks rest with
      | ']' :: rest => return ([x], rest)
      | ',' :: rest =>
          let (xs, rest) ← items fuel rest
          return (x :: xs, rest)
      | _ => none

/-- The entries of an object that has some, up to its closing brace. -/
def entries : Nat → List Char → Option (List (List Nat × Json) × List Char)
  | 0, _ => none
  | fuel + 1, cs =>
      match skipBlanks cs with
      | '"' :: rest => do
          let (key, rest) ← stringBody rest
          match skipBlanks rest with
          | ':' :: rest =>
              let (x, rest) ← value fuel rest
              match skipBlanks rest with
              | '\x7d' :: rest => return ([(key, x)], rest)
              | ',' :: rest =>
                  let (es, rest) ← entries fuel rest
                  return ((key, x) :: es, rest)
              | _ => none
          | _ => none
      | _ => none

end

/-- The value that a text spells, with only blanks around it. -/
def read? (s : String) : Option Json :=
  let cs := s.toList
  -- Each bracket and each comma costs at most two steps.
  match value (2 * cs.length + 2) cs with
  | some (j, rest) => if (skipBlanks rest).isEmpty then some j else none
  | none => none

end OtpToken.Json
