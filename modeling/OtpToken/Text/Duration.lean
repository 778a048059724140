/-
  OtpToken.Text.Duration
  ──────────────────────
  **SPANS OF TIME AS TEXT.**

  A span is shown in the largest of s, ms, µs and ns that it fills at least
  once, with as many decimals as it needs: `1.5s`, `500ms`, `0ns`.
-/
import OtpToken.Text.Decimal

namespace OtpToken

/-- A span of time in whole nanoseconds. -/
structure Duration where
  nanoseconds : Nat
  deriving DecidableEq

namespace Duration

/-- Seconds and nanoseconds together. -/
def ofSeconds (seconds nanoseconds : Nat) : Duration :=
  ⟨seconds * 1000000000 + nanoseconds⟩

/-- Whole milliseconds. -/
def ofMilliseconds (n : Nat) : Duration := ⟨n * 1000000⟩

/-- `n` counted in units of `10 ^ places`, without trailing zeros after the
point. -/
def inUnits (places n : Nat) : String :=
  let whole := Decimal.text (n / Nat.pow 10 places)
  let tenths := (Decimal.padded places (n % Nat.pow 10 places)).toList
  let decimals := (tenths.reverse.dropWhile (· = '0')).reverse
  if decimals.isEmpty then whole else whole ++ "." ++ String.ofList decimals

/-- A span as shown. -/
def text (d : Duration) : String :=
  let n := d.nanoseconds
  if 1000000000 ≤ n then inUnits 9 n ++ "s"
  else if 1000000 ≤ n then inUnits 6 n ++ "ms"
  else if 1000 ≤ n then inUnits 3 n ++ "µs"
  else inUnits 0 n ++ "ns"

end Duration

end OtpToken
