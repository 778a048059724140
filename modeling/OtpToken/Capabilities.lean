/-
  OtpToken.Capabilities
  ─────────────────────
  **WHAT A TOKEN CAN DO.**

  The firmware version decides two things: how counters are written and how
  long a secret may be.  Nothing else looks at version numbers.
-/
import OtpToken.Code.Basic

namespace OtpToken

/-! ## §1. Firmware. -/

/-- The firmware version of a token. -/
structure Firmware where
  major : UInt8
  minor : UInt8
  deriving DecidableEq

/-- A version as shown: major and minor after a `v`. -/
def Firmware.text (f : Firmware) : String :=
  "v" ++ Decimal.text f.major.toNat ++ "." ++ Decimal.text f.minor.toNat

/-! ## §2. Counter encodings. -/

/-- How counters are written. -/
inductive CounterEncoding where
  /-- Eight bytes, least significant first. -/
  | binary
  /-- At most eight decimal digits. -/
  | ascii
  deriving DecidableEq

/-- The greatest counter that an encoding can write. -/
def CounterEncoding.maximum : CounterEncoding → UInt64
  | .binary => 18446744073709551615
  | .ascii => 99999999

/-! ## §3. Capabilities. -/

/-- The features of one token. -/
structure Capabilities where
  binaryCounter : Bool
  wideSecret : Bool
  deriving DecidableEq

namespace Capabilities

/-- Everything that current firmware can do. -/
def full : Capabilities := ⟨true, true⟩

/-- Versions 0.7 and 0.8 brought binary counters and long secrets. -/
def detect (f : Firmware) : Capabilities :=
  ⟨0 < f.major ∨ 7 ≤ f.minor, 0 < f.major ∨ 8 ≤ f.minor⟩

/-- The longest secret in bytes. -/
def secretLength (c : Capabilities) : Nat :=
  if c.wideSecret then wideSecretLength else narrowSecretLength

/-- How the token writes counters. -/
def encoding (c : Capabilities) : CounterEncoding :=
  if c.binaryCounter then .binary else .ascii

end Capabilities

end OtpToken
