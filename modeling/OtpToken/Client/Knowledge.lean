/-
  OtpToken.Client.Knowledge
  ─────────────────────────
  **WHAT THE HOST KNOWS OF A TOKEN.**

  A view without secrets, filled by what the host has written and read.
  What it does not know is left out.
-/
import OtpToken.Store

namespace OtpToken

/-- What the host knows of a token's slots and config register. -/
structure Knowledge where
  codes : CodeTable SlotDetails
  safe : Option SafeStatus
  config : Option Config

namespace Knowledge

/-- Nothing known. -/
def empty : Knowledge := ⟨.empty, none, none⟩

/-- The config register is known. -/
def withConfig (k : Knowledge) (config : Config) : Knowledge := { k with config := some config }

/-- What is in a code slot is known. -/
def withSlot (k : Knowledge) (kind : CodeKind) (index : UInt8) (details : SlotDetails) :
    Knowledge :=
  { k with codes := k.codes.set kind index (some details) }

/-- Nothing is known of a code slot any more. -/
def withoutSlot (k : Knowledge) (kind : CodeKind) (index : UInt8) : Knowledge :=
  { k with codes := k.codes.set kind index none }

/-- An HOTP code was given out: a known counter moves on by one. -/
def withHotpUse (k : Knowledge) (index : UInt8) : Knowledge :=
  match k.codes.at? .hotp index with
  | some details => k.withSlot .hotp index { details with counter := details.counter + 1 }
  | none => k

/-- The programmed Password Safe slots are known. -/
def withSafe (k : Knowledge) (status : SafeStatus) : Knowledge := { k with safe := some status }

/-- One Password Safe slot is known to be programmed or not, if the others
are known. -/
def withSafeSlot (k : Knowledge) (index : UInt8) (programmed : Bool) : Knowledge :=
  { k with safe := k.safe.map fun status => status.mark index programmed }

/-- The programmed Password Safe slots are not known any more. -/
def withoutSafe (k : Knowledge) : Knowledge := { k with safe := none }

end Knowledge

end OtpToken
