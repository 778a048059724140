/-
  OtpToken.Token.Basic
  ────────────────────
  **THE STATE OF A TOKEN.**

  A token has its factory settings, a session, slots, a clock that only a
  command moves, and slot data staged until it is written.  The Password Safe
  is usable while it is enabled and the AES key is valid.
-/
import OtpToken.Command.Layout
import OtpToken.Store
import OtpToken.Token.Config

namespace OtpToken

/-! ## §1. Staged slot data. -/

/-- Slot data that came in pieces and is not written yet. -/
structure Staged where
  name : Option String
  secret : Option Bytes
  deriving DecidableEq

namespace Staged

/-- Nothing staged. -/
def empty : Staged := ⟨none, none⟩

/-- A name starts over: the secret staged before it is dropped. -/
def withName (name : String) : Staged := ⟨some name, none⟩

/-- `bytes` laid over `buffer` from `offset` on, as far as the buffer
reaches. -/
def overlay (buffer : Bytes) (offset : Nat) (bytes : Bytes) : Bytes :=
  let bytes := bytes.take (buffer.length - offset)
  buffer.take offset ++ bytes ++ buffer.drop (offset + bytes.length)

/-- A piece of the secret, at thirty bytes a piece, in a buffer of
`capacity` zeros. -/
def withChunk (s : Staged) (capacity : Nat) (chunk : UInt8) (data : Bytes) :
    Except Status Unit × Staged :=
  let offset := chunk.toNat * chunkWidth
  if capacity ≤ offset then (.error .notSupported, s)
  else
    -- The first piece to come in makes the buffer, whichever it is.
    let buffer := s.secret.getD (List.replicate capacity 0)
    (.ok (), { s with secret := some (overlay buffer offset (data.take chunkWidth)) })

end Staged

/-! ## §2. Tokens. -/

/-- A token. -/
structure Token where
  config : TokenConfig
  session : Session
  store : Store
  clock : UInt64
  safeEnabled : Bool
  keyValid : Bool
  staged : Staged
  pluggedIn : Bool

namespace Token

/-- The session with the PINs of the factory settings. -/
def factorySession (config : TokenConfig) : Session :=
  .fresh (.ofText config.adminPin) (.ofText config.userPin)

/-- A token as it leaves the factory, plugged in. -/
def fresh (config : TokenConfig) : Token where
  config
  session := factorySession config
  store := .empty
  clock := 0
  safeEnabled := false
  keyValid := true
  staged := .empty
  pluggedIn := true

/-- What the firmware of the token can do. -/
def capabilities (t : Token) : Capabilities := .detect t.config.firmware

/-- How the token writes counters. -/
def encoding (t : Token) : CounterEncoding := t.capabilities.encoding

/-- The token taken off its line. -/
def unplug (t : Token) : Token := { t with pluggedIn := false }

/-- The token back on its line. -/
def plugIn (t : Token) : Token := { t with pluggedIn := true }

/-- What the token says about itself. -/
def statusRecord (t : Token) : StatusRecord :=
  ⟨t.config.firmware, t.config.serial, t.store.config, .zero 2⟩

end Token

end OtpToken
