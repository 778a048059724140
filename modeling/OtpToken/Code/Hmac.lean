/-
  OtpToken.Code.Hmac
  ──────────────────
  **KEYED HASHING.**

  HMAC (RFC 2104) over SHA-1.  The key is brought to the block length first:
  hashed if it is longer, then filled with zeros.  Trailing zeros of a key
  are therefore free up to the block length.
-/
import OtpToken.Code.Sha1

namespace OtpToken.Hmac

/-- The block length of the hash in bytes. -/
def blockLength : Nat := 64

/-- The key as one block. -/
def blockKey (key : Bytes) : Bytes :=
  Bytes.padTo blockLength (if blockLength < key.length then Sha1.hash key else key)

/-- The twenty-byte tag of a message under a key. -/
def tag (key message : Bytes) : Bytes :=
  let block := blockKey key
  Sha1.hash (block.map (· ^^^ 0x5C) ++ Sha1.hash (block.map (· ^^^ 0x36) ++ message))

@[simp] theorem length_tag (key message : Bytes) : (tag key message).length = 20 :=
  Sha1.length_hash _

end OtpToken.Hmac
