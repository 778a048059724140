/-
  OtpToken.Code.Basic
  ───────────────────
  **ONE-TIME CODES.**

  A code is the dynamic truncation of a tag over a counter, reduced to six
  or eight decimal digits (RFC 4226).  A time code is the code at the number
  of whole periods since the epoch (RFC 6238).  Counters and times are full
  64-bit numbers.

  Of two faults the period is looked at before the secret.
-/
import OtpToken.Code.Hmac
import OtpToken.Secret
import OtpToken.Text.Decimal
import OtpToken.Text.Hex

namespace OtpToken

/-! ## §1. Digits and errors. -/

/-- How many digits a code has. -/
inductive Digits where
  | six
  | eight
  deriving DecidableEq

namespace Digits

/-- The number of digits. -/
def count : Digits → Nat
  | .six => 6
  | .eight => 8

/-- One more than the greatest code. -/
def bound (d : Digits) : Nat := Nat.pow 10 d.count

end Digits

/-- Why no code or secret could be made. -/
inductive CodeError where
  | emptySecret
  | zeroPeriod
  | notHex (why : Hex.Fault)
  | secretTooLong (length maximum : Nat)
  deriving DecidableEq

/-- The wording of an error. -/
def CodeError.message : CodeError → String
  | .emptySecret => "secret must not be empty"
  | .zeroPeriod => "period must be > 0"
  | .notHex why => "invalid hex secret: " ++ why.message
  | .secretTooLong length maximum =>
      "secret is " ++ Decimal.text length ++ " bytes, maximum is " ++ Decimal.text maximum

/-! ## §2. Secrets. -/

/-- Secrets of at most this many bytes fit every current token. -/
def wideSecretLength : Nat := 40

/-- The secret length of older tokens. -/
def narrowSecretLength : Nat := 20

/-- The secret that a caller typed in hex.  No text at all is the empty
secret. -/
def Secret.ofHex (text : String) (maximum : Nat) : Except CodeError Secret :=
  match Hex.decode (Utf8.encode text) with
  | .error why => .error (.notHex why)
  | .ok bytes =>
      if maximum < bytes.length then .error (.secretTooLong bytes.length maximum)
      else .ok ⟨bytes⟩

/-- The secret with zero bytes after it up to `width`. -/
def Secret.zeroPadded (s : Secret) (width : Nat) : Except CodeError Secret :=
  if width < s.length then .error (.secretTooLong s.length width)
  else .ok ⟨Bytes.padTo width s.bytes⟩

/-! ## §3. Counter codes. -/

/-- The 31-bit number at the offset that the last half byte of a tag names. -/
def truncate (tag : Bytes) : Nat :=
  let offset := (tag.getLastD 0).toNat % 16
  -- At most fifteen, so the four bytes end inside the twenty of a tag.
  BigEndian.decode ((tag.drop offset).take 4) % 0x80000000

/-- The code of a secret at a counter, as a number. -/
def codeValue (secret : Bytes) (counter : UInt64) (digits : Digits) : Except CodeError UInt32 :=
  if secret.isEmpty then .error .emptySecret
  else
    let tag := Hmac.tag secret (BigEndian.encode 8 counter.toNat)
    .ok (UInt32.ofNat (truncate tag % digits.bound))

/-- A code as shown: zeros before it up to the digit count. -/
def formatCode (code : UInt32) (digits : Digits) : String :=
  Decimal.padded digits.count code.toNat

/-- The code of a secret at a counter, as shown. -/
def counterCode (secret : Bytes) (counter : UInt64) (digits : Digits) :
    Except CodeError String :=
  (codeValue secret counter digits).map (formatCode · digits)

/-! ## §4. Time codes. -/

/-- Whole periods in `time`. -/
def timeStep (time : UInt64) (period : UInt32) : Except CodeError UInt64 :=
  if period = 0 then .error .zeroPeriod else .ok (time / period.toUInt64)

/-- The code of a secret at a time, as shown. -/
def timeCode (secret : Bytes) (time : UInt64) (digits : Digits) (period : UInt32) :
    Except CodeError String :=
  (timeStep time period).bind fun step => counterCode secret step digits

/-- What a code moves with. -/
inductive MovingFactor where
  | counter (value : UInt64)
  | time (seconds : UInt64) (period : UInt32)
  deriving DecidableEq

/-- The code of a secret for either factor. -/
def deriveCode (secret : Bytes) (factor : MovingFactor) (digits : Digits) :
    Except CodeError String :=
  match factor with
  | .counter value => counterCode secret value digits
  | .time seconds period => timeCode secret seconds digits period

end OtpToken
