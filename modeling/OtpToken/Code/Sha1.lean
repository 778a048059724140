/-
  OtpToken.Code.Sha1
  ──────────────────
  **THE HASH UNDER THE CODES.**

  SHA-1 (FIPS 180-4): the message is closed by one bit, zeros and its length
  in bits, and cut into blocks of sixteen words; each block stirs five chaining
  words through eighty rounds.  The schedule is a window of sixteen words
  that slides by one word a round.
-/
import OtpToken.Bytes.Endian

namespace OtpToken.Sha1

/-! ## §1. The chaining state. -/

/-- The five words that chain from block to block. -/
structure State where
  a : UInt32
  b : UInt32
  c : UInt32
  d : UInt32
  e : UInt32

/-- The state before the first block. -/
def State.initial : State := ⟨0x67452301, 0xEFCDAB89, 0x98BADCFE, 0x10325476, 0xC3D2E1F0⟩

/-- Word by word addition. -/
def State.add (s t : State) : State :=
  ⟨s.a + t.a, s.b + t.b, s.c + t.c, s.d + t.d, s.e + t.e⟩

/-- The state as twenty bytes. -/
def State.bytes (s : State) : Bytes :=
  [s.a, s.b, s.c, s.d, s.e].flatMap fun w => BigEndian.encode 4 w.toNat

/-! ## §2. Rounds. -/

/-- `x` turned left by `n` bits. -/
def rotate (x n : UInt32) : UInt32 := (x <<< n) ||| (x >>> (32 - n))

/-- The mixing function and the constant of round `t`. -/
def mix (t : Nat) (b c d : UInt32) : UInt32 × UInt32 :=
  if t < 20 then ((b &&& c) ||| (~~~b &&& d), 0x5A827999)
  else if t < 40 then (b ^^^ c ^^^ d, 0x6ED9EBA1)
  else if t < 60 then ((b &&& c) ||| (b &&& d) ||| (c &&& d), 0x8F1BBCDC)
  else (b ^^^ c ^^^ d, 0xCA62C1D6)

/-- Round `t` with its schedule word. -/
def round (t : Nat) (w : UInt32) (s : State) : State :=
  let (f, k) := mix t s.b s.c s.d
  ⟨rotate s.a 5 + f + s.e + k + w, s.a, rotate s.b 30, s.c, s.d⟩

/-- The window one round later: its first word leaves and the word made of
the first, third, ninth and fourteenth enters. -/
def slide (window : List UInt32) : List UInt32 :=
  let word (i : Nat) := window.getD i 0
  window.tail ++ [rotate (word 13 ^^^ word 8 ^^^ word 2 ^^^ word 0) 1]

/-- Rounds `t` to `t + n - 1`. -/
def rounds : Nat → Nat → List UInt32 → State → State
  | 0, _, _, s => s
  | n + 1, t, window, s => rounds n (t + 1) (slide window) (round t (window.getD 0 0) s)

/-- One block of sixteen words. -/
def absorb (s : State) (block : List UInt32) : State :=
  s.add (rounds 80 0 block s)

/-! ## §3. Messages. -/

/-- What follows a message of `length` bytes: a one bit, the fewest zeros
that fill a block, and the length in bits. -/
def closing (length : Nat) : Bytes :=
  0x80 :: List.replicate ((119 - length % 64) % 64) 0 ++ BigEndian.encode 8 (8 * length)

/-- The words of a byte string, most significant byte first. -/
def words : Bytes → List UInt32
  | a :: b :: c :: d :: rest => UInt32.ofNat (BigEndian.decode [a, b, c, d]) :: words rest
  | _ => []

/-- Sixteen words at a time, as long as there are sixteen. -/
def blocks (ws : List UInt32) : List (List UInt32) :=
  (List.range (ws.length / 16)).map fun i => (ws.drop (16 * i)).take 16

/-- The twenty-byte hash of a message. -/
def hash (message : Bytes) : Bytes :=
  ((blocks (words (message ++ closing message.length))).foldl absorb State.initial).bytes

@[simp] theorem length_hash (message : Bytes) : (hash message).length = 20 := by
  simp [hash, State.bytes]

end OtpToken.Sha1
