import Rollout.Power

/-!
# SHA-256

The digest of a byte sequence.  The padded message is a function from positions to bytes, so the
blocks are read off it without building it.  A block is expanded to sixty-four words by the
schedule and mixed into the eight words of the state by as many rounds.
-/

namespace Rollout.Sha256

/-! ## Words -/

/-- Rotate a word to the right. -/
def rotate (x : UInt32) (n : UInt32) : UInt32 := (x >>> n) ||| (x <<< (32 - n))

def bigSigma0 (x : UInt32) : UInt32 := rotate x 2 ^^^ rotate x 13 ^^^ rotate x 22
def bigSigma1 (x : UInt32) : UInt32 := rotate x 6 ^^^ rotate x 11 ^^^ rotate x 25
def smallSigma0 (x : UInt32) : UInt32 := rotate x 7 ^^^ rotate x 18 ^^^ (x >>> 3)
def smallSigma1 (x : UInt32) : UInt32 := rotate x 17 ^^^ rotate x 19 ^^^ (x >>> 10)

/-- The round constants: the fractional parts of the cube roots of the first primes. -/
def constants : List UInt32 := [
  0x428a2f98, 0x71374491, 0xb5c0fbcf, 0xe9b5dba5, 0x3956c25b, 0x59f111f1, 0x923f82a4, 0xab1c5ed5,
  0xd807aa98, 0x12835b01, 0x243185be, 0x550c7dc3, 0x72be5d74, 0x80deb1fe, 0x9bdc06a7, 0xc19bf174,
  0xe49b69c1, 0xefbe4786, 0x0fc19dc6, 0x240ca1cc, 0x2de92c6f, 0x4a7484aa, 0x5cb0a9dc, 0x76f988da,
  0x983e5152, 0xa831c66d, 0xb00327c8, 0xbf597fc7, 0xc6e00bf3, 0xd5a79147, 0x06ca6351, 0x14292967,
  0x27b70a85, 0x2e1b2138, 0x4d2c6dfc, 0x53380d13, 0x650a7354, 0x766a0abb, 0x81c2c92e, 0x92722c85,
  0xa2bfe8a1, 0xa81a664b, 0xc24b8b70, 0xc76c51a3, 0xd192e819, 0xd6990624, 0xf40e3585, 0x106aa070,
  0x19a4c116, 0x1e376c08, 0x2748774c, 0x34b0bcb5, 0x391c0cb3, 0x4ed8aa4a, 0x5b9cca4f, 0x682e6ff3,
  0x748f82ee, 0x78a5636f, 0x84c87814, 0x8cc70208, 0x90befffa, 0xa4506ceb, 0xbef9a3f7, 0xc67178f2]

/-- The eight words of a digest. -/
structure State where
  a : UInt32
  b : UInt32
  c : UInt32
  d : UInt32
  e : UInt32
  f : UInt32
  g : UInt32
  h : UInt32
deriving Repr, DecidableEq

/-- The start: the fractional parts of the square roots of the first primes. -/
def State.initial : State :=
  ⟨0x6a09e667, 0xbb67ae85, 0x3c6ef372, 0xa54ff53a, 0x510e527f, 0x9b05688c, 0x1f83d9ab, 0x5be0cd19⟩

/-- Add two states word by word. -/
def State.add (s t : State) : State :=
  ⟨s.a + t.a, s.b + t.b, s.c + t.c, s.d + t.d, s.e + t.e, s.f + t.f, s.g + t.g, s.h + t.h⟩

/-- The words of a state. -/
def State.words (s : State) : List UInt32 := [s.a, s.b, s.c, s.d, s.e, s.f, s.g, s.h]

/-! ## The padded message -/

/-- The number of blocks of a message of the given length. -/
def blockCount (length : Nat) : Nat := (length + 8) / 64 + 1

/-- The byte at a position of the padded message: the message, the byte `0x80`, zeros, and the
length in bits as eight bytes. -/
def paddedByte (data : ByteArray) (i : Nat) : UInt8 :=
  let total := 64 * blockCount data.size
  if h : i < data.size then data[i]
  else if i = data.size then 0x80
  else if i + 8 < total then 0
  else (8 * data.size / 256 ^ (total - 1 - i)).toUInt8

/-- The word that starts at a position of the padded message. -/
def paddedWord (data : ByteArray) (i : Nat) : UInt32 :=
  ((paddedByte data i).toUInt32 <<< 24) ||| ((paddedByte data (i + 1)).toUInt32 <<< 16) |||
    ((paddedByte data (i + 2)).toUInt32 <<< 8) ||| (paddedByte data (i + 3)).toUInt32

/-! ## Rounds -/

/-- One round with a constant and a word of the schedule. -/
def State.round (s : State) (k w : UInt32) : State :=
  let t1 := s.h + bigSigma1 s.e + ((s.e &&& s.f) ^^^ (~~~s.e &&& s.g)) + k + w
  let t2 := bigSigma0 s.a + ((s.a &&& s.b) ^^^ (s.a &&& s.c) ^^^ (s.b &&& s.c))
  ⟨t1 + t2, s.a, s.b, s.c, s.d + t1, s.e, s.f, s.g⟩

/-- The word sixteen places on in the schedule. -/
def nextWord (window : Array UInt32) (i : Nat) : UInt32 :=
  smallSigma1 (window.getD (i + 14) 0) + window.getD (i + 9) 0 +
    smallSigma0 (window.getD (i + 1) 0) + window.getD i 0

/-- The schedule of the block that starts at a position. -/
def schedule (data : ByteArray) (start : Nat) : Array UInt32 :=
  (List.range 48).foldl (fun w i => w.push (nextWord w i))
    ((List.range 16).foldl (fun w i => w.push (paddedWord data (start + 4 * i))) #[])

/-- Mix a block into a state. -/
def mixBlock (data : ByteArray) (s : State) (block : Nat) : State :=
  s.add ((constants.zip (schedule data (64 * block)).toList).foldl (fun t kw => t.round kw.1 kw.2) s)

/-- The digest of a message. -/
def digest (data : ByteArray) : State :=
  (List.range (blockCount data.size)).foldl (mixBlock data) .initial

/-! ## Text -/

/-- Eight hexadecimal digits of a word, lower case. -/
def wordDigits (w : UInt32) : List Char :=
  [28, 24, 20, 16, 12, 8, 4, 0].map fun shift => Nat.digitChar ((w.toNat >>> shift) % 16)

/-- The digest of a message as sixty-four hexadecimal digits. -/
def hexDigest (data : ByteArray) : String :=
  String.ofList ((digest data).words.flatMap wordDigits)

end Rollout.Sha256
