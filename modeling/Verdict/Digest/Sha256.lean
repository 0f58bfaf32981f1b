/-! The SHA-256 digest.

A message is padded to whole blocks of 64 bytes: the byte `0x80`, zeros, and the length of
the message in bits as the last eight bytes. A state of eight words goes through the blocks
one after the other, each block giving a schedule of sixty-four words and each word one
round. The digest is the eight words of the last state, high byte first. -/
namespace Verdict.Sha256

/-- The first 32 bits of the fractional parts of the cube roots of the first 64 primes. -/
def roundConstants : List UInt32 := [
  0x428a2f98, 0x71374491, 0xb5c0fbcf, 0xe9b5dba5, 0x3956c25b, 0x59f111f1, 0x923f82a4, 0xab1c5ed5,
  0xd807aa98, 0x12835b01, 0x243185be, 0x550c7dc3, 0x72be5d74, 0x80deb1fe, 0x9bdc06a7, 0xc19bf174,
  0xe49b69c1, 0xefbe4786, 0x0fc19dc6, 0x240ca1cc, 0x2de92c6f, 0x4a7484aa, 0x5cb0a9dc, 0x76f988da,
  0x983e5152, 0xa831c66d, 0xb00327c8, 0xbf597fc7, 0xc6e00bf3, 0xd5a79147, 0x06ca6351, 0x14292967,
  0x27b70a85, 0x2e1b2138, 0x4d2c6dfc, 0x53380d13, 0x650a7354, 0x766a0abb, 0x81c2c92e, 0x92722c85,
  0xa2bfe8a1, 0xa81a664b, 0xc24b8b70, 0xc76c51a3, 0xd192e819, 0xd6990624, 0xf40e3585, 0x106aa070,
  0x19a4c116, 0x1e376c08, 0x2748774c, 0x34b0bcb5, 0x391c0cb3, 0x4ed8aa4a, 0x5b9cca4f, 0x682e6ff3,
  0x748f82ee, 0x78a5636f, 0x84c87814, 0x8cc70208, 0x90befffa, 0xa4506ceb, 0xbef9a3f7, 0xc67178f2]

/-- The chaining state. -/
structure State where
  a : UInt32
  b : UInt32
  c : UInt32
  d : UInt32
  e : UInt32
  f : UInt32
  g : UInt32
  h : UInt32

/-- The first 32 bits of the fractional parts of the square roots of the first 8 primes. -/
def State.initial : State :=
  ⟨0x6a09e667, 0xbb67ae85, 0x3c6ef372, 0xa54ff53a, 0x510e527f, 0x9b05688c, 0x1f83d9ab, 0x5be0cd19⟩

def rotateRight (x n : UInt32) : UInt32 := (x >>> n) ||| (x <<< (32 - n))

def bigSigma0 (x : UInt32) : UInt32 := rotateRight x 2 ^^^ rotateRight x 13 ^^^ rotateRight x 22
def bigSigma1 (x : UInt32) : UInt32 := rotateRight x 6 ^^^ rotateRight x 11 ^^^ rotateRight x 25
def smallSigma0 (x : UInt32) : UInt32 := rotateRight x 7 ^^^ rotateRight x 18 ^^^ (x >>> 3)
def smallSigma1 (x : UInt32) : UInt32 := rotateRight x 17 ^^^ rotateRight x 19 ^^^ (x >>> 10)
def choose (x y z : UInt32) : UInt32 := (x &&& y) ^^^ (~~~x &&& z)
def majority (x y z : UInt32) : UInt32 := (x &&& y) ^^^ (x &&& z) ^^^ (y &&& z)

/-- One round, with the sum of its schedule word and its constant. -/
def round (s : State) (word : UInt32) : State :=
  let t1 := s.h + bigSigma1 s.e + choose s.e s.f s.g + word
  let t2 := bigSigma0 s.a + majority s.a s.b s.c
  ⟨t1 + t2, s.a, s.b, s.c, s.d + t1, s.e, s.f, s.g⟩

/-- The byte at a place of the padded message. -/
def byteAt (message : ByteArray) (i : Nat) : UInt32 :=
  if h : i < message.size then message[i].toUInt32 else 0

/-- The word that starts at a place, high byte first. -/
def wordAt (message : ByteArray) (i : Nat) : UInt32 :=
  (byteAt message i <<< 24) ||| (byteAt message (i + 1) <<< 16) |||
    (byteAt message (i + 2) <<< 8) ||| byteAt message (i + 3)

/-- Adds the next word to a schedule, from the words 16, 15, 7 and 2 places back. -/
def extend (words : Array UInt32) : Array UInt32 :=
  let back := fun n => words[words.size - n]?.getD 0
  words.push (back 16 + smallSigma0 (back 15) + back 7 + smallSigma1 (back 2))

/-- The sixty-four words of the block that starts at a place. -/
def schedule (message : ByteArray) (start : Nat) : Array UInt32 :=
  let first := (Array.range 16).map fun i => wordAt message (start + 4 * i)
  (List.range 48).foldl (fun words _ => extend words) first

/-- Takes the state through the block that starts at a place. -/
def compress (message : ByteArray) (s : State) (start : Nat) : State :=
  let words := (schedule message start).toList
  let t := (words.zip roundConstants).foldl (fun s wk => round s (wk.1 + wk.2)) s
  ⟨s.a + t.a, s.b + t.b, s.c + t.c, s.d + t.d, s.e + t.e, s.f + t.f, s.g + t.g, s.h + t.h⟩

/-- Byte `i` of a number written in eight bytes, high byte first. -/
def lengthByte (n i : Nat) : UInt8 := (n >>> (8 * (7 - i))).toUInt8

/-- The message filled up to whole blocks. -/
def pad (message : ByteArray) : ByteArray :=
  let zeros := (55 + 64 - message.size % 64) % 64
  let tail := (0x80 :: List.replicate zeros 0) ++
    (List.range 8).map (lengthByte (8 * message.size))
  message ++ ⟨tail.toArray⟩

/-- The words of a state, in order. -/
def State.words (s : State) : Vector UInt32 8 := #v[s.a, s.b, s.c, s.d, s.e, s.f, s.g, s.h]

def digest (message : ByteArray) : Vector UInt8 32 :=
  let padded := pad message
  let final := (List.range (padded.size / 64)).foldl (fun s i => compress padded s (64 * i)) .initial
  Vector.ofFn fun i : Fin 32 =>
    (final.words[i.val / 4] >>> (8 * (3 - i.val % 4)).toUInt32).toUInt8

end Verdict.Sha256
