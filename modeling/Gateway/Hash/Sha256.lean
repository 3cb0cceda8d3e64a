/-!
# SHA-256

The hash function of FIPS 180-4 on lists of bytes: `Sha256.digest` gives the thirty-two bytes and
`Sha256.hex` their hexadecimal text.
-/

namespace Gateway.Sha256

/-! ### Words -/

/-- Rotate a word to the right. -/
def rotr (x n : UInt32) : UInt32 := (x >>> n) ||| (x <<< (32 - n))

/-- The first function of the schedule. -/
def smallSigma0 (x : UInt32) : UInt32 := rotr x 7 ^^^ rotr x 18 ^^^ (x >>> 3)

/-- The second function of the schedule. -/
def smallSigma1 (x : UInt32) : UInt32 := rotr x 17 ^^^ rotr x 19 ^^^ (x >>> 10)

/-- The first function of a round. -/
def bigSigma0 (x : UInt32) : UInt32 := rotr x 2 ^^^ rotr x 13 ^^^ rotr x 22

/-- The second function of a round. -/
def bigSigma1 (x : UInt32) : UInt32 := rotr x 6 ^^^ rotr x 11 ^^^ rotr x 25

/-- Bit by bit, the second where the first is set and the third where it is not. -/
def choose (x y z : UInt32) : UInt32 := (x &&& y) ^^^ (~~~x &&& z)

/-- Bit by bit, what at least two of the three have. -/
def majority (x y z : UInt32) : UInt32 := (x &&& y) ^^^ (x &&& z) ^^^ (y &&& z)

/-- The word of four bytes, the highest first. -/
def word (a b c d : UInt8) : UInt32 :=
  (a.toUInt32 <<< 24) ||| (b.toUInt32 <<< 16) ||| (c.toUInt32 <<< 8) ||| d.toUInt32

/-- The words of a list of bytes. -/
def words : List UInt8 → List UInt32
  | a :: b :: c :: d :: rest => word a b c d :: words rest
  | _ => []

/-- The bytes of a number, the highest first. -/
def bigEndian (width n : Nat) : List UInt8 :=
  (List.range width).map fun i => UInt8.ofNat (n / Nat.pow 256 (width - 1 - i))

/-! ### Constants -/

/-- The first thirty-two bits of the fractional parts of the cube roots of the first sixty-four
primes. -/
def roundConstants : List UInt32 :=
  [0x428a2f98, 0x71374491, 0xb5c0fbcf, 0xe9b5dba5, 0x3956c25b, 0x59f111f1, 0x923f82a4, 0xab1c5ed5,
    0xd807aa98, 0x12835b01, 0x243185be, 0x550c7dc3, 0x72be5d74, 0x80deb1fe, 0x9bdc06a7, 0xc19bf174,
    0xe49b69c1, 0xefbe4786, 0x0fc19dc6, 0x240ca1cc, 0x2de92c6f, 0x4a7484aa, 0x5cb0a9dc, 0x76f988da,
    0x983e5152, 0xa831c66d, 0xb00327c8, 0xbf597fc7, 0xc6e00bf3, 0xd5a79147, 0x06ca6351, 0x14292967,
    0x27b70a85, 0x2e1b2138, 0x4d2c6dfc, 0x53380d13, 0x650a7354, 0x766a0abb, 0x81c2c92e, 0x92722c85,
    0xa2bfe8a1, 0xa81a664b, 0xc24b8b70, 0xc76c51a3, 0xd192e819, 0xd6990624, 0xf40e3585, 0x106aa070,
    0x19a4c116, 0x1e376c08, 0x2748774c, 0x34b0bcb5, 0x391c0cb3, 0x4ed8aa4a, 0x5b9cca4f, 0x682e6ff3,
    0x748f82ee, 0x78a5636f, 0x84c87814, 0x8cc70208, 0x90befffa, 0xa4506ceb, 0xbef9a3f7, 0xc67178f2]

/-- Eight words of state. -/
structure Chain where
  a : UInt32
  b : UInt32
  c : UInt32
  d : UInt32
  e : UInt32
  f : UInt32
  g : UInt32
  h : UInt32

/-- The first thirty-two bits of the fractional parts of the square roots of the first eight
primes. -/
def Chain.initial : Chain :=
  ⟨0x6a09e667, 0xbb67ae85, 0x3c6ef372, 0xa54ff53a, 0x510e527f, 0x9b05688c, 0x1f83d9ab, 0x5be0cd19⟩

/-! ### Blocks -/

/-- A message with a one bit, zeros and its length in bits behind it, in all a whole number of
blocks. -/
def pad (message : List UInt8) : List UInt8 :=
  message ++ 0x80 :: List.replicate ((119 - message.length % 64) % 64) 0 ++
    bigEndian 8 (8 * message.length)

/-- The blocks of sixteen words. -/
def blocks (n : Nat) (ws : List UInt32) : List (List UInt32) :=
  (List.range n).map fun i => (ws.drop (16 * i)).take 16

/-- The next word of a schedule. -/
def nextWord (ws : Array UInt32) : UInt32 :=
  let past (n : Nat) : UInt32 := ws.getD (ws.size - n) 0
  smallSigma1 (past 2) + past 7 + smallSigma0 (past 15) + past 16

/-- The sixty-four words of a block's schedule. -/
def schedule (block : List UInt32) : List UInt32 :=
  ((List.range 48).foldl (fun ws _ => ws.push (nextWord ws)) block.toArray).toList

/-- One round, with a round constant and a word of the schedule. -/
def Chain.round (s : Chain) (k w : UInt32) : Chain :=
  let t1 := s.h + bigSigma1 s.e + choose s.e s.f s.g + k + w
  let t2 := bigSigma0 s.a + majority s.a s.b s.c
  ⟨t1 + t2, s.a, s.b, s.c, s.d + t1, s.e, s.f, s.g⟩

/-- Take in a block. -/
def Chain.compress (s : Chain) (block : List UInt32) : Chain :=
  let t := (roundConstants.zip (schedule block)).foldl (fun s (k, w) => s.round k w) s
  ⟨s.a + t.a, s.b + t.b, s.c + t.c, s.d + t.d, s.e + t.e, s.f + t.f, s.g + t.g, s.h + t.h⟩

/-! ### The hash -/

/-- The words of the hash of a message. -/
def hashWords (message : List UInt8) : List UInt32 :=
  let padded := pad message
  let s := (blocks (padded.length / 64) (words padded)).foldl Chain.compress Chain.initial
  [s.a, s.b, s.c, s.d, s.e, s.f, s.g, s.h]

/-- The hash of a message. -/
def digest (message : List UInt8) : List UInt8 :=
  (hashWords message).flatMap fun w => bigEndian 4 w.toNat

/-- The two lower-case hexadecimal digits of a byte. -/
def hexByte (b : UInt8) : List Char := [Nat.digitChar (b.toNat / 16), Nat.digitChar (b.toNat % 16)]

/-- The hash of a text in UTF-8, in hexadecimal digits. -/
def hex (text : String) : String :=
  String.ofList ((digest text.toUTF8.toList).flatMap hexByte)

end Gateway.Sha256
