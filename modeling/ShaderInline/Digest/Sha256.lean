/-!
# SHA-256

The digest of FIPS 180-4 over a list of bytes. The message is padded to whole blocks of sixteen
big-endian words, and each block is mixed into a chaining value of eight words.
-/
namespace ShaderInline

/-- The chaining value, which after the last block is the digest. -/
structure Sha256 where
  a : UInt32
  b : UInt32
  c : UInt32
  d : UInt32
  e : UInt32
  f : UInt32
  g : UInt32
  h : UInt32
  deriving DecidableEq, Repr

namespace Sha256

def initial : Sha256 :=
  ⟨0x6a09e667, 0xbb67ae85, 0x3c6ef372, 0xa54ff53a, 0x510e527f, 0x9b05688c, 0x1f83d9ab, 0x5be0cd19⟩

def roundConstants : List UInt32 :=
  [0x428a2f98, 0x71374491, 0xb5c0fbcf, 0xe9b5dba5, 0x3956c25b, 0x59f111f1, 0x923f82a4, 0xab1c5ed5,
   0xd807aa98, 0x12835b01, 0x243185be, 0x550c7dc3, 0x72be5d74, 0x80deb1fe, 0x9bdc06a7, 0xc19bf174,
   0xe49b69c1, 0xefbe4786, 0x0fc19dc6, 0x240ca1cc, 0x2de92c6f, 0x4a7484aa, 0x5cb0a9dc, 0x76f988da,
   0x983e5152, 0xa831c66d, 0xb00327c8, 0xbf597fc7, 0xc6e00bf3, 0xd5a79147, 0x06ca6351, 0x14292967,
   0x27b70a85, 0x2e1b2138, 0x4d2c6dfc, 0x53380d13, 0x650a7354, 0x766a0abb, 0x81c2c92e, 0x92722c85,
   0xa2bfe8a1, 0xa81a664b, 0xc24b8b70, 0xc76c51a3, 0xd192e819, 0xd6990624, 0xf40e3585, 0x106aa070,
   0x19a4c116, 0x1e376c08, 0x2748774c, 0x34b0bcb5, 0x391c0cb3, 0x4ed8aa4a, 0x5b9cca4f, 0x682e6ff3,
   0x748f82ee, 0x78a5636f, 0x84c87814, 0x8cc70208, 0x90befffa, 0xa4506ceb, 0xbef9a3f7, 0xc67178f2]

def rotateRight (x : UInt32) (n : UInt32) : UInt32 := (x >>> n) ||| (x <<< (32 - n))

def lowerSigma0 (x : UInt32) : UInt32 := rotateRight x 7 ^^^ rotateRight x 18 ^^^ (x >>> 3)

def lowerSigma1 (x : UInt32) : UInt32 := rotateRight x 17 ^^^ rotateRight x 19 ^^^ (x >>> 10)

def upperSigma0 (x : UInt32) : UInt32 := rotateRight x 2 ^^^ rotateRight x 13 ^^^ rotateRight x 22

def upperSigma1 (x : UInt32) : UInt32 := rotateRight x 6 ^^^ rotateRight x 11 ^^^ rotateRight x 25

def choice (x y z : UInt32) : UInt32 := (x &&& y) ^^^ (~~~x &&& z)

def majority (x y z : UInt32) : UInt32 := (x &&& y) ^^^ (x &&& z) ^^^ (y &&& z)

/-- The low `count` bytes of `n`, most significant first. -/
def bigEndianBytes (n : Nat) : Nat → List UInt8
  | 0 => []
  | count + 1 => UInt8.ofNat (n / 256 ^ count) :: bigEndianBytes n count

/-- A one bit, zeros up to eight bytes short of a whole block, and the length in bits. -/
def padded (message : List UInt8) : List UInt8 :=
  message ++ 0x80 :: List.replicate ((119 - message.length % 64) % 64) 0 ++
    bigEndianBytes (8 * message.length) 8

def words : List UInt8 → List UInt32
  | p :: q :: r :: s :: bytes =>
    (p.toUInt32 <<< 24 ||| q.toUInt32 <<< 16 ||| r.toUInt32 <<< 8 ||| s.toUInt32) :: words bytes
  | _ => []

/-- The block's words, followed by as many scheduled words as `count` says. The words are listed
latest first, so the four that the recurrence needs stand at fixed places. -/
def extend : Nat → List UInt32 → List UInt32
  | 0, latest => latest
  | count + 1, latest =>
    let word := lowerSigma1 (latest.getD 1 0) + latest.getD 6 0 + lowerSigma0 (latest.getD 14 0)
      + latest.getD 15 0
    extend count (word :: latest)

def schedule (block : List UInt32) : List UInt32 := (extend 48 block.reverse).reverse

def round (v : Sha256) (constant word : UInt32) : Sha256 :=
  let first := v.h + upperSigma1 v.e + choice v.e v.f v.g + constant + word
  let second := upperSigma0 v.a + majority v.a v.b v.c
  ⟨first + second, v.a, v.b, v.c, v.d + first, v.e, v.f, v.g⟩

def add (v w : Sha256) : Sha256 :=
  ⟨v.a + w.a, v.b + w.b, v.c + w.c, v.d + w.d, v.e + w.e, v.f + w.f, v.g + w.g, v.h + w.h⟩

/-- Mixes one block into the chaining value. -/
def compress (v : Sha256) (block : List UInt32) : Sha256 :=
  let rounds := roundConstants.zip (schedule block)
  v.add (rounds.foldl (fun v (constant, word) => v.round constant word) v)

/-- Mixes in `count` blocks. -/
def compressAll : Nat → Sha256 → List UInt32 → Sha256
  | 0, v, _ => v
  | count + 1, v, message => compressAll count (v.compress (message.take 16)) (message.drop 16)

def ofBytes (message : List UInt8) : Sha256 :=
  let message := words (padded message)
  compressAll (message.length / 16) initial message

/-- The digest of a text in UTF-8. -/
def ofText (text : String) : Sha256 := ofBytes text.toUTF8.toList

def hexWord (word : UInt32) : String :=
  String.ofList ((List.range 8).map fun i => Nat.digitChar (word.toNat / Nat.pow 16 (7 - i) % 16))

/-- The digest in lower-case hexadecimal. -/
def hex (v : Sha256) : String :=
  String.join ([v.a, v.b, v.c, v.d, v.e, v.f, v.g, v.h].map hexWord)

end Sha256

end ShaderInline
