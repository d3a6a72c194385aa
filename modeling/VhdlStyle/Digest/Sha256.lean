import VhdlStyle.Text.Bytes

/-! # SHA-256

The 256-bit secure hash: a message is padded to blocks of 64 bytes, and each block is mixed into a
state of eight words in 64 rounds. -/

namespace VhdlStyle.Sha256

/-- The first bits of the fractions of the square roots of the first eight primes. -/
def initial : List UInt32 :=
  [0x6a09e667, 0xbb67ae85, 0x3c6ef372, 0xa54ff53a, 0x510e527f, 0x9b05688c,
   0x1f83d9ab, 0x5be0cd19]

/-- The first bits of the fractions of the cube roots of the first 64 primes. -/
def roundConstants : List UInt32 :=
  [0x428a2f98, 0x71374491, 0xb5c0fbcf, 0xe9b5dba5, 0x3956c25b, 0x59f111f1,
   0x923f82a4, 0xab1c5ed5, 0xd807aa98, 0x12835b01, 0x243185be, 0x550c7dc3,
   0x72be5d74, 0x80deb1fe, 0x9bdc06a7, 0xc19bf174, 0xe49b69c1, 0xefbe4786,
   0x0fc19dc6, 0x240ca1cc, 0x2de92c6f, 0x4a7484aa, 0x5cb0a9dc, 0x76f988da,
   0x983e5152, 0xa831c66d, 0xb00327c8, 0xbf597fc7, 0xc6e00bf3, 0xd5a79147,
   0x06ca6351, 0x14292967, 0x27b70a85, 0x2e1b2138, 0x4d2c6dfc, 0x53380d13,
   0x650a7354, 0x766a0abb, 0x81c2c92e, 0x92722c85, 0xa2bfe8a1, 0xa81a664b,
   0xc24b8b70, 0xc76c51a3, 0xd192e819, 0xd6990624, 0xf40e3585, 0x106aa070,
   0x19a4c116, 0x1e376c08, 0x2748774c, 0x34b0bcb5, 0x391c0cb3, 0x4ed8aa4a,
   0x5b9cca4f, 0x682e6ff3, 0x748f82ee, 0x78a5636f, 0x84c87814, 0x8cc70208,
   0x90befffa, 0xa4506ceb, 0xbef9a3f7, 0xc67178f2]

/-- A word turned to the right. -/
def rotate (n : UInt32) (w : UInt32) : UInt32 := (w >>> n) ||| (w <<< (32 - n))

/-! ## Padding -/

/-- A number as eight bytes, the highest first. -/
def bigEndian (n : Nat) : Bytes :=
  (List.range 8).reverse.map fun i => UInt8.ofNat (n / Nat.pow 256 i % 256)

/-- The message, a set bit, zeros, and the length of the message in bits. -/
def pad (message : Bytes) : Bytes :=
  let zeros := (119 - message.length % 64) % 64
  List.flatten [message, [0x80], List.replicate zeros 0, bigEndian (8 * message.length)]

/-- The whole blocks of a padded message, at most `fuel`. -/
def blocks : Nat → Bytes → List Bytes
  | 0, _ => []
  | fuel + 1, bytes => if bytes.isEmpty then [] else bytes.take 64 :: blocks fuel (bytes.drop 64)

/-! ## Mixing -/

/-- The words of a block, the highest byte of each first. -/
def words : Bytes → List UInt32
  | a :: b :: c :: d :: rest =>
    ((a.toUInt32 <<< 24) ||| (b.toUInt32 <<< 16) ||| (c.toUInt32 <<< 8) ||| d.toUInt32) ::
      words rest
  | _ => []

/-- Adds `n` words to a schedule, which is kept latest first. -/
def extend : Nat → List UInt32 → List UInt32
  | 0, latest => latest
  | n + 1, latest =>
    let at_ (i : Nat) : UInt32 := latest.getD i 0
    let near := at_ 1
    let far := at_ 14
    let mixedNear := rotate 17 near ^^^ rotate 19 near ^^^ (near >>> 10)
    let mixedFar := rotate 7 far ^^^ rotate 18 far ^^^ (far >>> 3)
    extend n ((mixedNear + at_ 6 + mixedFar + at_ 15) :: latest)

/-- The 64 words of the rounds of a block. -/
def schedule (block : Bytes) : List UInt32 := (extend 48 (words block).reverse).reverse

/-- One round with its constant and word. -/
def mix (state : List UInt32) (constant word : UInt32) : List UInt32 :=
  match state with
  | [a, b, c, d, e, f, g, h] =>
    let choice := (e &&& f) ^^^ (~~~e &&& g)
    let majority := (a &&& b) ^^^ (a &&& c) ^^^ (b &&& c)
    let first := h + (rotate 6 e ^^^ rotate 11 e ^^^ rotate 25 e) + choice + constant + word
    let second := (rotate 2 a ^^^ rotate 13 a ^^^ rotate 22 a) + majority
    [first + second, a, b, c, d + first, e, f, g]
  | _ => state

/-- Mixes a block into the state. -/
def compress (state : List UInt32) (block : Bytes) : List UInt32 :=
  let mixed := (roundConstants.zip (schedule block)).foldl (fun s p => mix s p.1 p.2) state
  List.zipWith (· + ·) state mixed

/-- The bytes of a word, the highest first. -/
def wordBytes (w : UInt32) : Bytes :=
  [(w >>> 24).toUInt8, (w >>> 16).toUInt8, (w >>> 8).toUInt8, w.toUInt8]

/-- The hash of a message, 32 bytes. -/
def hash (message : Bytes) : Bytes :=
  let padded := pad message
  ((blocks padded.length padded).foldl compress initial).flatMap wordBytes

end VhdlStyle.Sha256
