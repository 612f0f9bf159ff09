import DeltaGlider.Lib.RustStd

/-!
# SHA-256, HMAC-SHA256 and MD5

The digests of FIPS 180-4, RFC 2104 and RFC 1321 over byte lists.  A 32-bit
word is a `Nat` below `2 ^ 32`: every sum is taken `% 2 ^ 32`, and the
bitwise operations are those of `Nat`, which keep a word below `2 ^ 32`.  The
kernel computes `Nat` arithmetic and bitwise operations natively, so a
concrete digest is checked by `decide +kernel` in a few hundred milliseconds
a block.

* `Sha256.digest`: the message padded to whole 64-byte blocks (a `0x80` byte,
  zeros, the bit length as a big-endian `u64`), each block expanded to 64
  words and compressed in 64 rounds into the eight working words.
* `Sha256.hmac key msg`: `H((K ⊕ opad) ‖ H((K ⊕ ipad) ‖ msg))`, the key
  hashed first when it is longer than a block and padded with zeros.
* `Md5.digest`: the same padding with a little-endian length, 64 rounds in
  four groups of sixteen over four words.

Nothing here names the proxy: its `sha2`, `hmac` and `md-5` calls are
parameters of the models, and these are the instances their witnesses run.
-/

namespace Digest

open RustStd

/-- The message padded to whole 64-byte blocks: `0x80`, zeros, and the
length in bits as eight bytes in the given order. -/
def pad (bigEndian : Bool) (msg : List UInt8) : List UInt8 :=
  let lenBytes := (List.range 8).map fun i => UInt8.ofNat (msg.length * 8 / 2 ^ (8 * i))
  msg ++ [0x80] ++ List.replicate ((119 - msg.length % 64) % 64) 0 ++
    (if bigEndian then lenBytes.reverse else lenBytes)

/-- A word from four bytes, most significant first. -/
def wordBe (b : List UInt8) : Nat :=
  b.foldl (fun w x => w * 256 + x.toNat) 0

/-- A word from four bytes, least significant first. -/
def wordLe (b : List UInt8) : Nat := wordBe b.reverse

/-- The four bytes of a word, most significant first. -/
def bytesBe (w : Nat) : List UInt8 :=
  [UInt8.ofNat (w >>> 24), UInt8.ofNat (w >>> 16), UInt8.ofNat (w >>> 8), UInt8.ofNat w]

/-- Addition of words. -/
def add32 (x y : Nat) : Nat := (x + y) % 2 ^ 32

/-- The complement of a word. -/
def not32 (x : Nat) : Nat := x ^^^ 0xFFFFFFFF

def rotr (x n : Nat) : Nat := (x >>> n) ||| ((x <<< (32 - n)) % 2 ^ 32)

def rotl (x n : Nat) : Nat := ((x <<< n) % 2 ^ 32) ||| (x >>> (32 - n))

namespace Sha256

/-- The round constants: the first 32 bits of the fractional parts of the
cube roots of the first 64 primes. -/
def k : List Nat :=
  [0x428a2f98, 0x71374491, 0xb5c0fbcf, 0xe9b5dba5, 0x3956c25b, 0x59f111f1, 0x923f82a4, 0xab1c5ed5,
   0xd807aa98, 0x12835b01, 0x243185be, 0x550c7dc3, 0x72be5d74, 0x80deb1fe, 0x9bdc06a7, 0xc19bf174,
   0xe49b69c1, 0xefbe4786, 0x0fc19dc6, 0x240ca1cc, 0x2de92c6f, 0x4a7484aa, 0x5cb0a9dc, 0x76f988da,
   0x983e5152, 0xa831c66d, 0xb00327c8, 0xbf597fc7, 0xc6e00bf3, 0xd5a79147, 0x06ca6351, 0x14292967,
   0x27b70a85, 0x2e1b2138, 0x4d2c6dfc, 0x53380d13, 0x650a7354, 0x766a0abb, 0x81c2c92e, 0x92722c85,
   0xa2bfe8a1, 0xa81a664b, 0xc24b8b70, 0xc76c51a3, 0xd192e819, 0xd6990624, 0xf40e3585, 0x106aa070,
   0x19a4c116, 0x1e376c08, 0x2748774c, 0x34b0bcb5, 0x391c0cb3, 0x4ed8aa4a, 0x5b9cca4f, 0x682e6ff3,
   0x748f82ee, 0x78a5636f, 0x84c87814, 0x8cc70208, 0x90befffa, 0xa4506ceb, 0xbef9a3f7, 0xc67178f2]

/-- The eight working words. -/
structure Regs where
  a : Nat
  b : Nat
  c : Nat
  d : Nat
  e : Nat
  f : Nat
  g : Nat
  h : Nat

/-- The initial words: the fractional parts of the square roots of the first
eight primes. -/
def init : Regs :=
  ⟨0x6a09e667, 0xbb67ae85, 0x3c6ef372, 0xa54ff53a, 0x510e527f, 0x9b05688c, 0x1f83d9ab, 0x5be0cd19⟩

/-- The message schedule, newest word first, extended by `n` words. -/
def schedule : Nat → List Nat → List Nat
  | 0, w => w
  | n + 1, w =>
    let back i := w.getD (i - 1) 0
    let s0 := rotr (back 15) 7 ^^^ rotr (back 15) 18 ^^^ (back 15 >>> 3)
    let s1 := rotr (back 2) 17 ^^^ rotr (back 2) 19 ^^^ (back 2 >>> 10)
    schedule n ((back 16 + s0 + back 7 + s1) % 2 ^ 32 :: w)

/-- One round, with its constant and schedule word. -/
def round (r : Regs) (kw : Nat × Nat) : Regs :=
  let s1 := rotr r.e 6 ^^^ rotr r.e 11 ^^^ rotr r.e 25
  let ch := (r.e &&& r.f) ^^^ (not32 r.e &&& r.g)
  let t1 := r.h + s1 + ch + kw.1 + kw.2
  let s0 := rotr r.a 2 ^^^ rotr r.a 13 ^^^ rotr r.a 22
  let maj := (r.a &&& r.b) ^^^ (r.a &&& r.c) ^^^ (r.b &&& r.c)
  ⟨add32 (t1 + s0) maj, r.a, r.b, r.c, add32 r.d t1, r.e, r.f, r.g⟩

/-- One 64-byte block compressed into the working words. -/
def compress (r : Regs) (block : List UInt8) : Regs :=
  let w := (schedule 48 ((chunks 4 block).map wordBe).reverse).reverse
  let r' := (k.zip w).foldl round r
  ⟨add32 r.a r'.a, add32 r.b r'.b, add32 r.c r'.c, add32 r.d r'.d, add32 r.e r'.e, add32 r.f r'.f,
    add32 r.g r'.g, add32 r.h r'.h⟩

/-- `Sha256::digest`. -/
def digest (msg : List UInt8) : List UInt8 :=
  let r := (chunks 64 (pad true msg)).foldl compress init
  [r.a, r.b, r.c, r.d, r.e, r.f, r.g, r.h].flatMap bytesBe

/-- `Hmac::<Sha256>`: the key hashed when longer than a block, padded with
zeros to a block, then the inner and outer hashes. -/
def hmac (key msg : List UInt8) : List UInt8 :=
  let key := if 64 < key.length then digest key else key
  let key := key ++ List.replicate (64 - key.length) 0
  digest (key.map (· ^^^ 0x5c) ++ digest (key.map (· ^^^ 0x36) ++ msg))

/- FIPS 180-4's one-block example and RFC 4231's second test case. -/
example : hexEncode (digest (utf8Bytes "abc".toList)) =
      "ba7816bf8f01cfea414140de5dae2223b00361a396177a9cb410ff61f20015ad" ∧
    hexEncode (hmac (utf8Bytes "Jefe".toList) (utf8Bytes "what do ya want for nothing?".toList)) =
      "5bdcc146bf60754e6a042426089575c75a003f089d2739839dec58b964ec3843" := by
  decide +kernel

end Sha256

namespace Md5

/-- The additive constants: `⌊2³² · |sin (i + 1)|⌋`. -/
def k : List Nat :=
  [0xd76aa478, 0xe8c7b756, 0x242070db, 0xc1bdceee, 0xf57c0faf, 0x4787c62a, 0xa8304613, 0xfd469501,
   0x698098d8, 0x8b44f7af, 0xffff5bb1, 0x895cd7be, 0x6b901122, 0xfd987193, 0xa679438e, 0x49b40821,
   0xf61e2562, 0xc040b340, 0x265e5a51, 0xe9b6c7aa, 0xd62f105d, 0x02441453, 0xd8a1e681, 0xe7d3fbc8,
   0x21e1cde6, 0xc33707d6, 0xf4d50d87, 0x455a14ed, 0xa9e3e905, 0xfcefa3f8, 0x676f02d9, 0x8d2a4c8a,
   0xfffa3942, 0x8771f681, 0x6d9d6122, 0xfde5380c, 0xa4beea44, 0x4bdecfa9, 0xf6bb4b60, 0xbebfbc70,
   0x289b7ec6, 0xeaa127fa, 0xd4ef3085, 0x04881d05, 0xd9d4d039, 0xe6db99e5, 0x1fa27cf8, 0xc4ac5665,
   0xf4292244, 0x432aff97, 0xab9423a7, 0xfc93a039, 0x655b59c3, 0x8f0ccc92, 0xffeff47d, 0x85845dd1,
   0x6fa87e4f, 0xfe2ce6e0, 0xa3014314, 0x4e0811a1, 0xf7537e82, 0xbd3af235, 0x2ad7d2bb, 0xeb86d391]

/-- The rotation of each round. -/
def shift (i : Nat) : Nat :=
  match i / 16 with
  | 0 => [7, 12, 17, 22].getD (i % 4) 0
  | 1 => [5, 9, 14, 20].getD (i % 4) 0
  | 2 => [4, 11, 16, 23].getD (i % 4) 0
  | _ => [6, 10, 15, 21].getD (i % 4) 0

/-- The four working words. -/
structure Regs where
  a : Nat
  b : Nat
  c : Nat
  d : Nat

def init : Regs := ⟨0x67452301, 0xefcdab89, 0x98badcfe, 0x10325476⟩

/-- Round `i` over the block's words `m`: the round function and message
word of its group of sixteen. -/
def round (m : List Nat) (r : Regs) (i : Nat) : Regs :=
  let (f, g) : Nat × Nat := match i / 16 with
    | 0 => ((r.b &&& r.c) ||| (not32 r.b &&& r.d), i)
    | 1 => ((r.d &&& r.b) ||| (not32 r.d &&& r.c), (5 * i + 1) % 16)
    | 2 => (r.b ^^^ r.c ^^^ r.d, (3 * i + 5) % 16)
    | _ => (r.c ^^^ (r.b ||| not32 r.d), 7 * i % 16)
  let f := (f + r.a + k.getD i 0 + m.getD g 0) % 2 ^ 32
  ⟨r.d, add32 r.b (rotl f (shift i)), r.b, r.c⟩

def compress (r : Regs) (block : List UInt8) : Regs :=
  let r' := (List.range 64).foldl (round ((chunks 4 block).map wordLe)) r
  ⟨add32 r.a r'.a, add32 r.b r'.b, add32 r.c r'.c, add32 r.d r'.d⟩

/-- `Md5::digest`. -/
def digest (msg : List UInt8) : List UInt8 :=
  let r := (chunks 64 (pad false msg)).foldl compress init
  [r.a, r.b, r.c, r.d].flatMap fun w => (bytesBe w).reverse

/- RFC 1321's test suite, `MD5 ("abc")`. -/
example : hexEncode (digest (utf8Bytes "abc".toList)) = "900150983cd24fb0d6963f7d28e17f72" := by
  decide +kernel

end Md5

end Digest
