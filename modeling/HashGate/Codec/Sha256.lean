import Mathlib.Data.List.Basic

/-!
# `HashGate.Codec.Sha256` — `hashlib.sha256` and `hmac.new(key, msg, hashlib.sha256)`

The content hash is `SHA-256(body)` and the signature is `HMAC-SHA256(secret, string-to-sign)`. Both
are library code of the Python runtime; they are modelled here after the SHA-256 and HMAC standards
(with the block size and key handling of Python's `hmac` module), so that the client model runs end to end and
its constant `EMPTY_CONTENT_HASH` can be checked against the digest it abbreviates.

## Contents
- The SHA-256 round functions, `compress` over one 64-byte block, `pad`, `absorb`, `sha256`.
- `hmacSha256`.
- `length_sha256`, `length_hmacSha256`: every digest is 32 bytes.
-/

namespace HashGate

namespace Sha256

/-- The 64 round constants: the first 32 bits of the fractional parts of the cube roots of the first
    64 primes. -/
def kTable : List UInt32 :=
  [0x428a2f98, 0x71374491, 0xb5c0fbcf, 0xe9b5dba5, 0x3956c25b, 0x59f111f1, 0x923f82a4, 0xab1c5ed5,
   0xd807aa98, 0x12835b01, 0x243185be, 0x550c7dc3, 0x72be5d74, 0x80deb1fe, 0x9bdc06a7, 0xc19bf174,
   0xe49b69c1, 0xefbe4786, 0x0fc19dc6, 0x240ca1cc, 0x2de92c6f, 0x4a7484aa, 0x5cb0a9dc, 0x76f988da,
   0x983e5152, 0xa831c66d, 0xb00327c8, 0xbf597fc7, 0xc6e00bf3, 0xd5a79147, 0x06ca6351, 0x14292967,
   0x27b70a85, 0x2e1b2138, 0x4d2c6dfc, 0x53380d13, 0x650a7354, 0x766a0abb, 0x81c2c92e, 0x92722c85,
   0xa2bfe8a1, 0xa81a664b, 0xc24b8b70, 0xc76c51a3, 0xd192e819, 0xd6990624, 0xf40e3585, 0x106aa070,
   0x19a4c116, 0x1e376c08, 0x2748774c, 0x34b0bcb5, 0x391c0cb3, 0x4ed8aa4a, 0x5b9cca4f, 0x682e6ff3,
   0x748f82ee, 0x78a5636f, 0x84c87814, 0x8cc70208, 0x90befffa, 0xa4506ceb, 0xbef9a3f7, 0xc67178f2]

/-- The eight working variables `a … h`, also the chaining value between blocks. -/
structure Regs where
  a : UInt32
  b : UInt32
  c : UInt32
  d : UInt32
  e : UInt32
  f : UInt32
  g : UInt32
  h : UInt32

/-- The initial hash value: the first 32 bits of the fractional parts of the square roots of the first
    eight primes. -/
def initial : Regs :=
  ⟨0x6a09e667, 0xbb67ae85, 0x3c6ef372, 0xa54ff53a, 0x510e527f, 0x9b05688c, 0x1f83d9ab, 0x5be0cd19⟩

def rotr (x n : UInt32) : UInt32 := (x >>> n) ||| (x <<< (32 - n))

def bigSigma0 (x : UInt32) : UInt32 := rotr x 2 ^^^ rotr x 13 ^^^ rotr x 22
def bigSigma1 (x : UInt32) : UInt32 := rotr x 6 ^^^ rotr x 11 ^^^ rotr x 25
def smallSigma0 (x : UInt32) : UInt32 := rotr x 7 ^^^ rotr x 18 ^^^ (x >>> 3)
def smallSigma1 (x : UInt32) : UInt32 := rotr x 17 ^^^ rotr x 19 ^^^ (x >>> 10)
def ch (x y z : UInt32) : UInt32 := (x &&& y) ^^^ (~~~x &&& z)
def maj (x y z : UInt32) : UInt32 := (x &&& y) ^^^ (x &&& z) ^^^ (y &&& z)

/-- Big-endian 32-bit words of a block. -/
def words : List UInt8 → List UInt32
  | a :: b :: c :: d :: rest =>
    (a.toUInt32 <<< 24 ||| b.toUInt32 <<< 16 ||| c.toUInt32 <<< 8 ||| d.toUInt32) :: words rest
  | _ => []

/-- The message schedule past word 16, from a sliding window of the last sixteen words. -/
def extend : Nat → List UInt32 → List UInt32
  | 0, _ => []
  | n + 1, win =>
    let w := smallSigma1 (win.getD 14 0) + win.getD 9 0 + smallSigma0 (win.getD 1 0) + win.getD 0 0
    w :: extend n (win.tail ++ [w])

def round (s : Regs) (k w : UInt32) : Regs :=
  let t1 := s.h + bigSigma1 s.e + ch s.e s.f s.g + k + w
  let t2 := bigSigma0 s.a + maj s.a s.b s.c
  ⟨t1 + t2, s.a, s.b, s.c, s.d + t1, s.e, s.f, s.g⟩

/-- The compression function on one 64-byte block. -/
def compress (hv : Regs) (block : List UInt8) : Regs :=
  let ws := words block
  let s := (kTable.zip (ws ++ extend 48 ws)).foldl (fun s kw => round s kw.1 kw.2) hv
  ⟨hv.a + s.a, hv.b + s.b, hv.c + s.c, hv.d + s.d, hv.e + s.e, hv.f + s.f, hv.g + s.g, hv.h + s.h⟩

/-- A 64-bit big-endian length field. -/
def be64 (n : Nat) : List UInt8 := (List.range 8).reverse.map fun i => UInt8.ofNat (n >>> (8 * i))

/-- `0x80`, zeros up to 56 mod 64, then the bit length as 64 big-endian bits. -/
def pad (m : List UInt8) : List UInt8 :=
  m ++ 0x80 :: List.replicate ((119 - m.length % 64) % 64) 0 ++ be64 (8 * m.length)

/-- Compress `n` consecutive blocks. -/
def absorb : Nat → Regs → List UInt8 → Regs
  | 0, s, _ => s
  | n + 1, s, m => absorb n (compress s (m.take 64)) (m.drop 64)

def wordBytes (w : UInt32) : List UInt8 :=
  [(w >>> 24).toUInt8, (w >>> 16).toUInt8, (w >>> 8).toUInt8, w.toUInt8]

def Regs.bytes (s : Regs) : List UInt8 :=
  [s.a, s.b, s.c, s.d, s.e, s.f, s.g, s.h].flatMap wordBytes

end Sha256

open Sha256 in
/-- Python `hashlib.sha256(m).digest()`. -/
def sha256 (m : List UInt8) : List UInt8 :=
  (absorb ((pad m).length / 64) initial (pad m)).bytes

/-- Python `hmac.new(key, msg, hashlib.sha256).digest()`: a key longer than the 64-byte block is
    hashed first, then the key is zero-filled to a block and used under the two pads. -/
def hmacSha256 (key msg : List UInt8) : List UInt8 :=
  let key := if key.length > 64 then sha256 key else key
  let key := key ++ List.replicate (64 - key.length) 0
  sha256 (key.map (· ^^^ 0x5c) ++ sha256 (key.map (· ^^^ 0x36) ++ msg))

/-- Every SHA-256 digest is 32 bytes. -/
theorem length_sha256 (m : List UInt8) : (sha256 m).length = 32 := by
  simp [sha256, Sha256.Regs.bytes, Sha256.wordBytes]

theorem length_hmacSha256 (key msg : List UInt8) : (hmacSha256 key msg).length = 32 :=
  length_sha256 _

set_option maxRecDepth 100000 in
/-- A known answer: the key `Jefe` and the message `what do ya want for nothing?`. -/
example : hmacSha256 "Jefe".toUTF8.data.toList "what do ya want for nothing?".toUTF8.data.toList =
    [0x5b, 0xdc, 0xc1, 0x46, 0xbf, 0x60, 0x75, 0x4e, 0x6a, 0x04, 0x24, 0x26, 0x08, 0x95, 0x75, 0xc7,
     0x5a, 0x00, 0x3f, 0x08, 0x9d, 0x27, 0x39, 0x83, 0x9d, 0xec, 0x58, 0xb9, 0x64, 0xec, 0x38, 0x43] := by
  rfl

end HashGate
