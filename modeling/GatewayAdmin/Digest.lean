import GatewayAdmin.Text.Numeral
import GatewayAdmin.Text.Utf8
/-! The hash function SHA-256 on octets, keyed digests, and digests as lowercase hexadecimal text.
-/
namespace GatewayAdmin

namespace Sha256

def roundConstants : List UInt32 := [
  0x428a2f98, 0x71374491, 0xb5c0fbcf, 0xe9b5dba5, 0x3956c25b, 0x59f111f1, 0x923f82a4, 0xab1c5ed5,
  0xd807aa98, 0x12835b01, 0x243185be, 0x550c7dc3, 0x72be5d74, 0x80deb1fe, 0x9bdc06a7, 0xc19bf174,
  0xe49b69c1, 0xefbe4786, 0x0fc19dc6, 0x240ca1cc, 0x2de92c6f, 0x4a7484aa, 0x5cb0a9dc, 0x76f988da,
  0x983e5152, 0xa831c66d, 0xb00327c8, 0xbf597fc7, 0xc6e00bf3, 0xd5a79147, 0x06ca6351, 0x14292967,
  0x27b70a85, 0x2e1b2138, 0x4d2c6dfc, 0x53380d13, 0x650a7354, 0x766a0abb, 0x81c2c92e, 0x92722c85,
  0xa2bfe8a1, 0xa81a664b, 0xc24b8b70, 0xc76c51a3, 0xd192e819, 0xd6990624, 0xf40e3585, 0x106aa070,
  0x19a4c116, 0x1e376c08, 0x2748774c, 0x34b0bcb5, 0x391c0cb3, 0x4ed8aa4a, 0x5b9cca4f, 0x682e6ff3,
  0x748f82ee, 0x78a5636f, 0x84c87814, 0x8cc70208, 0x90befffa, 0xa4506ceb, 0xbef9a3f7, 0xc67178f2]

structure Chain where
  a : UInt32
  b : UInt32
  c : UInt32
  d : UInt32
  e : UInt32
  f : UInt32
  g : UInt32
  h : UInt32
deriving DecidableEq

def Chain.start : Chain :=
  ⟨0x6a09e667, 0xbb67ae85, 0x3c6ef372, 0xa54ff53a, 0x510e527f, 0x9b05688c, 0x1f83d9ab, 0x5be0cd19⟩

def Chain.words (s : Chain) : List UInt32 := [s.a, s.b, s.c, s.d, s.e, s.f, s.g, s.h]

def rotateRight (x : UInt32) (n : UInt32) : UInt32 := (x >>> n) ||| (x <<< (32 - n))

def round (s : Chain) (wk : UInt32 × UInt32) : Chain :=
  let big1 := rotateRight s.e 6 ^^^ rotateRight s.e 11 ^^^ rotateRight s.e 25
  let choice := (s.e &&& s.f) ^^^ (~~~s.e &&& s.g)
  let t1 := s.h + big1 + choice + wk.2 + wk.1
  let big0 := rotateRight s.a 2 ^^^ rotateRight s.a 13 ^^^ rotateRight s.a 22
  let majority := (s.a &&& s.b) ^^^ (s.a &&& s.c) ^^^ (s.b &&& s.c)
  ⟨t1 + (big0 + majority), s.a, s.b, s.c, s.d + t1, s.e, s.f, s.g⟩

def small0 (x : UInt32) : UInt32 := rotateRight x 7 ^^^ rotateRight x 18 ^^^ (x >>> 3)

def small1 (x : UInt32) : UInt32 := rotateRight x 17 ^^^ rotateRight x 19 ^^^ (x >>> 10)

/-- One more word of the schedule, which is kept newest first. -/
def extendSchedule (w : List UInt32) : List UInt32 :=
  (small1 (w.getD 1 0) + w.getD 6 0 + small0 (w.getD 14 0) + w.getD 15 0) :: w

def schedule (block : List UInt32) : List UInt32 :=
  ((List.range 48).foldl (fun w _ => extendSchedule w) block.reverse).reverse

def compress (s : Chain) (block : List UInt32) : Chain :=
  let t := ((schedule block).zip roundConstants).foldl round s
  ⟨s.a + t.a, s.b + t.b, s.c + t.c, s.d + t.d, s.e + t.e, s.f + t.f, s.g + t.g, s.h + t.h⟩

/-- Octets of a number, most significant first. -/
def bigEndian (width n : Nat) : List UInt8 :=
  (List.range width).map fun i => UInt8.ofNat (n / Nat.pow 256 (width - 1 - i))

def pad (bs : List UInt8) : List UInt8 :=
  bs ++ 0x80 :: List.replicate ((119 - bs.length % 64) % 64) 0 ++ bigEndian 8 (8 * bs.length)

def words : List UInt8 → List UInt32
  | a :: b :: c :: d :: r =>
    UInt32.ofNat (a.toNat * 16777216 + b.toNat * 65536 + c.toNat * 256 + d.toNat) :: words r
  | _ => []

/-- The words of the block being filled, newest first, and the chain value so far. -/
structure Progress where
  pending : List UInt32
  chain : Chain

def absorb (p : Progress) (w : UInt32) : Progress :=
  if p.pending.length = 15 then ⟨[], compress p.chain (w :: p.pending).reverse⟩
  else ⟨w :: p.pending, p.chain⟩

def digest (bs : List UInt8) : List UInt8 :=
  ((words (pad bs)).foldl absorb ⟨[], Chain.start⟩).chain.words.flatMap
    fun w => bigEndian 4 w.toNat

end Sha256

namespace Digest

def blockSize : Nat := 64

def hexByte (b : UInt8) : List Char := [Text.hexDigit (b.toNat / 16), Text.hexDigit (b.toNat % 16)]

def hex (bs : List UInt8) : String := String.ofList (bs.flatMap hexByte)

/-- A key longer than a block stands for its digest. -/
def blockKey (key : List UInt8) : List UInt8 :=
  let k := if key.length > blockSize then Sha256.digest key else key
  k ++ List.replicate (blockSize - k.length) 0

def hmac (key message : List UInt8) : List UInt8 :=
  let k := blockKey key
  Sha256.digest (k.map (· ^^^ 0x5C) ++ Sha256.digest (k.map (· ^^^ 0x36) ++ message))

def hmacText (key : List UInt8) (message : String) : List UInt8 := hmac key (Text.utf8 message)

def sha256Hex (bs : List UInt8) : String := hex (Sha256.digest bs)

end Digest
end GatewayAdmin
