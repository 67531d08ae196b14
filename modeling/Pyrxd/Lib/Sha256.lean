import Pyrxd.Lib.Bytes

/-!
# SHA-256

`hashlib.sha256(b).digest()`, computed: the FIPS 180-4 padding, message schedule
and compression over 32-bit words. The proofs never look inside; the definition
is here so that what they are about is the hash the source calls and not a
stand-in.
-/

namespace Pyrxd.Lib

namespace Sha256

/-- The round constants. -/
def k : List UInt32 :=
  [0x428a2f98, 0x71374491, 0xb5c0fbcf, 0xe9b5dba5, 0x3956c25b, 0x59f111f1,
    0x923f82a4, 0xab1c5ed5,
   0xd807aa98, 0x12835b01, 0x243185be, 0x550c7dc3, 0x72be5d74, 0x80deb1fe,
     0x9bdc06a7, 0xc19bf174,
   0xe49b69c1, 0xefbe4786, 0x0fc19dc6, 0x240ca1cc, 0x2de92c6f, 0x4a7484aa,
     0x5cb0a9dc, 0x76f988da,
   0x983e5152, 0xa831c66d, 0xb00327c8, 0xbf597fc7, 0xc6e00bf3, 0xd5a79147,
     0x06ca6351, 0x14292967,
   0x27b70a85, 0x2e1b2138, 0x4d2c6dfc, 0x53380d13, 0x650a7354, 0x766a0abb,
     0x81c2c92e, 0x92722c85,
   0xa2bfe8a1, 0xa81a664b, 0xc24b8b70, 0xc76c51a3, 0xd192e819, 0xd6990624,
     0xf40e3585, 0x106aa070,
   0x19a4c116, 0x1e376c08, 0x2748774c, 0x34b0bcb5, 0x391c0cb3, 0x4ed8aa4a,
     0x5b9cca4f, 0x682e6ff3,
   0x748f82ee, 0x78a5636f, 0x84c87814, 0x8cc70208, 0x90befffa, 0xa4506ceb,
     0xbef9a3f7, 0xc67178f2]

/-- The eight working words. -/
structure Words where
  a : UInt32
  b : UInt32
  c : UInt32
  d : UInt32
  e : UInt32
  f : UInt32
  g : UInt32
  h : UInt32

/-- The initial hash value. -/
def init : Words :=
  ⟨0x6a09e667, 0xbb67ae85, 0x3c6ef372, 0xa54ff53a, 0x510e527f, 0x9b05688c,
    0x1f83d9ab, 0x5be0cd19⟩

def rotr (x : UInt32) (n : UInt32) : UInt32 := (x >>> n) ||| (x <<< (32 - n))

/-- `w` as four big-endian bytes. -/
def beBytes (w : UInt32) : Bytes :=
  [(w >>> 24).toUInt8, (w >>> 16).toUInt8, (w >>> 8).toUInt8, w.toUInt8]

/-- Big-endian words of a byte string whose length is a multiple of four. -/
def beWords : Bytes → List UInt32
  | b0 :: b1 :: b2 :: b3 :: bs =>
    ((b0.toUInt32 <<< 24) ||| (b1.toUInt32 <<< 16) |||
      (b2.toUInt32 <<< 8) ||| b3.toUInt32) ::
      beWords bs
  | _ => []

/-- One `1` bit, zeros, and the length in bits as eight bytes. -/
def pad (b : Bytes) : Bytes :=
  let bits := 8 * b.length
  let zeros := (119 - b.length % 64) % 64
  let size := (List.range 8).map fun i => UInt8.ofNat (bits >>> (8 * (7 - i)))
  b ++ [0x80] ++ List.replicate zeros 0 ++ size

/-- Extend the schedule by `n` words; `ws` holds the words so far, newest
first. -/
def extend : Nat → List UInt32 → List UInt32
  | 0, ws => ws
  | n + 1, ws =>
    let w2 := ws.getD 1 0
    let w7 := ws.getD 6 0
    let w15 := ws.getD 14 0
    let w16 := ws.getD 15 0
    let s0 := rotr w15 7 ^^^ rotr w15 18 ^^^ (w15 >>> 3)
    let s1 := rotr w2 17 ^^^ rotr w2 19 ^^^ (w2 >>> 10)
    extend n ((w16 + s0 + w7 + s1) :: ws)

/-- One round, with the round's constant and schedule word. -/
def round (s : Words) (kw : UInt32 × UInt32) : Words :=
  let s1 := rotr s.e 6 ^^^ rotr s.e 11 ^^^ rotr s.e 25
  let ch := (s.e &&& s.f) ^^^ (~~~s.e &&& s.g)
  let t1 := s.h + s1 + ch + kw.1 + kw.2
  let s0 := rotr s.a 2 ^^^ rotr s.a 13 ^^^ rotr s.a 22
  let maj := (s.a &&& s.b) ^^^ (s.a &&& s.c) ^^^ (s.b &&& s.c)
  ⟨t1 + (s0 + maj), s.a, s.b, s.c, s.d + t1, s.e, s.f, s.g⟩

/-- Compress one sixteen-word block. -/
def compress (s : Words) (block : List UInt32) : Words :=
  let r := (k.zip (extend 48 block.reverse).reverse).foldl round s
  ⟨s.a + r.a, s.b + r.b, s.c + r.c, s.d + r.d, s.e + r.e, s.f + r.f,
    s.g + r.g, s.h + r.h⟩

/-- Compress `n` blocks off the front of `ws`. -/
def blocks : Nat → List UInt32 → Words → Words
  | 0, _, s => s
  | n + 1, ws, s => blocks n (ws.drop 16) (compress s (ws.take 16))

end Sha256

/-- `hashlib.sha256(b).digest()`. -/
def sha256 (b : Bytes) : Bytes :=
  let ws := Sha256.beWords (Sha256.pad b)
  let s := Sha256.blocks (ws.length / 16) ws Sha256.init
  [s.a, s.b, s.c, s.d, s.e, s.f, s.g, s.h].flatMap Sha256.beBytes

/-- `hash256`: SHA-256 twice. -/
def hash256 (b : Bytes) : Bytes := sha256 (sha256 b)

/-- A digest is 32 bytes. -/
@[simp] theorem length_sha256 (b : Bytes) : (sha256 b).length = 32 := by
  simp [sha256, Sha256.beBytes]

example : sha256 [0x61, 0x62, 0x63] =
    [0xba, 0x78, 0x16, 0xbf, 0x8f, 0x01, 0xcf, 0xea, 0x41, 0x41, 0x40, 0xde,
      0x5d, 0xae, 0x22, 0x23,
     0xb0, 0x03, 0x61, 0xa3, 0x96, 0x17, 0x7a, 0x9c, 0xb4, 0x10, 0xff, 0x61,
       0xf2, 0x00, 0x15, 0xad] := by
  decide +kernel

end Pyrxd.Lib
