import OrbitOps.Py.Struct

/-!
# SHA-256

`hashlib.sha256`: the message is padded to whole blocks of 64 bytes, and every block updates eight
32-bit words.
-/

namespace Py.Sha256

/-- The round constants. -/
def roundConstants : List (BitVec 32) := [
  0x428a2f98#32, 0x71374491#32, 0xb5c0fbcf#32, 0xe9b5dba5#32, 0x3956c25b#32, 0x59f111f1#32,
  0x923f82a4#32, 0xab1c5ed5#32, 0xd807aa98#32, 0x12835b01#32, 0x243185be#32, 0x550c7dc3#32,
  0x72be5d74#32, 0x80deb1fe#32, 0x9bdc06a7#32, 0xc19bf174#32, 0xe49b69c1#32, 0xefbe4786#32,
  0x0fc19dc6#32, 0x240ca1cc#32, 0x2de92c6f#32, 0x4a7484aa#32, 0x5cb0a9dc#32, 0x76f988da#32,
  0x983e5152#32, 0xa831c66d#32, 0xb00327c8#32, 0xbf597fc7#32, 0xc6e00bf3#32, 0xd5a79147#32,
  0x06ca6351#32, 0x14292967#32, 0x27b70a85#32, 0x2e1b2138#32, 0x4d2c6dfc#32, 0x53380d13#32,
  0x650a7354#32, 0x766a0abb#32, 0x81c2c92e#32, 0x92722c85#32, 0xa2bfe8a1#32, 0xa81a664b#32,
  0xc24b8b70#32, 0xc76c51a3#32, 0xd192e819#32, 0xd6990624#32, 0xf40e3585#32, 0x106aa070#32,
  0x19a4c116#32, 0x1e376c08#32, 0x2748774c#32, 0x34b0bcb5#32, 0x391c0cb3#32, 0x4ed8aa4a#32,
  0x5b9cca4f#32, 0x682e6ff3#32, 0x748f82ee#32, 0x78a5636f#32, 0x84c87814#32, 0x8cc70208#32,
  0x90befffa#32, 0xa4506ceb#32, 0xbef9a3f7#32, 0xc67178f2#32]

/-- The eight working words. -/
structure Words where
  a : BitVec 32
  b : BitVec 32
  c : BitVec 32
  d : BitVec 32
  e : BitVec 32
  f : BitVec 32
  g : BitVec 32
  h : BitVec 32

def initial : Words :=
  ⟨0x6a09e667#32, 0xbb67ae85#32, 0x3c6ef372#32, 0xa54ff53a#32,
    0x510e527f#32, 0x9b05688c#32, 0x1f83d9ab#32, 0x5be0cd19#32⟩

def smallSigma0 (x : BitVec 32) : BitVec 32 := x.rotateRight 7 ^^^ x.rotateRight 18 ^^^ (x >>> 3)
def smallSigma1 (x : BitVec 32) : BitVec 32 := x.rotateRight 17 ^^^ x.rotateRight 19 ^^^ (x >>> 10)
def bigSigma0 (x : BitVec 32) : BitVec 32 := x.rotateRight 2 ^^^ x.rotateRight 13 ^^^ x.rotateRight 22
def bigSigma1 (x : BitVec 32) : BitVec 32 := x.rotateRight 6 ^^^ x.rotateRight 11 ^^^ x.rotateRight 25

/-- The message with its padding: a set bit, zeros, and the length in bits. -/
def pad (data : Bytes) : Bytes :=
  data ++ 0x80 :: List.replicate ((119 - data.length % 64) % 64) 0 ++ packBE 8 (8 * data.length)

/-- The big-endian words of a block. -/
def blockWords : Nat → Bytes → List (BitVec 32)
  | 0, _ => []
  | n + 1, bs => BitVec.ofNat 32 (unpackBE (bs.take 4)) :: blockWords n (bs.drop 4)

/-- `n` further schedule words; `rev` holds the schedule so far, newest word first. -/
def schedule : Nat → List (BitVec 32) → List (BitVec 32)
  | 0, rev => rev.reverse
  | n + 1, rev =>
    schedule n ((rev.getD 15 0 + smallSigma0 (rev.getD 14 0) + rev.getD 6 0 + smallSigma1 (rev.getD 1 0)) :: rev)

/-- One round, with its constant and its schedule word. -/
def round (s : Words) (kw : BitVec 32 × BitVec 32) : Words :=
  let t1 := s.h + bigSigma1 s.e + ((s.e &&& s.f) ^^^ (~~~s.e &&& s.g)) + kw.1 + kw.2
  let t2 := bigSigma0 s.a + ((s.a &&& s.b) ^^^ (s.a &&& s.c) ^^^ (s.b &&& s.c))
  ⟨t1 + t2, s.a, s.b, s.c, s.d + t1, s.e, s.f, s.g⟩

/-- One block. -/
def compress (s : Words) (block : Bytes) : Words :=
  let w := schedule 48 (blockWords 16 block).reverse
  let r := (roundConstants.zip w).foldl round s
  ⟨s.a + r.a, s.b + r.b, s.c + r.c, s.d + r.d, s.e + r.e, s.f + r.f, s.g + r.g, s.h + r.h⟩

/-- All blocks of a padded message. -/
def blocks : Nat → Bytes → Words → Words
  | 0, _, s => s
  | n + 1, bs, s => blocks n (bs.drop 64) (compress s (bs.take 64))

/-- `hashlib.sha256(data).digest()`. -/
def digest (data : Bytes) : Bytes :=
  let s := blocks ((pad data).length / 64) (pad data) initial
  [s.a, s.b, s.c, s.d, s.e, s.f, s.g, s.h].flatMap fun w => packBE 4 w.toNat

theorem length_digest (data : Bytes) : (digest data).length = 32 := by
  simp [digest]

/-- The digest of the text "abc". -/
example : hexOfBytes (digest [0x61, 0x62, 0x63]) =
    "ba7816bf8f01cfea414140de5dae2223b00361a396177a9cb410ff61f20015ad" := by
  decide +kernel

end Py.Sha256
