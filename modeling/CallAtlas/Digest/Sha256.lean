/-!
# SHA-256

The digest of a sequence of bytes.  The message is padded to whole blocks of 64 bytes; each block is
expanded to a schedule of 64 words and mixed into a state of eight words.
-/

namespace CallAtlas.Digest.Sha256

def roundConstants : List UInt32 := [
  0x428a2f98, 0x71374491, 0xb5c0fbcf, 0xe9b5dba5, 0x3956c25b, 0x59f111f1, 0x923f82a4, 0xab1c5ed5,
  0xd807aa98, 0x12835b01, 0x243185be, 0x550c7dc3, 0x72be5d74, 0x80deb1fe, 0x9bdc06a7, 0xc19bf174,
  0xe49b69c1, 0xefbe4786, 0x0fc19dc6, 0x240ca1cc, 0x2de92c6f, 0x4a7484aa, 0x5cb0a9dc, 0x76f988da,
  0x983e5152, 0xa831c66d, 0xb00327c8, 0xbf597fc7, 0xc6e00bf3, 0xd5a79147, 0x06ca6351, 0x14292967,
  0x27b70a85, 0x2e1b2138, 0x4d2c6dfc, 0x53380d13, 0x650a7354, 0x766a0abb, 0x81c2c92e, 0x92722c85,
  0xa2bfe8a1, 0xa81a664b, 0xc24b8b70, 0xc76c51a3, 0xd192e819, 0xd6990624, 0xf40e3585, 0x106aa070,
  0x19a4c116, 0x1e376c08, 0x2748774c, 0x34b0bcb5, 0x391c0cb3, 0x4ed8aa4a, 0x5b9cca4f, 0x682e6ff3,
  0x748f82ee, 0x78a5636f, 0x84c87814, 0x8cc70208, 0x90befffa, 0xa4506ceb, 0xbef9a3f7, 0xc67178f2]

structure State where
  a : UInt32
  b : UInt32
  c : UInt32
  d : UInt32
  e : UInt32
  f : UInt32
  g : UInt32
  h : UInt32

def initial : State :=
  ⟨0x6a09e667, 0xbb67ae85, 0x3c6ef372, 0xa54ff53a, 0x510e527f, 0x9b05688c, 0x1f83d9ab, 0x5be0cd19⟩

def rotate (x : UInt32) (n : UInt32) : UInt32 := (x >>> n) ||| (x <<< (32 - n))

def round (s : State) (w k : UInt32) : State :=
  let s1 := rotate s.e 6 ^^^ rotate s.e 11 ^^^ rotate s.e 25
  let choice := (s.e &&& s.f) ^^^ ((~~~ s.e) &&& s.g)
  let t1 := s.h + s1 + choice + k + w
  let s0 := rotate s.a 2 ^^^ rotate s.a 13 ^^^ rotate s.a 22
  let majority := (s.a &&& s.b) ^^^ (s.a &&& s.c) ^^^ (s.b &&& s.c)
  ⟨t1 + (s0 + majority), s.a, s.b, s.c, s.d + t1, s.e, s.f, s.g⟩

def wordAt (ws : Array UInt32) (i : Nat) : UInt32 := ws.getD i 0

/-- Extend a schedule by `n` words, each made of four earlier ones. -/
def extend : Nat → Array UInt32 → Array UInt32
  | 0, ws => ws
  | n + 1, ws =>
    let i := ws.size
    let x := wordAt ws (i - 15)
    let y := wordAt ws (i - 2)
    let s0 := rotate x 7 ^^^ rotate x 18 ^^^ (x >>> 3)
    let s1 := rotate y 17 ^^^ rotate y 19 ^^^ (y >>> 10)
    extend n (ws.push (wordAt ws (i - 16) + s0 + wordAt ws (i - 7) + s1))

def byteAt (m : ByteArray) (i : Nat) : UInt32 := (m.data.getD i 0).toUInt32

def blockWords (m : ByteArray) (start : Nat) : Array UInt32 :=
  Array.ofFn fun i : Fin 16 =>
    let j := start + 4 * i.val
    (byteAt m j <<< 24) ||| (byteAt m (j + 1) <<< 16) ||| (byteAt m (j + 2) <<< 8) |||
      byteAt m (j + 3)

def compress (m : ByteArray) (s : State) (start : Nat) : State :=
  let schedule := extend 48 (blockWords m start)
  let t := (schedule.toList.zip roundConstants).foldl (fun t (w, k) => round t w k) s
  ⟨s.a + t.a, s.b + t.b, s.c + t.c, s.d + t.d, s.e + t.e, s.f + t.f, s.g + t.g, s.h + t.h⟩

/-- The message, a one bit, zeros, and the number of bits of the message in eight bytes. -/
def pad (m : ByteArray) : ByteArray :=
  let zeros := (119 - m.size % 64) % 64
  let bits := 8 * m.size
  let length := (List.range 8).map fun i => (bits >>> (8 * (7 - i))).toUInt8
  ((0x80 :: List.replicate zeros 0) ++ length).foldl ByteArray.push m

def digest (m : ByteArray) : State :=
  let padded := pad m
  (List.range (padded.size / 64)).foldl (fun s i => compress padded s (64 * i)) initial

def hexWord (w : UInt32) : List Char :=
  (List.range 8).map fun i => Nat.digitChar ((w >>> (4 * (7 - i)).toUInt32) &&& 0xf).toNat

def hex (m : ByteArray) : String :=
  let s := digest m
  String.ofList ([s.a, s.b, s.c, s.d, s.e, s.f, s.g, s.h].flatMap hexWord)

end CallAtlas.Digest.Sha256
