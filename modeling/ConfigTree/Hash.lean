/-!
# A 64-bit hash of byte strings

The 64-bit variant of xxHash.  The input is read in four lanes of eight bytes, then by words of
eight and of four bytes, then byte by byte; all arithmetic wraps.  Each loop runs a number of times
that the length of the input fixes beforehand.
-/

namespace ConfigTree.Hash

/-! ## §1. Mixing. -/

private def prime1 : UInt64 := 0x9E3779B185EBCA87
private def prime2 : UInt64 := 0xC2B2AE3D27D4EB4F
private def prime3 : UInt64 := 0x165667B19E3779F9
private def prime4 : UInt64 := 0x85EBCA77C2B2AE63
private def prime5 : UInt64 := 0x27D4EB2F165667C5

/-- The word `x` with its bits moved cyclically towards the high end, by less than 64 `places`. -/
def rotate (x : UInt64) (places : UInt64) : UInt64 :=
  x <<< places ||| x >>> (64 - places)

/-- The word that `bytes` spell, least significant byte first. -/
def word (bytes : List UInt8) : UInt64 :=
  bytes.foldr (fun b acc => acc <<< 8 ||| b.toUInt64) 0

/-- A `lane` after one more word of `input`. -/
def mix (lane input : UInt64) : UInt64 :=
  rotate (lane + input * prime2) 31 * prime1

/-- The `digest` after a `lane` is merged into it. -/
def merge (digest lane : UInt64) : UInt64 :=
  (digest ^^^ mix 0 lane) * prime1 + prime4

/-- The last scrambling of the digest `h`. -/
def avalanche (h : UInt64) : UInt64 :=
  let h := (h ^^^ h >>> 33) * prime2
  let h := (h ^^^ h >>> 29) * prime3
  h ^^^ h >>> 32

/-! ## §2. The parts of the input. -/

/-- The four lanes of the bulk of the input. -/
structure Lanes where
  /-- The first lane. -/
  a : UInt64
  /-- The second lane. -/
  b : UInt64
  /-- The third lane. -/
  c : UInt64
  /-- The fourth lane. -/
  d : UInt64

namespace Lanes

/-- The lanes before any input. -/
def start (seed : UInt64) : Lanes :=
  ⟨seed + prime1 + prime2, seed + prime2, seed, seed - prime1⟩

/-- The lanes after `n` stripes of 32 bytes. -/
def absorb : Nat → List UInt8 → Lanes → Lanes
  | 0, _, l => l
  | n + 1, bytes, l =>
    let at8 (i : Nat) : UInt64 := word ((bytes.drop (8 * i)).take 8)
    absorb n (bytes.drop 32)
      ⟨mix l.a (at8 0), mix l.b (at8 1), mix l.c (at8 2), mix l.d (at8 3)⟩

/-- The digest of the `Lanes`. -/
def digest (l : Lanes) : UInt64 :=
  let sum := rotate l.a 1 + rotate l.b 7 + rotate l.c 12 + rotate l.d 18
  [l.a, l.b, l.c, l.d].foldl merge sum

end Lanes

/-- The digest after `n` words of eight bytes. -/
def absorbWords : Nat → List UInt8 → UInt64 → UInt64
  | 0, _, h => h
  | n + 1, bytes, h =>
    absorbWords n (bytes.drop 8) (rotate (h ^^^ mix 0 (word (bytes.take 8))) 27 * prime1 + prime4)

/-- The digest `h` after a half word, if four of the `bytes` are left for one. -/
def absorbHalf (bytes : List UInt8) (h : UInt64) : UInt64 :=
  if 4 ≤ bytes.length then
    rotate (h ^^^ word (bytes.take 4) * prime1) 23 * prime2 + prime3
  else h

/-- The digest after one more byte. -/
def absorbByte (h : UInt64) (b : UInt8) : UInt64 :=
  rotate (h ^^^ b.toUInt64 * prime5) 11 * prime1

/-- The digest `h` after the last `bytes`, fewer than 32. -/
def absorbTail (bytes : List UInt8) (h : UInt64) : UInt64 :=
  let words := bytes.length / 8
  let rest := bytes.drop (8 * words)
  (rest.drop (4 * (rest.length / 4))).foldl absorbByte (absorbHalf rest (absorbWords words bytes h))

/-- The hash of a byte string under a `seed`. -/
def ofBytes (bytes : List UInt8) (seed : UInt64) : UInt64 :=
  let length := bytes.length
  let stripes := length / 32
  let bulk :=
    if stripes = 0 then seed + prime5 else (Lanes.absorb stripes bytes (.start seed)).digest
  avalanche (absorbTail (bytes.drop (32 * stripes)) (bulk + length.toUInt64))

end ConfigTree.Hash
