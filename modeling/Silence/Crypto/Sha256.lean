import Silence.Basic
import Silence.Lib.Radix

/-!
# Silence.Crypto.Sha256

The class `SHA256` of `crypto/src/sha256.cpp`.

`update`, `pad` and `digest` reach the compression only through the private
member function `transform`, which reads 64 bytes and changes `_state`. The
buffering is written once for any type of states and any `transform`; the
repository's class is the instance `transform` below, and the instance `record`
keeps the blocks that `transform` is handed.
-/

namespace Silence.Crypto

open Silence.Lib

namespace Sha256

/-- The 64 bytes that `transform` reads at its argument. -/
abbrev Block := Vector UInt8 64

/-- `_buffer.data()`, as far as `transform` reads it. -/
def blockAt (buffer : Bytes) : Block := Vector.ofFn fun i => buffer.getD i.val 0

/-! ### The compression -/

/-- The eight words `_state`. -/
abbrev HashState := Vector UInt32 8

def rotr (word bits : UInt32) : UInt32 := (word >>> bits) ||| (word <<< (32 - bits))

def ch (x y z : UInt32) : UInt32 := (x &&& y) ^^^ (~~~x &&& z)

def maj (x y z : UInt32) : UInt32 := (x &&& y) ^^^ (x &&& z) ^^^ (y &&& z)

def ep0 (x : UInt32) : UInt32 := rotr x 2 ^^^ rotr x 13 ^^^ rotr x 22

def ep1 (x : UInt32) : UInt32 := rotr x 6 ^^^ rotr x 11 ^^^ rotr x 25

def sig0 (x : UInt32) : UInt32 := rotr x 7 ^^^ rotr x 18 ^^^ (x >>> 3)

def sig1 (x : UInt32) : UInt32 := rotr x 17 ^^^ rotr x 19 ^^^ (x >>> 10)

def K : Vector UInt32 64 := #v[
    0x428a2f98, 0x71374491, 0xb5c0fbcf, 0xe9b5dba5,
    0x3956c25b, 0x59f111f1, 0x923f82a4, 0xab1c5ed5,
    0xd807aa98, 0x12835b01, 0x243185be, 0x550c7dc3,
    0x72be5d74, 0x80deb1fe, 0x9bdc06a7, 0xc19bf174,
    0xe49b69c1, 0xefbe4786, 0x0fc19dc6, 0x240ca1cc,
    0x2de92c6f, 0x4a7484aa, 0x5cb0a9dc, 0x76f988da,
    0x983e5152, 0xa831c66d, 0xb00327c8, 0xbf597fc7,
    0xc6e00bf3, 0xd5a79147, 0x06ca6351, 0x14292967,
    0x27b70a85, 0x2e1b2138, 0x4d2c6dfc, 0x53380d13,
    0x650a7354, 0x766a0abb, 0x81c2c92e, 0x92722c85,
    0xa2bfe8a1, 0xa81a664b, 0xc24b8b70, 0xc76c51a3,
    0xd192e819, 0xd6990624, 0xf40e3585, 0x106aa070,
    0x19a4c116, 0x1e376c08, 0x2748774c, 0x34b0bcb5,
    0x391c0cb3, 0x4ed8aa4a, 0x5b9cca4f, 0x682e6ff3,
    0x748f82ee, 0x78a5636f, 0x84c87814, 0x8cc70208,
    0x90befffa, 0xa4506ceb, 0xbef9a3f7, 0xc67178f2]

/-- The initial value of `_state`, in the constructor and after `digest`. -/
def initialState : HashState := #v[
    0x6a09e667, 0xbb67ae85, 0x3c6ef372, 0xa54ff53a,
    0x510e527f, 0x9b05688c, 0x1f83d9ab, 0x5be0cd19]

/-- The first loop of `transform`: word `i` of the block, big-endian. -/
def loadWord (data : Block) (i : Nat) (hi : i < 16) : UInt32 :=
  (data[i * 4].toUInt32 <<< 24) ||| (data[i * 4 + 1].toUInt32 <<< 16) |||
    (data[i * 4 + 2].toUInt32 <<< 8) ||| data[i * 4 + 3].toUInt32

/-- The array `w` after the first loop. -/
def loadWords (data : Block) : Vector UInt32 64 :=
  Vector.ofFn fun i => if h : i.val < 16 then loadWord data i.val h else 0

/-- Iteration `i` of the second loop. -/
def extendStep (i : Nat) (hi : 16 ≤ i ∧ i < 64) (w : Vector UInt32 64) : Vector UInt32 64 :=
  w.set i (sig1 w[i - 2] + w[i - 7] + sig0 w[i - 15] + w[i - 16])

/-- The array `w` after the second loop. -/
def messageSchedule (data : Block) : Vector UInt32 64 :=
  Nat.fold 48 (fun k hk w => extendStep (k + 16) (by omega) w) (loadWords data)

/-- The local variables `a`, …, `h`. -/
structure Working where
  (a b c d e f g h : UInt32)

/-- One iteration of the main loop, with its round constant and schedule word. -/
def round (k w : UInt32) (s : Working) : Working :=
  let temp1 := s.h + ep1 s.e + ch s.e s.f s.g + k + w
  let temp2 := ep0 s.a + maj s.a s.b s.c
  ⟨temp1 + temp2, s.a, s.b, s.c, s.d + temp1, s.e, s.f, s.g⟩

/-- The main loop, stopped after `n` iterations. -/
def rounds (w : Vector UInt32 64) (n : Nat) (hn : n ≤ 64) (s : Working) : Working :=
  Nat.fold n (fun i hi s => round K[i] w[i] s) s

/-- The local variables before the main loop. -/
def load (state : HashState) : Working :=
  ⟨state[0], state[1], state[2], state[3], state[4], state[5], state[6], state[7]⟩

/-- The eight additions after the main loop. -/
def addTo (state : HashState) (s : Working) : HashState := #v[
    state[0] + s.a, state[1] + s.b, state[2] + s.c, state[3] + s.d,
    state[4] + s.e, state[5] + s.f, state[6] + s.g, state[7] + s.h]

def transform (state : HashState) (data : Block) : HashState :=
  let w := messageSchedule data
  addTo state (rounds w 64 (by omega) (load state))

/-! ### Buffering and padding -/

/-- The data members of the class: `_state`, `_buffer` and `_total_length`, the
number of bits passed to `update`. -/
structure Object (σ : Type) where
  state : σ
  buffer : Bytes
  totalLength : UInt64

section Buffering

variable {σ : Type} (transform : σ → Block → σ)

/-- The constructor. -/
def Object.new (state : σ) : Object σ := ⟨state, [], 0⟩

/-- The body of the loop of `update`. -/
def Object.pushByte (s : Object σ) (b : UInt8) : Object σ :=
  let buffer := s.buffer ++ [b]
  if buffer.length = 64 then { s with state := transform s.state (blockAt buffer), buffer := [] }
  else { s with buffer := buffer }

def Object.update (s : Object σ) (data : Bytes) : Object σ :=
  data.foldl (Object.pushByte transform)
    { s with totalLength := s.totalLength + UInt64.ofNat data.length * 8 }

/-- The last loop of `pad`: the length in bits, most significant byte first. -/
def lengthBytes (finalLength : UInt64) : Bytes :=
  ([7, 6, 5, 4, 3, 2, 1, 0] : List UInt64).map fun i => ((finalLength >>> (i * 8)) &&& 0xFF).toUInt8

/-- The buffer that `pad` hands to `transform`. The zeros go up to 56 bytes only
where the buffer and the marker are shorter. -/
def padBuffer (buffer : Bytes) (totalLength : UInt64) : Bytes :=
  let buffer := buffer ++ [0x80]
  let buffer := buffer ++ List.replicate (56 - buffer.length) 0x00
  buffer ++ lengthBytes totalLength

/-- `transform` is called once, on the first 64 bytes of the buffer. -/
def Object.pad (s : Object σ) : Object σ :=
  let buffer := padBuffer s.buffer s.totalLength
  { s with state := transform s.state (blockAt buffer), buffer := buffer }

end Buffering

/-! ### The class -/

def Object.digest (s : Object HashState) : Bytes × Object HashState :=
  let s := s.pad transform
  (s.state.toList.flatMap fun w => setw 8 0x30 (toHex w.toNat), Object.new initialState)

/-- The digest of a fresh object that is given `m` in one `update`. -/
def digestOf (m : Bytes) : Bytes := (((Object.new initialState).update transform m).digest).1

/-- A `transform` that only notes the block it is handed. -/
def record (blocks : List Block) (data : Block) : List Block := blocks ++ [data]

/-- The blocks that one `update` with `m` followed by `digest` hands to
`transform`. -/
def transformedBlocks (m : Bytes) : List Block :=
  (((Object.new []).update record m).pad record).state

end Sha256

end Silence.Crypto
