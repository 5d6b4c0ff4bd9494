import Silence.Basic
import Silence.Lib.Blocks
import Silence.Lib.Radix
import Mathlib.Analysis.SpecialFunctions.Pow.Real
import Mathlib.Data.Nat.Nth
import Mathlib.Data.Nat.Prime.Defs

/-!
# Silence.Spec.Fips180

The SHA-256 hash function as FIPS 180-4 defines it, for messages of whole bytes.
Nothing here is taken from the repository.

The constants are the ones the standard describes, not a table: the first 32
bits of the fractional parts of the cube roots and of the square roots of the
first primes, as real numbers. The specification is therefore not computable;
words are 32-bit vectors and addition is modulo `2 ^ 32`.
-/

namespace Silence.Spec.Fips180

open Silence.Lib

abbrev Word := BitVec 32

/-- An intermediate hash value: eight words. -/
abbrev HashValue := Vector Word 8

/-! ### Functions and constants -/

def ch (x y z : Word) : Word := (x &&& y) ^^^ (~~~x &&& z)

def maj (x y z : Word) : Word := (x &&& y) ^^^ (x &&& z) ^^^ (y &&& z)

def bigSigma0 (x : Word) : Word := x.rotateRight 2 ^^^ x.rotateRight 13 ^^^ x.rotateRight 22

def bigSigma1 (x : Word) : Word := x.rotateRight 6 ^^^ x.rotateRight 11 ^^^ x.rotateRight 25

def smallSigma0 (x : Word) : Word := x.rotateRight 7 ^^^ x.rotateRight 18 ^^^ x >>> 3

def smallSigma1 (x : Word) : Word := x.rotateRight 17 ^^^ x.rotateRight 19 ^^^ x >>> 10

/-- The first 32 bits of the fractional part of a real number. -/
noncomputable def fracBits (x : ℝ) : Word := BitVec.ofInt 32 ⌊Int.fract x * 2 ^ 32⌋

/-- The round constants come from the cube roots of the first 64 primes. -/
noncomputable def roundConstant (t : Nat) : Word :=
  fracBits ((Nat.nth Nat.Prime t : ℝ) ^ (1 / 3 : ℝ))

/-- The initial hash value comes from the square roots of the first 8 primes. -/
noncomputable def initialHash : HashValue :=
  Vector.ofFn fun i => fracBits (√(Nat.nth Nat.Prime i : ℝ))

/-! ### Padding -/

/-- The least number of zero bytes that, after the byte `0x80`, leaves 8 bytes
up to a multiple of 64. -/
def zeroBytes (n : Nat) : Nat := (119 - n % 64) % 64

/-- The message, the bit 1, zero bits, and the length in bits as a 64-bit
number. -/
def padMessage (m : Bytes) : Bytes :=
  m ++ 0x80 :: (List.replicate (zeroBytes m.length) 0 ++ beBytes 8 (8 * m.length))

/-- The padded message as 512-bit blocks. -/
def messageBlocks (m : Bytes) : List Bytes := toBlocks 64 (padMessage m)

/-- Word `t` of a block: four bytes, the most significant first. -/
def blockWord (block : Bytes) (t : Nat) : Word :=
  let byte := fun i => (block.getD (4 * t + i) 0).toBitVec
  byte 0 ++ byte 1 ++ byte 2 ++ byte 3

/-! ### Hash computation -/

/-- The message schedule of a block. -/
def schedule (block : Bytes) (t : Nat) : Word :=
  if t < 16 then blockWord block t
  else smallSigma1 (schedule block (t - 2)) + schedule block (t - 7) +
    smallSigma0 (schedule block (t - 15)) + schedule block (t - 16)

/-- The eight working variables. -/
structure Working where
  (a b c d e f g h : Word)

/-- The working variables before round `t`. -/
noncomputable def working (H : HashValue) (block : Bytes) : Nat → Working
  | 0 => ⟨H.get 0, H.get 1, H.get 2, H.get 3, H.get 4, H.get 5, H.get 6, H.get 7⟩
  | t + 1 =>
      let v := working H block t
      let T₁ := v.h + bigSigma1 v.e + ch v.e v.f v.g + roundConstant t + schedule block t
      let T₂ := bigSigma0 v.a + maj v.a v.b v.c
      ⟨T₁ + T₂, v.a, v.b, v.c, v.d + T₁, v.e, v.f, v.g⟩

/-- The working variables added to a hash value. -/
def Working.addTo (v : Working) (H : HashValue) : HashValue := #v[
    v.a + H.get 0, v.b + H.get 1, v.c + H.get 2, v.d + H.get 3,
    v.e + H.get 4, v.f + H.get 5, v.g + H.get 6, v.h + H.get 7]

/-- The hash value after one more block. -/
noncomputable def compress (H : HashValue) (block : Bytes) : HashValue :=
  (working H block 64).addTo H

/-- The final hash value of a message. -/
noncomputable def hashValue (m : Bytes) : HashValue :=
  (messageBlocks m).foldl compress initialHash

/-- The message digest, written as 64 hexadecimal characters. -/
noncomputable def hexDigest (m : Bytes) : Bytes :=
  (hashValue m).toList.flatMap fun w => fixedHex 8 w.toNat

end Silence.Spec.Fips180
