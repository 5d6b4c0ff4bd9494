import Silence.Basic
import Silence.Lib.Gf2Poly
import Mathlib.Data.FinEnum
import Mathlib.Logic.Function.Basic

/-!
# Silence.Spec.Fips197

AES-256 as FIPS 197 defines it, written from the standard and independent of the
tables and loops of the code.

A byte is an element of GF(2^8): a polynomial over GF(2) modulo
X⁸ + X⁴ + X³ + X + 1. The S-box is the multiplicative inverse followed by an
affine map of the bits, `mixColumns` multiplies each column, as a polynomial over
GF(2^8) modulo X⁴ + 1, by a fixed polynomial, and the round constants are the
powers of X. The state is indexed by row and column, byte `r + 4 * c` of a block
being the entry in row `r` and column `c`.
-/

namespace Silence.Fips197

open Silence.Lib

/-! ### Arithmetic of GF(2^8) -/

/-- The reduction polynomial X⁸ + X⁴ + X³ + X + 1. -/
def modulus : Nat := 0x11b

/-- Multiplication: the product of the polynomials, reduced by long division.
The product has degree at most 14, so seven division steps suffice. -/
def mul (a b : UInt8) : UInt8 := UInt8.ofNat (clmod 8 modulus 7 (clmul 8 a.toNat b.toNat))

open Classical in
/-- The multiplicative inverse, extended to 0 by 0. -/
noncomputable def inv (a : UInt8) : UInt8 :=
  if h : ∃ b, mul a b = 1 then h.choose else 0

/-- Bit `i` of a byte, bit 0 being the least significant. -/
def bit (b : UInt8) (i : Nat) : Bool := b.toNat.testBit i

/-- The byte with the given bits. -/
def ofBits (f : Nat → Bool) : UInt8 :=
  UInt8.ofNat (Nat.fold 8 (fun i _ acc => acc + if f i then 2 ^ i else 0) 0)

/-- The affine map of the S-box. -/
def affine (b : UInt8) : UInt8 :=
  ofBits fun i => bit b i ^^ bit b ((i + 4) % 8) ^^ bit b ((i + 5) % 8) ^^ bit b ((i + 6) % 8) ^^
    bit b ((i + 7) % 8) ^^ bit 0x63 i

/-- The S-box: inversion, then the affine map. -/
noncomputable def sbox (b : UInt8) : UInt8 := affine (inv b)

/-- The inverse S-box: the inverse of the affine map, then inversion. -/
noncomputable def invSbox (b : UInt8) : UInt8 := inv (Function.invFun affine b)

/-! ### Round transformations -/

/-- The state array, indexed by row and column. -/
abbrev State := Fin 4 → Fin 4 → UInt8

/-- A column, or a word of the key schedule. -/
abbrev Word := Fin 4 → UInt8

noncomputable def subBytes (s : State) : State := fun r c => sbox (s r c)

noncomputable def invSubBytes (s : State) : State := fun r c => invSbox (s r c)

/-- Row `r` moves `r` places to the left (indices are modulo 4). -/
def shiftRows (s : State) : State := fun r c => s r (c + r)

def invShiftRows (s : State) : State := fun r c => s r (c - r)

/-- The product of two polynomials over GF(2^8) modulo X⁴ + 1. -/
def polyMul (a b : Word) : Word := fun i =>
  mul (a i) (b 0) ^^^ mul (a (i - 1)) (b 1) ^^^ mul (a (i - 2)) (b 2) ^^^ mul (a (i - 3)) (b 3)

/-- The fixed polynomial {03}X³ + {01}X² + {01}X + {02} of `mixColumns`. -/
def mixPolynomial : Word := ![0x02, 0x01, 0x01, 0x03]

/-- Its inverse {0b}X³ + {0d}X² + {09}X + {0e}. -/
def invMixPolynomial : Word := ![0x0e, 0x09, 0x0d, 0x0b]

def mixColumns (s : State) : State := fun r c => polyMul mixPolynomial (fun i => s i c) r

def invMixColumns (s : State) : State := fun r c => polyMul invMixPolynomial (fun i => s i c) r

def addRoundKey (s : State) (w : Nat → Word) (round : Nat) : State :=
  fun r c => s r c ^^^ w (4 * round + c.val) r

/-! ### Key schedule -/

def rotWord (a : Word) : Word := fun i => a (i + 1)

noncomputable def subWord (a : Word) : Word := fun i => sbox (a i)

/-- The power X ^ j of GF(2^8). -/
def xPow : Nat → UInt8
  | 0 => 1
  | j + 1 => mul 0x02 (xPow j)

/-- The round constant word number `j`, counted from 1. -/
def rcon (j : Nat) : Word := ![xPow (j - 1), 0, 0, 0]

/-- Word `i` of the AES-256 key schedule (`Nk = 8`). -/
noncomputable def word (key : Vector UInt8 32) (i : Nat) : Word :=
  if h : i < 8 then fun j => key[4 * i + j.val]
  else
    let prev := word key (i - 1)
    let temp :=
      if i % 8 = 0 then fun j => subWord (rotWord prev) j ^^^ rcon (i / 8) j
      else if i % 8 = 4 then subWord prev
      else prev
    fun j => word key (i - 8) j ^^^ temp j
termination_by i

/-! ### The cipher and its inverse -/

/-- The state array of a block of 16 bytes. -/
def ofBlock (block : Vector UInt8 16) : State := fun r c => block[r.val + 4 * c.val]

theorem row_lt (i : Fin 16) : i.val % 4 < 4 := by omega

theorem column_lt (i : Fin 16) : i.val / 4 < 4 := by omega

/-- The block of a state array. -/
def toBlock (s : State) : Vector UInt8 16 :=
  Vector.ofFn fun i => s ⟨i.val % 4, row_lt i⟩ ⟨i.val / 4, column_lt i⟩

noncomputable def cipherRound (w : Nat → Word) (s : State) (round : Nat) : State :=
  addRoundKey (mixColumns (shiftRows (subBytes s))) w round

noncomputable def invCipherRound (w : Nat → Word) (s : State) (round : Nat) : State :=
  invMixColumns (addRoundKey (invSubBytes (invShiftRows s)) w round)

/-- The AES-256 cipher, with its 14 rounds. -/
noncomputable def cipher (key : Vector UInt8 32) (block : Vector UInt8 16) : Vector UInt8 16 :=
  let w := word key
  let s := addRoundKey (ofBlock block) w 0
  let s := (List.range' 1 13).foldl (cipherRound w) s
  toBlock (addRoundKey (shiftRows (subBytes s)) w 14)

/-- The AES-256 inverse cipher. -/
noncomputable def invCipher (key : Vector UInt8 32) (block : Vector UInt8 16) : Vector UInt8 16 :=
  let w := word key
  let s := addRoundKey (ofBlock block) w 14
  let s := (List.range' 1 13).reverse.foldl (invCipherRound w) s
  toBlock (addRoundKey (invSubBytes (invShiftRows s)) w 0)

end Silence.Fips197
