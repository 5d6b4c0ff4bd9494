import Silence.Basic
import Silence.Lib.Blocks
import Mathlib.Logic.Function.Iterate

/-!
# Silence.Crypto.Aes256

The class `AES256` of `crypto/src/aes256.cpp`, function by function.

A `std::array<uint8_t, n>` is a `Vector UInt8 n`, so every index below carries
its bound and no read or write can leave its array. The key `_key` of the object
is the argument `key`. A loop over `round` or over the words of the key schedule
is a `Nat.fold` (or `Nat.foldRev`, where the source counts down), with the loop
counter shifted to start at the source's first value.
-/

namespace Silence.Crypto

open Silence.Lib

namespace Aes256

/-- The cipher state: 16 bytes, byte `r + 4 * c` in row `r` and column `c`. -/
abbrev State := Vector UInt8 16

/-- The 256-bit key. -/
abbrev Key := Vector UInt8 32

/-- The expanded key: 60 words of 4 bytes. -/
abbrev Schedule := Vector UInt8 240

/-! ### Constants and tables -/

/-- Number of 32-bit words in the key. -/
def Nk : Nat := 8

/-- Number of columns of the state. -/
def Nb : Nat := 4

/-- Number of rounds. -/
def Nr : Nat := 14

/-- `block_size`: the block size in *bits*. `pkcs7Pad` uses it as a number of
bytes. -/
def blockSize : Nat := 128

/-- `state_size`: the block size in bytes. -/
def stateSize : Nat := 4 * Nb

set_option maxRecDepth 4096 in
def sbox : Vector UInt8 256 := #v[
    0x63, 0x7c, 0x77, 0x7b, 0xf2, 0x6b, 0x6f, 0xc5, 0x30, 0x01, 0x67, 0x2b, 0xfe, 0xd7, 0xab, 0x76,
    0xca, 0x82, 0xc9, 0x7d, 0xfa, 0x59, 0x47, 0xf0, 0xad, 0xd4, 0xa2, 0xaf, 0x9c, 0xa4, 0x72, 0xc0,
    0xb7, 0xfd, 0x93, 0x26, 0x36, 0x3f, 0xf7, 0xcc, 0x34, 0xa5, 0xe5, 0xf1, 0x71, 0xd8, 0x31, 0x15,
    0x04, 0xc7, 0x23, 0xc3, 0x18, 0x96, 0x05, 0x9a, 0x07, 0x12, 0x80, 0xe2, 0xeb, 0x27, 0xb2, 0x75,
    0x09, 0x83, 0x2c, 0x1a, 0x1b, 0x6e, 0x5a, 0xa0, 0x52, 0x3b, 0xd6, 0xb3, 0x29, 0xe3, 0x2f, 0x84,
    0x53, 0xd1, 0x00, 0xed, 0x20, 0xfc, 0xb1, 0x5b, 0x6a, 0xcb, 0xbe, 0x39, 0x4a, 0x4c, 0x58, 0xcf,
    0xd0, 0xef, 0xaa, 0xfb, 0x43, 0x4d, 0x33, 0x85, 0x45, 0xf9, 0x02, 0x7f, 0x50, 0x3c, 0x9f, 0xa8,
    0x51, 0xa3, 0x40, 0x8f, 0x92, 0x9d, 0x38, 0xf5, 0xbc, 0xb6, 0xda, 0x21, 0x10, 0xff, 0xf3, 0xd2,
    0xcd, 0x0c, 0x13, 0xec, 0x5f, 0x97, 0x44, 0x17, 0xc4, 0xa7, 0x7e, 0x3d, 0x64, 0x5d, 0x19, 0x73,
    0x60, 0x81, 0x4f, 0xdc, 0x22, 0x2a, 0x90, 0x88, 0x46, 0xee, 0xb8, 0x14, 0xde, 0x5e, 0x0b, 0xdb,
    0xe0, 0x32, 0x3a, 0x0a, 0x49, 0x06, 0x24, 0x5c, 0xc2, 0xd3, 0xac, 0x62, 0x91, 0x95, 0xe4, 0x79,
    0xe7, 0xc8, 0x37, 0x6d, 0x8d, 0xd5, 0x4e, 0xa9, 0x6c, 0x56, 0xf4, 0xea, 0x65, 0x7a, 0xae, 0x08,
    0xba, 0x78, 0x25, 0x2e, 0x1c, 0xa6, 0xb4, 0xc6, 0xe8, 0xdd, 0x74, 0x1f, 0x4b, 0xbd, 0x8b, 0x8a,
    0x70, 0x3e, 0xb5, 0x66, 0x48, 0x03, 0xf6, 0x0e, 0x61, 0x35, 0x57, 0xb9, 0x86, 0xc1, 0x1d, 0x9e,
    0xe1, 0xf8, 0x98, 0x11, 0x69, 0xd9, 0x8e, 0x94, 0x9b, 0x1e, 0x87, 0xe9, 0xce, 0x55, 0x28, 0xdf,
    0x8c, 0xa1, 0x89, 0x0d, 0xbf, 0xe6, 0x42, 0x68, 0x41, 0x99, 0x2d, 0x0f, 0xb0, 0x54, 0xbb, 0x16]

set_option maxRecDepth 4096 in
def invSbox : Vector UInt8 256 := #v[
    0x52, 0x09, 0x6a, 0xd5, 0x30, 0x36, 0xa5, 0x38, 0xbf, 0x40, 0xa3, 0x9e, 0x81, 0xf3, 0xd7, 0xfb,
    0x7c, 0xe3, 0x39, 0x82, 0x9b, 0x2f, 0xff, 0x87, 0x34, 0x8e, 0x43, 0x44, 0xc4, 0xde, 0xe9, 0xcb,
    0x54, 0x7b, 0x94, 0x32, 0xa6, 0xc2, 0x23, 0x3d, 0xee, 0x4c, 0x95, 0x0b, 0x42, 0xfa, 0xc3, 0x4e,
    0x08, 0x2e, 0xa1, 0x66, 0x28, 0xd9, 0x24, 0xb2, 0x76, 0x5b, 0xa2, 0x49, 0x6d, 0x8b, 0xd1, 0x25,
    0x72, 0xf8, 0xf6, 0x64, 0x86, 0x68, 0x98, 0x16, 0xd4, 0xa4, 0x5c, 0xcc, 0x5d, 0x65, 0xb6, 0x92,
    0x6c, 0x70, 0x48, 0x50, 0xfd, 0xed, 0xb9, 0xda, 0x5e, 0x15, 0x46, 0x57, 0xa7, 0x8d, 0x9d, 0x84,
    0x90, 0xd8, 0xab, 0x00, 0x8c, 0xbc, 0xd3, 0x0a, 0xf7, 0xe4, 0x58, 0x05, 0xb8, 0xb3, 0x45, 0x06,
    0xd0, 0x2c, 0x1e, 0x8f, 0xca, 0x3f, 0x0f, 0x02, 0xc1, 0xaf, 0xbd, 0x03, 0x01, 0x13, 0x8a, 0x6b,
    0x3a, 0x91, 0x11, 0x41, 0x4f, 0x67, 0xdc, 0xea, 0x97, 0xf2, 0xcf, 0xce, 0xf0, 0xb4, 0xe6, 0x73,
    0x96, 0xac, 0x74, 0x22, 0xe7, 0xad, 0x35, 0x85, 0xe2, 0xf9, 0x37, 0xe8, 0x1c, 0x75, 0xdf, 0x6e,
    0x47, 0xf1, 0x1a, 0x71, 0x1d, 0x29, 0xc5, 0x89, 0x6f, 0xb7, 0x62, 0x0e, 0xaa, 0x18, 0xbe, 0x1b,
    0xfc, 0x56, 0x3e, 0x4b, 0xc6, 0xd2, 0x79, 0x20, 0x9a, 0xdb, 0xc0, 0xfe, 0x78, 0xcd, 0x5a, 0xf4,
    0x1f, 0xdd, 0xa8, 0x33, 0x88, 0x07, 0xc7, 0x31, 0xb1, 0x12, 0x10, 0x59, 0x27, 0x80, 0xec, 0x5f,
    0x60, 0x51, 0x7f, 0xa9, 0x19, 0xb5, 0x4a, 0x0d, 0x2d, 0xe5, 0x7a, 0x9f, 0x93, 0xc9, 0x9c, 0xef,
    0xa0, 0xe0, 0x3b, 0x4d, 0xae, 0x2a, 0xf5, 0xb0, 0xc8, 0xeb, 0xbb, 0x3c, 0x83, 0x53, 0x99, 0x61,
    0x17, 0x2b, 0x04, 0x7e, 0xba, 0x77, 0xd6, 0x26, 0xe1, 0x69, 0x14, 0x63, 0x55, 0x21, 0x0c, 0x7d]

def roundConst : Vector UInt32 10 := #v[
    0x01000000, 0x02000000, 0x04000000, 0x08000000, 0x10000000,
    0x20000000, 0x40000000, 0x80000000, 0x1b000000, 0x36000000]

/-- `table[b]` for a table with an entry for every byte. -/
def lookup (table : Vector UInt8 256) (b : UInt8) : UInt8 := table.get ⟨b.toNat, b.toNat_lt⟩

/-! ### Multiplication in GF(2^8) -/

/-- The three variables that the loop of `gmul` updates. -/
structure GmulState where
  p : UInt8
  a : UInt8
  b : UInt8

/-- One iteration of the loop of `gmul`. -/
def gmulStep (s : GmulState) : GmulState :=
  let p := if s.b &&& 1 ≠ 0 then s.p ^^^ s.a else s.p
  let hiBitSet := s.a &&& 0x80
  let a := s.a <<< 1
  let a := if hiBitSet ≠ 0 then a ^^^ 0x1b else a
  ⟨p, a, s.b >>> 1⟩

def gmul (a b : UInt8) : UInt8 := (gmulStep^[8] ⟨0, a, b⟩).p

/-! ### Key schedule -/

def rotWord (word : Vector UInt8 4) : Vector UInt8 4 := #v[word[1], word[2], word[3], word[0]]

def subWord (word : Vector UInt8 4) : Vector UInt8 4 :=
  #v[lookup sbox word[0], lookup sbox word[1], lookup sbox word[2], lookup sbox word[3]]

/-- A function of four bytes applied to the bytes of a column. -/
def onColumn {α : Type} (f : UInt8 → UInt8 → UInt8 → UInt8 → α) (t : Vector UInt8 4) : α :=
  f t[0] t[1] t[2] t[3]

/-- The word `temp` of iteration `i` of the schedule loop, after the two
conditional transformations. -/
def scheduleTemp (i : Nat) (hi : 1 ≤ i ∧ i < 60) (w : Schedule) : Vector UInt8 4 :=
  let temp : Vector UInt8 4 :=
    #v[w[4 * (i - 1)], w[4 * (i - 1) + 1], w[4 * (i - 1) + 2], w[4 * (i - 1) + 3]]
  if i % Nk = 0 then
    let temp := subWord (rotWord temp)
    have hrc : i / Nk - 1 < 10 := by unfold Nk; omega
    temp.set 0 (temp[0] ^^^ ((roundConst[i / Nk - 1] >>> 24) &&& 0xFF).toUInt8)
  else if Nk > 6 ∧ i % Nk = 4 then subWord temp
  else temp

/-- One iteration of the schedule loop: write the four bytes of word `i`. The
words read are below `i`, so the order of the four writes does not matter. -/
def scheduleStep (i : Nat) (hi : 8 ≤ i ∧ i < 60) (w : Schedule) : Schedule :=
  let temp := scheduleTemp i ⟨by omega, hi.2⟩ w
  have hw : 4 * i + 3 < 240 := by omega
  have hr : 4 * (i - 8) + 3 < 240 := by omega
  (((w.set (4 * i) (w[4 * (i - 8)] ^^^ temp[0])
    ).set (4 * i + 1) (w[4 * (i - 8) + 1] ^^^ temp[1])
    ).set (4 * i + 2) (w[4 * (i - 8) + 2] ^^^ temp[2])
    ).set (4 * i + 3) (w[4 * (i - 8) + 3] ^^^ temp[3])

/-- The schedule before the loop: the key, then zeros. -/
def scheduleInit (key : Key) : Schedule :=
  Vector.ofFn fun i => if h : i.val < 32 then key[i.val] else 0

def keyExpansion (key : Key) : Schedule :=
  Nat.fold 52 (fun k hk w => scheduleStep (k + 8) (by omega) w) (scheduleInit key)

/-! ### Round transformations -/

def subBytes (state : State) : State := state.map (lookup sbox)

def invSubBytes (state : State) : State := state.map (lookup invSbox)

def shiftRows (state : State) : State := #v[
    state[0], state[5], state[10], state[15],
    state[4], state[9], state[14], state[3],
    state[8], state[13], state[2], state[7],
    state[12], state[1], state[6], state[11]]

def invShiftRows (state : State) : State := #v[
    state[0], state[13], state[10], state[7],
    state[4], state[1], state[14], state[11],
    state[8], state[5], state[2], state[15],
    state[12], state[9], state[6], state[3]]

/-- The body of the column loop of `mix_columns`. -/
def mixColumn (s0 s1 s2 s3 : UInt8) : Vector UInt8 4 := #v[
    gmul 0x02 s0 ^^^ gmul 0x03 s1 ^^^ s2 ^^^ s3,
    s0 ^^^ gmul 0x02 s1 ^^^ gmul 0x03 s2 ^^^ s3,
    s0 ^^^ s1 ^^^ gmul 0x02 s2 ^^^ gmul 0x03 s3,
    gmul 0x03 s0 ^^^ s1 ^^^ s2 ^^^ gmul 0x02 s3]

/-- The body of the column loop of `inv_mix_columns`. -/
def invMixColumn (s0 s1 s2 s3 : UInt8) : Vector UInt8 4 := #v[
    gmul 0x0e s0 ^^^ gmul 0x0b s1 ^^^ gmul 0x0d s2 ^^^ gmul 0x09 s3,
    gmul 0x09 s0 ^^^ gmul 0x0e s1 ^^^ gmul 0x0b s2 ^^^ gmul 0x0d s3,
    gmul 0x0d s0 ^^^ gmul 0x09 s1 ^^^ gmul 0x0e s2 ^^^ gmul 0x0b s3,
    gmul 0x0b s0 ^^^ gmul 0x0d s1 ^^^ gmul 0x09 s2 ^^^ gmul 0x0e s3]

/-- The column loop `for c`: column `c` of the output is `f` of column `c`. -/
def mapColumns (f : UInt8 → UInt8 → UInt8 → UInt8 → Vector UInt8 4) (state : State) : State :=
  Vector.ofFn fun i =>
    have hc : 4 * (i.val / 4) + 3 < 16 := by omega
    let c := i.val / 4
    let column := f state[4 * c] state[4 * c + 1] state[4 * c + 2] state[4 * c + 3]
    column.get ⟨i.val % 4, by omega⟩

def mixColumns (state : State) : State := mapColumns mixColumn state

def invMixColumns (state : State) : State := mapColumns invMixColumn state

def addRoundKey (state : State) (w : Schedule) (round : Fin 15) : State :=
  Vector.ofFn fun i =>
    have hi : 4 * round.val * 4 + i.val < 240 := by omega
    state[i.val] ^^^ w[4 * round.val * 4 + i.val]

/-! ### The block cipher -/

/-- The rounds `1, …, n` of the loop of `encrypt`. -/
def encryptRounds (w : Schedule) (n : Nat) (hn : n < 15) (state : State) : State :=
  Nat.fold n (fun k hk state =>
    addRoundKey (mixColumns (shiftRows (subBytes state))) w ⟨k + 1, by omega⟩) state

/-- The rounds `n, …, 1` of the loop of `decrypt`. -/
def decryptRounds (w : Schedule) (n : Nat) (hn : n < 15) (state : State) : State :=
  Nat.foldRev n (fun k hk state =>
    invMixColumns (addRoundKey (invSubBytes (invShiftRows state)) w ⟨k + 1, by omega⟩)) state

def encrypt (key : Key) (input : State) : State :=
  let w := keyExpansion key
  let state := addRoundKey input w 0
  let state := encryptRounds w 13 (by omega) state
  let state := shiftRows (subBytes state)
  addRoundKey state w 14

def decrypt (key : Key) (input : State) : State :=
  let w := keyExpansion key
  let state := addRoundKey input w 14
  let state := decryptRounds w 13 (by omega) state
  let state := invSubBytes (invShiftRows state)
  addRoundKey state w 0

/-! ### Padding -/

/-- `padding_len` is 128 minus the length modulo 128, stored in one byte. -/
def paddingLen (input : Bytes) : Nat :=
  let paddingLen := blockSize - input.length % blockSize
  if paddingLen = 0 then blockSize else paddingLen

def pkcs7Pad (input : Bytes) : Bytes :=
  input ++ List.replicate (paddingLen input) (UInt8.ofNat (paddingLen input))

def pkcs7Unpad (input : Bytes) : Except InvalidArgument Bytes :=
  match input.getLast? with
  | none => .error ⟨"Input cannot be empty"⟩
  | some paddingLen =>
      if paddingLen = 0 ∨ paddingLen.toNat > input.length then .error ⟨"Invalid padding"⟩
      else if (input.drop (input.length - paddingLen.toNat)).any (· ≠ paddingLen) then
        .error ⟨"Invalid padding"⟩
      else .ok (input.take (input.length - paddingLen.toNat))

/-! ### Whole messages -/

/-- `std::copy` of 16 bytes into the array `block`. -/
def blockOf (bs : Bytes) : State := Vector.ofFn fun i => bs.getD i.val 0

/-- Apply a block function to the consecutive 16-byte blocks of `input`. Both
loops of the source run on a length that is a multiple of 16. -/
def mapBlocks (f : State → State) (input : Bytes) : Bytes :=
  (toBlocks stateSize input).flatMap fun block => (f (blockOf block)).toList

def aes256Encrypt (key : Key) (input : Bytes) : Except InvalidArgument Bytes :=
  if input.isEmpty then .error ⟨"Input cannot be empty"⟩
  else
    let padded := pkcs7Pad input
    .ok (mapBlocks (encrypt key) padded)

def aes256Decrypt (key : Key) (input : Bytes) : Except InvalidArgument Bytes :=
  if input.isEmpty ∨ input.length % stateSize ≠ 0 then
    .error ⟨"Input length must be multiple of block size"⟩
  else
    let decrypted := mapBlocks (decrypt key) input
    pkcs7Unpad decrypted

end Aes256

end Silence.Crypto
