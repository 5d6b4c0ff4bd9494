import Silence.Crypto.Sha256Blocks
import Silence.Crypto.Sha256Compress

/-!
# Silence.Crypto.Sha256Fips

Where the class computes the SHA-256 hash of FIPS 180-4.

The compression and the initial value are the standard's, so the digest agrees
as soon as `transform` is handed the standard's blocks. That is the case for
messages that leave less than 56 bytes in the buffer. For the others the marker
and the length need a second block: the standard has it, and `pad` gives
`transform` the first 64 bytes of its buffer only.
-/

namespace Silence.Crypto.Sha256

open Silence.Lib Silence.Spec

/-! ### From blocks to digests -/

/-- Absorbing blocks is the standard's iteration of the compression. -/
theorem toBitVec_absorb (state : HashState) (bs : List Bytes) :
    (absorb transform state bs).map UInt32.toBitVec =
      bs.foldl Fips180.compress (state.map UInt32.toBitVec) := by
  induction bs generalizing state with
  | nil => rfl
  | cons b bs ih => rw [List.foldl_cons, ← toBitVec_transform, ← ih]; rfl

/-- The state printed by `digest`. -/
def hexState (state : HashState) : Bytes := state.toList.flatMap fun w => fixedHex 8 w.toNat

/-- The standard's digest, computed with the class's compression. -/
theorem hexDigest_eq (m : Bytes) :
    Fips180.hexDigest m = hexState (absorb transform initialState (Fips180.messageBlocks m)) := by
  rw [Fips180.hexDigest, Fips180.hashValue, ← toBitVec_initialState, ← toBitVec_absorb, hexState,
    Vector.toList_map, List.flatMap_map]
  rfl

/-! ### Which messages get the standard's padding -/

/-- Up to 55 bytes in the last block, `pad` appends what the standard does. -/
theorem padMessage_eq {m : Bytes} (h : m.length % 64 < 56) :
    Fips180.padMessage m = paddedMessage m := by
  have hzeros : Fips180.zeroBytes m.length = 55 - m.length % 64 := by
    rw [Fips180.zeroBytes]
    omega
  have hpad : 0x80 :: (List.replicate (Fips180.zeroBytes m.length) 0 ++ beBytes 8 (8 * m.length)) =
      padding m.length := by
    rw [hzeros, padding]
  have hlen : (m ++ padding m.length).length = 64 * (m.length / 64 + 1) := by
    rw [List.length_append, length_padding]
    omega
  rw [Fips180.padMessage, hpad, paddedMessage, List.take_of_length_le (Nat.le_of_eq hlen)]

/-- From 56 bytes on, the standard has one block more. -/
theorem length_messageBlocks {m : Bytes} (h : 56 ≤ m.length % 64) :
    (Fips180.messageBlocks m).length = m.length / 64 + 2 := by
  rw [Fips180.messageBlocks, toBlocks_length, Fips180.padMessage, Fips180.zeroBytes]
  simp only [List.length_append, List.length_cons, List.length_replicate, length_beBytes]
  omega

/-- `transform` is handed the standard's blocks exactly when the message leaves
less than 56 bytes in the buffer, and then the digest is the standard's. -/
theorem digestOf_fips180 {m : Bytes} (hm : m.length < 2 ^ 61) :
    (transformedBlocks m = (Fips180.messageBlocks m).map blockAt ↔ m.length % 64 < 56) ∧
      (m.length % 64 < 56 → digestOf m = Fips180.hexDigest m) := by
  refine ⟨⟨fun h => ?_, fun h => ?_⟩, fun h => ?_⟩
  · -- compare the numbers of blocks
    by_contra hge
    have hlen := congrArg List.length h
    rw [transformedBlocks_eq hm, List.length_map, List.length_map, toBlocks_length,
      length_paddedMessage, length_messageBlocks (Nat.le_of_not_lt hge)] at hlen
    omega
  · rw [transformedBlocks_eq hm, Fips180.messageBlocks, padMessage_eq h]
  · rw [digestOf_eq hm, hexDigest_eq, Fips180.messageBlocks, padMessage_eq h, hexState]

theorem digestOf_fips180_abc :
    transformedBlocks [0x61, 0x62, 0x63] =
        (Fips180.messageBlocks [0x61, 0x62, 0x63]).map blockAt ∧
      digestOf [0x61, 0x62, 0x63] = Fips180.hexDigest [0x61, 0x62, 0x63] := by
  have hlength : ([0x61, 0x62, 0x63] : Bytes).length < 2 ^ 61 := by decide
  obtain ⟨hblocks, hdigest⟩ := digestOf_fips180 hlength
  exact ⟨hblocks.mpr (by decide), hdigest (by decide)⟩

/-- 56 letters `a`: the digest is not the standard's. -/
theorem digestOf_ne_hexDigest :
    digestOf (List.replicate 56 0x61) ≠ Fips180.hexDigest (List.replicate 56 0x61) := by
  rw [hexDigest_eq]
  decide +kernel

end Silence.Crypto.Sha256
