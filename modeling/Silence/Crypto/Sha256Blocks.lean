import Silence.Crypto.Sha256
import Silence.Lib.Blocks

/-!
# Silence.Crypto.Sha256Blocks

Which blocks `update` and `digest` hand to `transform`.

The byte loop of `update` is summarised by one invariant for every type of
states: the complete blocks of everything pushed so far have been folded into
the state, and the rest is in the buffer (`foldl_pushByte`). A fresh object that
is given a message and padded has therefore folded the blocks of `paddedMessage`:
the message and the bytes that `pad` appends, cut after the first block that the
padding completes.
-/

namespace Silence.Crypto.Sha256

open Silence.Lib

/-! ### The buffer -/

section Buffering

variable {σ : Type} (transform : σ → Block → σ)

/-- The state after some blocks. -/
def absorb (state : σ) (blocks : List Bytes) : σ :=
  blocks.foldl (fun state block => transform state (blockAt block)) state

theorem absorb_append (state : σ) (bs cs : List Bytes) :
    absorb transform state (bs ++ cs) = absorb transform (absorb transform state bs) cs :=
  List.foldl_append

/-- The loop of `update` on a buffer that holds less than a block. The induction
is on the bytes still to come. -/
theorem foldl_pushByte (data : Bytes) (s : Object σ) (hs : s.buffer.length < 64) :
    data.foldl (Object.pushByte transform) s =
      { state := absorb transform s.state (toBlocks 64 (s.buffer ++ data))
        buffer := restOf 64 (s.buffer ++ data)
        totalLength := s.totalLength } := by
  induction data generalizing s with
  | nil => simp [toBlocks_of_lt hs, restOf_of_lt hs, absorb]
  | cons b data ih =>
      rw [List.foldl_cons, List.append_cons]
      by_cases hfull : (s.buffer ++ [b]).length = 64
      · -- the byte completes a block, and the buffer starts again empty
        rw [Object.pushByte, if_pos hfull, ih _ (by simp), toBlocks_append (by decide) hfull,
          restOf_append (by decide) hfull]
        rfl
      · have hlt : (s.buffer ++ [b]).length < 64 := by
          rw [List.length_append, List.length_singleton] at hfull ⊢
          omega
        rw [Object.pushByte, if_neg hfull, ih _ hlt]

theorem update_eq (s : Object σ) (hs : s.buffer.length < 64) (data : Bytes) :
    s.update transform data =
      { state := absorb transform s.state (toBlocks 64 (s.buffer ++ data))
        buffer := restOf 64 (s.buffer ++ data)
        totalLength := s.totalLength + UInt64.ofNat data.length * 8 } :=
  foldl_pushByte transform data _ hs

end Buffering

/-! ### The padding -/

/-- One iteration of the last loop of `pad` appends byte `i` of the length. -/
theorem toUInt8_shiftRight_and (n i : UInt64) (hi : i.toNat < 8) :
    ((n >>> (i * 8)) &&& 0xFF).toUInt8 = UInt8.ofNat (n.toNat / 256 ^ i.toNat % 256) := by
  have hshift : i.toNat * 8 % 18446744073709551616 % 64 = 8 * i.toNat := by omega
  have hpow : 2 ^ (8 * i.toNat) = 256 ^ i.toNat := by rw [Nat.pow_mul]
  have hmask := Nat.and_two_pow_sub_one_eq_mod (n.toNat / 256 ^ i.toNat % 256) 8
  apply UInt8.toNat_inj.mp
  simpa [hshift, Nat.shiftRight_eq_div_pow, hpow] using hmask

/-- `lengthBytes` is the big-endian numeral of eight bytes. -/
theorem lengthBytes_eq (n : UInt64) : lengthBytes n = beBytes 8 n.toNat := by
  simp only [lengthBytes, List.map_cons, List.map_nil]
  rw [toUInt8_shiftRight_and n 7 (by decide), toUInt8_shiftRight_and n 6 (by decide),
    toUInt8_shiftRight_and n 5 (by decide), toUInt8_shiftRight_and n 4 (by decide),
    toUInt8_shiftRight_and n 3 (by decide), toUInt8_shiftRight_and n 2 (by decide),
    toUInt8_shiftRight_and n 1 (by decide), toUInt8_shiftRight_and n 0 (by decide)]
  rfl

/-- The bytes that `pad` appends after a message of `n` bytes. -/
def padding (n : Nat) : Bytes :=
  0x80 :: (List.replicate (55 - n % 64) 0 ++ beBytes 8 (8 * n))

theorem length_padding (n : Nat) : (padding n).length = 55 - n % 64 + 9 := by
  simp [padding]

/-- The bit count of a message that was pushed into a fresh object. -/
theorem toNat_bitLength {n : Nat} (hn : n < 2 ^ 61) :
    ((0 : UInt64) + UInt64.ofNat n * 8).toNat = 8 * n := by
  simp
  omega

/-- The buffer that `pad` hands over after a message. -/
theorem padBuffer_restOf {m : Bytes} (hm : m.length < 2 ^ 61) :
    padBuffer (restOf 64 m) (0 + UInt64.ofNat m.length * 8) = restOf 64 m ++ padding m.length := by
  have hzeros : 56 - (m.length % 64 + 1) = 55 - m.length % 64 := by omega
  rw [padBuffer, lengthBytes_eq, toNat_bitLength hm]
  simp [padding, hzeros]

/-- The message and the padding, as far as `transform` is handed them: one block
more than the message has complete ones. -/
def paddedMessage (m : Bytes) : Bytes :=
  (m ++ padding m.length).take (64 * (m.length / 64 + 1))

theorem length_paddedMessage (m : Bytes) :
    (paddedMessage m).length = 64 * (m.length / 64 + 1) := by
  rw [paddedMessage, List.length_take, List.length_append, length_padding]
  omega

/-- The message is kept whole, the padding is cut where a block is complete. -/
theorem paddedMessage_eq (m : Bytes) :
    paddedMessage m = m ++ (padding m.length).take (64 - m.length % 64) := by
  have hcut : 64 * (m.length / 64 + 1) - m.length = 64 - m.length % 64 := by omega
  rw [paddedMessage, List.take_append, hcut, List.take_of_length_le (by omega)]

/-- The blocks of the padded message are those of the message and the first 64
bytes of the padded buffer. -/
theorem toBlocks_paddedMessage (m : Bytes) :
    toBlocks 64 (paddedMessage m) =
      toBlocks 64 m ++ [(restOf 64 m ++ padding m.length).take 64] := by
  have hlast : (restOf 64 m ++ padding m.length).take 64 =
      restOf 64 m ++ (padding m.length).take (64 - m.length % 64) := by
    rw [List.take_append, length_restOf,
      List.take_of_length_le (by rw [length_restOf]; exact (Nat.mod_lt _ (by decide)).le)]
  have hlen : ((restOf 64 m ++ padding m.length).take 64).length = 64 := by
    rw [List.length_take, List.length_append, length_restOf, length_padding]
    omega
  have hblock := toBlocks_append (by decide) hlen []
  rw [List.append_nil, toBlocks_nil] at hblock
  rw [paddedMessage_eq, toBlocks_append_restOf (by decide), ← hlast, hblock]

/-- `transform` reads the first 64 bytes only. -/
theorem blockAt_take (buffer : Bytes) : blockAt (buffer.take 64) = blockAt buffer := by
  ext i hi : 1
  simp [blockAt]

section Digest

variable {σ : Type} (transform : σ → Block → σ)

/-- The state of a fresh object after one `update` and `pad`. -/
theorem state_pad_update {m : Bytes} (hm : m.length < 2 ^ 61) (state : σ) :
    (((Object.new state).update transform m).pad transform).state =
      absorb transform state (toBlocks 64 (paddedMessage m)) := by
  have hblock : blockAt (restOf 64 m ++ padding m.length) =
      blockAt ((restOf 64 m ++ padding m.length).take 64) := (blockAt_take _).symm
  rw [update_eq transform _ (by simp [Object.new]), toBlocks_paddedMessage, absorb_append]
  simp only [Object.pad, Object.new, List.nil_append, padBuffer_restOf hm, hblock]
  rfl

end Digest

/-- The recording instance keeps the blocks in order. -/
theorem absorb_record (seen : List Block) (bs : List Bytes) :
    absorb record seen bs = seen ++ bs.map blockAt := by
  induction bs generalizing seen with
  | nil => simp [absorb]
  | cons b bs ih =>
      rw [absorb, List.foldl_cons, ← absorb, ih, record, List.map_cons, List.append_assoc]
      rfl

/-- The blocks that `transform` is handed are the blocks of the padded message. -/
theorem transformedBlocks_eq {m : Bytes} (hm : m.length < 2 ^ 61) :
    transformedBlocks m = (toBlocks 64 (paddedMessage m)).map blockAt := by
  rw [transformedBlocks, state_pad_update record hm, absorb_record, List.nil_append]

/-- `digest` prints the state that the padded message leads to. -/
theorem digestOf_eq {m : Bytes} (hm : m.length < 2 ^ 61) :
    digestOf m =
      (absorb transform initialState (toBlocks 64 (paddedMessage m))).toList.flatMap
        fun w => fixedHex 8 w.toNat := by
  have hword : ∀ w : UInt32, setw 8 0x30 (toHex w.toNat) = fixedHex 8 w.toNat :=
    fun w => setw_toHex (by decide) w.toNat_lt
  rw [digestOf, Object.digest]
  simp only [state_pad_update transform hm, hword]

end Silence.Crypto.Sha256
