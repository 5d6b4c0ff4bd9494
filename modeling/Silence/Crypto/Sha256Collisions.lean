import Silence.Crypto.Sha256Blocks

/-!
# Silence.Crypto.Sha256Collisions

Which two messages `SHA256` turns into the same blocks.

With room for the whole length the padding would be injective. `pad` cuts it
after the block, so the last bytes of the length can be lost, and a longer
message can spell out the marker, the zeros and the length of a shorter one
(`Collide`). Two messages have the same blocks only in this way.
-/

namespace Silence.Crypto.Sha256

open Silence.Lib

/-! ### Colliding messages -/

/-- The lengths of two messages for which the cut paddings can coincide. The
longer message leaves at least 56 bytes in the buffer, so its marker stands where
the shorter one has a byte of its length; this byte is `0x80`, and the bytes of
the shorter length after it are the leading bytes of the longer length. -/
def LengthsCollide (n n' : Nat) : Prop :=
  n < n' ∧ n / 64 = n' / 64 ∧ 56 ≤ n' % 64 ∧
    8 * n / 256 ^ (n % 64 - 55) % 256 ^ (64 - n' % 64) =
      0x80 * 256 ^ (63 - n' % 64) + 8 * n' / 256 ^ (n' % 64 - 55)

instance (n n' : Nat) : Decidable (LengthsCollide n n') := inferInstanceAs (Decidable (_ ∧ _))

/-- The longer message is the shorter one followed by the first bytes of its
padding, and the lengths collide. -/
def Collide (m m' : Bytes) : Prop :=
  LengthsCollide m.length m'.length ∧
    m' = m ++ (0x80 :: (List.replicate (55 - m.length % 64) 0 ++
      beBytes 8 (8 * m.length))).take (m'.length - m.length)

instance (m m' : Bytes) : Decidable (Collide m m') := inferInstanceAs (Decidable (_ ∧ _))

/-! ### Comparing two paddings -/

/-- The leading bytes of the length that fit behind the marker. -/
theorem lengthTop_lt {n : Nat} (hn : n < 2 ^ 61) (h : 56 ≤ n % 64) :
    8 * n / 256 ^ (n % 64 - 55) < 256 ^ (63 - n % 64) := by
  have hsum : 63 - n % 64 + (n % 64 - 55) = 8 := by omega
  rw [Nat.div_lt_iff_lt_mul (Nat.pow_pos (by decide)), ← Nat.pow_add, hsum]
  omega

/-- The part of a longer message's padding that is cut to the block. -/
theorem take_padding {n : Nat} (hn : n < 2 ^ 61) (h : 56 ≤ n % 64) :
    (padding n).take (64 - n % 64) =
      beBytes (64 - n % 64) (0x80 * 256 ^ (63 - n % 64) + 8 * n / 256 ^ (n % 64 - 55)) := by
  have hcut : 64 - n % 64 = 63 - n % 64 + 1 := by omega
  have hnozeros : 55 - n % 64 = 0 := by omega
  have hshift : 8 - (63 - n % 64) = n % 64 - 55 := by omega
  rw [hcut, padding, hnozeros, List.replicate_zero, List.nil_append, List.take_succ_cons,
    take_beBytes _ (by omega), hshift]
  exact cons_beBytes 0x80 (lengthTop_lt hn h)

/-- What follows the first bytes of a shorter message's padding, once these
reach past its zeros. -/
theorem drop_padding {n d : Nat} (hd : 0 < d) (hlt : n % 64 + d < 64) (h : 56 ≤ n % 64 + d) :
    ((padding n).take (64 - n % 64)).drop d =
      beBytes (64 - (n % 64 + d)) (8 * n / 256 ^ (n % 64 - 55)) := by
  obtain ⟨e, rfl⟩ : ∃ e, d = e + 1 := ⟨d - 1, by omega⟩
  have hzeros : (List.replicate (55 - n % 64) (0 : UInt8)).length ≤ e := by
    rw [List.length_replicate]
    omega
  have hexp : 8 - (e - (55 - n % 64)) - (64 - n % 64 - (e + 1)) = n % 64 - 55 := by omega
  rw [List.drop_take, padding, List.drop_succ_cons, List.drop_append,
    List.drop_of_length_le hzeros, List.nil_append, List.length_replicate, drop_beBytes,
    take_beBytes _ (by omega), hexp, Nat.sub_sub]

/-- Among its zeros a padding has no marker. -/
theorem getElem?_padding_ne {n d : Nat} (hd : 0 < d) (hlt : n % 64 + d < 56) :
    (padding n)[d]? = some 0 := by
  obtain ⟨e, rfl⟩ : ∃ e, d = e + 1 := ⟨d - 1, by omega⟩
  rw [padding, List.getElem?_cons_succ, List.getElem?_append_left (by simp; omega),
    List.getElem?_replicate, if_pos (by omega)]

/-- The cut padding of the shorter message ends like that of the longer one
exactly when the lengths collide. -/
theorem drop_padding_eq_iff {n n' : Nat} (hn' : n' < 2 ^ 61) (hlt : n < n')
    (hdiv : n / 64 = n' / 64) :
    ((padding n).take (64 - n % 64)).drop (n' - n) = (padding n').take (64 - n' % 64) ↔
      LengthsCollide n n' := by
  have hmod : n % 64 + (n' - n) = n' % 64 := by omega
  have hroom : n' % 64 < 64 := Nat.mod_lt _ (by decide)
  by_cases h56 : 56 ≤ n' % 64
  · rw [drop_padding (by omega) (by omega) (by omega), hmod, take_padding hn' h56, beBytes_inj]
    have hmark : 0x80 * 256 ^ (63 - n' % 64) + 8 * n' / 256 ^ (n' % 64 - 55) <
        256 ^ (64 - n' % 64) := by
      have htop := lengthTop_lt hn' h56
      have hcut : 64 - n' % 64 = 63 - n' % 64 + 1 := by omega
      rw [hcut, Nat.pow_succ]
      omega
    rw [Nat.mod_eq_of_lt hmark]
    exact ⟨fun h => ⟨hlt, hdiv, h56, h⟩, fun h => h.2.2.2⟩
  · constructor
    · intro h
      have hhead := congrArg (·[0]?) h
      simp only [List.getElem?_drop, List.getElem?_take, Nat.add_zero] at hhead
      rw [if_pos (by omega), if_pos (by omega), getElem?_padding_ne (by omega) (by omega)] at hhead
      simp [padding] at hhead
    · exact fun h => absurd h.2.2.1 h56

/-! ### Comparing two padded messages -/

/-- Two padded messages are equal exactly when the longer message starts like
the shorter one with its padding and the rests of the paddings agree. -/
theorem paddedMessage_eq_iff {m m' : Bytes} (hm' : m'.length < 2 ^ 61)
    (hlt : m.length < m'.length) : paddedMessage m = paddedMessage m' ↔ Collide m m' := by
  by_cases hdiv : m.length / 64 = m'.length / 64
  · have hsplit : paddedMessage m =
        (m ++ (padding m.length).take (m'.length - m.length)) ++
          ((padding m.length).take (64 - m.length % 64)).drop (m'.length - m.length) := by
      have htake : ((padding m.length).take (64 - m.length % 64)).take (m'.length - m.length) =
          (padding m.length).take (m'.length - m.length) := by
        rw [List.take_take, Nat.min_eq_left (by omega)]
      rw [List.append_assoc, ← htake, List.take_append_drop, paddedMessage_eq]
    have hlen : (m ++ (padding m.length).take (m'.length - m.length)).length = m'.length := by
      rw [List.length_append, List.length_take, length_padding]
      omega
    rw [hsplit, paddedMessage_eq m', List.append_eq_append_iff_of_size_eq_left hlen,
      drop_padding_eq_iff hm' hlt hdiv]
    exact ⟨fun h => ⟨h.2, h.1.symm⟩, fun h => ⟨h.2.symm, h.1⟩⟩
  · constructor
    · intro h
      have hlen := congrArg List.length h
      rw [length_paddedMessage, length_paddedMessage] at hlen
      omega
    · exact fun h => absurd h.1.2.1 hdiv

/-- 64 bytes can be read back from the block. -/
theorem toList_blockAt {b : Bytes} (hb : b.length = 64) : (blockAt b).toList = b := by
  refine List.ext_getElem (by simp [hb]) fun i hi hi' => ?_
  simp [blockAt, List.getElem?_eq_getElem hi']

/-- The blocks determine the padded message. -/
theorem transformedBlocks_inj {m m' : Bytes} (hm : m.length < 2 ^ 61) (hm' : m'.length < 2 ^ 61) :
    transformedBlocks m = transformedBlocks m' ↔ paddedMessage m = paddedMessage m' := by
  -- the padded message is read back from the blocks
  have hread : ∀ a : Bytes,
      (((toBlocks 64 (paddedMessage a)).map blockAt).map Vector.toList).flatten =
        paddedMessage a := by
    intro a
    have hid : ((toBlocks 64 (paddedMessage a)).map blockAt).map Vector.toList =
        toBlocks 64 (paddedMessage a) := by
      rw [List.map_map]
      refine (List.map_congr_left fun b hb => ?_).trans (List.map_id _)
      exact toList_blockAt (length_of_mem_toBlocks (by decide) hb)
    rw [hid,
      flatten_toBlocks (by decide) (by rw [length_paddedMessage]; exact Nat.dvd_mul_right _ _)]
  rw [transformedBlocks_eq hm, transformedBlocks_eq hm']
  constructor
  · intro h
    rw [← hread m, ← hread m', h]
  · intro h
    rw [h]

/-- Two different messages are turned into different blocks exactly when neither
collides with the other. -/
theorem transformedBlocks_ne_iff {m m' : Bytes} (hm : m.length < 2 ^ 61)
    (hm' : m'.length < 2 ^ 61) (hne : m ≠ m') :
    transformedBlocks m ≠ transformedBlocks m' ↔ ¬ Collide m m' ∧ ¬ Collide m' m := by
  have hirrefl : ∀ {a b : Bytes}, b.length ≤ a.length → ¬ Collide a b :=
    fun hle h => Nat.not_lt.mpr hle h.1.1
  rw [Ne, transformedBlocks_inj hm hm']
  rcases Nat.lt_trichotomy m.length m'.length with hlt | heq | hlt
  · rw [paddedMessage_eq_iff hm' hlt]
    exact ⟨fun h => ⟨h, hirrefl hlt.le⟩, fun h => h.1⟩
  · refine ⟨fun _ => ⟨hirrefl heq.ge, hirrefl heq.le⟩, fun _ h => hne ?_⟩
    rw [paddedMessage_eq, paddedMessage_eq] at h
    exact (List.append_inj h heq).1
  · rw [eq_comm, paddedMessage_eq_iff hm hlt]
    exact ⟨fun h => ⟨hirrefl hlt.le, h⟩, fun h => h.2⟩

theorem transformedBlocks_ne_iff_nil_zero : transformedBlocks [] ≠ transformedBlocks [0] :=
  (transformedBlocks_ne_iff (by decide) (by decide) (by decide)).mpr (by decide)

/-- 16 zero bytes, and the same bytes followed by the marker and 46 zero bytes:
the last byte of the length 128 of the former is the marker of the latter. -/
theorem transformedBlocks_collision :
    let m : Bytes := List.replicate 16 0
    let m' : Bytes := m ++ 0x80 :: List.replicate 46 0
    m ≠ m' ∧ m.length < 2 ^ 61 ∧ m'.length < 2 ^ 61 ∧
      transformedBlocks m = transformedBlocks m' := by
  decide +kernel

end Silence.Crypto.Sha256
