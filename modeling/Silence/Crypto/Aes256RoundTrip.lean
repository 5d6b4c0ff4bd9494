import Silence.Crypto.Gf256
import Mathlib.Data.Fintype.EquivFin
import Mathlib.Data.Fintype.Pi

/-!
# Silence.Crypto.Aes256RoundTrip

Decryption undoes encryption, and encryption decryption.

Each round transformation is inverted by its counterpart: the tables invert each
other entry by entry, `invShiftRows` permutes back, adding a round key twice is
the identity, and the two column maps are inverse because the product of their
circulant matrices over GF(2)[X] / (`modulus`) is the identity (the four
equations of `mixCoefficients`). The two round loops then cancel from the inside
out (`decryptRounds_encryptRounds`), whatever the key schedule holds. The other order
of the two block functions follows, since there are finitely many blocks.
-/

namespace Silence.Crypto.Aes256

open Silence.Lib

/-! ### Substitution -/

theorem lookup_invSbox_sbox : ∀ b, lookup invSbox (lookup sbox b) = b :=
  forall_uint8 (by decide +kernel)

@[simp] theorem invSubBytes_subBytes (state : State) : invSubBytes (subBytes state) = state := by
  simp [invSubBytes, subBytes, Function.comp_def, lookup_invSbox_sbox]

/-! ### Row shifts -/

@[simp] theorem invShiftRows_shiftRows (state : State) :
    invShiftRows (shiftRows state) = state := by
  refine Vector.ext fun i hi => ?_
  interval_cases i <;> rfl

/-! ### Column mixing -/

/-- The product of the circulant matrices of `mixColumn` and `invMixColumn` is
the identity: its first row, from which the others follow by rotation. -/
theorem mixCoefficients :
    res 0x0e * res 0x02 + res 0x0b + res 0x0d + res 0x09 * res 0x03 = 1 ∧
    res 0x0e * res 0x03 + res 0x0b * res 0x02 + res 0x0d + res 0x09 = 0 ∧
    res 0x0e + res 0x0b * res 0x03 + res 0x0d * res 0x02 + res 0x09 = 0 ∧
    res 0x0e + res 0x0b + res 0x0d * res 0x03 + res 0x09 * res 0x02 = 0 := by
  simp only [← res_gmul, ← res_xor, ← res_one, ← res_zero]
  refine ⟨?_, ?_, ?_, ?_⟩ <;> exact congrArg res (by decide)

theorem invMixColumn_mixColumn (s0 s1 s2 s3 : UInt8) :
    onColumn invMixColumn (mixColumn s0 s1 s2 s3) = #v[s0, s1, s2, s3] := by
  obtain ⟨h0, h1, h2, h3⟩ := mixCoefficients
  refine Vector.ext fun i hi => res_injective ?_
  interval_cases i
  all_goals
    simp only [onColumn, mixColumn, invMixColumn, Vector.getElem_mk, List.getElem_toArray,
      List.getElem_cons_zero, List.getElem_cons_succ, res_xor, res_gmul]
  · linear_combination res s0 * h0 + res s1 * h1 + res s2 * h2 + res s3 * h3
  · linear_combination res s0 * h3 + res s1 * h0 + res s2 * h1 + res s3 * h2
  · linear_combination res s0 * h2 + res s1 * h3 + res s2 * h0 + res s3 * h1
  · linear_combination res s0 * h1 + res s1 * h2 + res s2 * h3 + res s3 * h0

/-- Byte `k` of column `c` after the column loop. -/
theorem getElem_mapColumns (f : UInt8 → UInt8 → UInt8 → UInt8 → Vector UInt8 4) (state : State)
    (c k : Nat) (hc : c < 4) (hk : k < 4) :
    (mapColumns f state)[4 * c + k] =
      (f state[4 * c] state[4 * c + 1] state[4 * c + 2] state[4 * c + 3])[k] := by
  have hdiv : (4 * c + k) / 4 = c := by omega
  have hmod : (4 * c + k) % 4 = k := by omega
  simp only [mapColumns, Vector.getElem_ofFn, hdiv, hmod]
  rfl

/-- Column maps that are inverse on every column are inverse on the state. -/
theorem mapColumns_mapColumns {f g : UInt8 → UInt8 → UInt8 → UInt8 → Vector UInt8 4}
    (hgf : ∀ s0 s1 s2 s3, onColumn g (f s0 s1 s2 s3) = #v[s0, s1, s2, s3]) (state : State) :
    mapColumns g (mapColumns f state) = state := by
  refine Vector.ext fun i hi => ?_
  obtain ⟨c, k, hc, hk, rfl⟩ : ∃ c k, c < 4 ∧ k < 4 ∧ i = 4 * c + k :=
    ⟨i / 4, i % 4, by omega, by omega, by omega⟩
  have h0 : (mapColumns f state)[4 * c] =
      (f state[4 * c] state[4 * c + 1] state[4 * c + 2] state[4 * c + 3])[0] :=
    getElem_mapColumns f state c 0 hc (by omega)
  rw [getElem_mapColumns g _ c k hc hk, h0, getElem_mapColumns f state c 1 hc (by omega),
    getElem_mapColumns f state c 2 hc (by omega), getElem_mapColumns f state c 3 hc (by omega)]
  have hcol := hgf state[4 * c] state[4 * c + 1] state[4 * c + 2] state[4 * c + 3]
  rw [onColumn] at hcol
  rw [hcol]
  interval_cases k <;> rfl

@[simp] theorem invMixColumns_mixColumns (state : State) :
    invMixColumns (mixColumns state) = state :=
  mapColumns_mapColumns invMixColumn_mixColumn state

/-! ### Round keys -/

@[simp] theorem addRoundKey_addRoundKey (state : State) (w : Schedule) (round : Fin 15) :
    addRoundKey (addRoundKey state w round) w round = state := by
  refine Vector.ext fun i hi => ?_
  simp only [addRoundKey, Vector.getElem_ofFn, UInt8.xor_assoc, UInt8.xor_self, UInt8.xor_zero]

/-! ### The block cipher -/

/-- Decryption starts from a state whose rows are shifted and bytes substituted;
from there its loop peels the encryption rounds off, the last one first. The
induction is on the number of rounds. -/
theorem decryptRounds_encryptRounds (w : Schedule) (n : Nat) (hn : n < 15) (state : State) :
    decryptRounds w n hn (shiftRows (subBytes (encryptRounds w n hn state))) =
      shiftRows (subBytes state) := by
  induction n with
  | zero => rfl
  | succ n ih =>
      have hEnc : encryptRounds w (n + 1) hn state =
          addRoundKey (mixColumns (shiftRows (subBytes (encryptRounds w n (by omega) state)))) w
            ⟨n + 1, by omega⟩ := rfl
      have hDec : ∀ x, decryptRounds w (n + 1) hn x =
          decryptRounds w n (by omega) (invMixColumns (addRoundKey (invSubBytes (invShiftRows x)) w
            ⟨n + 1, by omega⟩)) := fun _ => rfl
      rw [hDec, hEnc, invShiftRows_shiftRows, invSubBytes_subBytes, addRoundKey_addRoundKey,
        invMixColumns_mixColumns, ih]

theorem decrypt_encrypt (key : Key) (block : State) : decrypt key (encrypt key block) = block := by
  unfold decrypt encrypt
  simp only [addRoundKey_addRoundKey, decryptRounds_encryptRounds, invShiftRows_shiftRows,
    invSubBytes_subBytes]

instance : Finite State := by
  refine Finite.of_injective (fun state i => (state.get i).toFin) ?_
  intro s t h
  refine Vector.ext fun i hi => ?_
  exact UInt8.toFin_inj.mp (congrFun h ⟨i, hi⟩)

/-- The block cipher is a bijection: there are only finitely many blocks. -/
theorem encrypt_decrypt (key : Key) (block : State) : encrypt key (decrypt key block) = block := by
  have hinj : Function.Injective (encrypt key) :=
    Function.LeftInverse.injective (decrypt_encrypt key)
  obtain ⟨plain, rfl⟩ := Finite.injective_iff_surjective.mp hinj block
  rw [decrypt_encrypt]

/-- Under every key the two block functions are inverse to each other on both sides. -/
theorem encrypt_decrypt_inverse (key : Key) :
    (∀ block, decrypt key (encrypt key block) = block) ∧
      ∀ block, encrypt key (decrypt key block) = block :=
  ⟨decrypt_encrypt key, encrypt_decrypt key⟩

/-! ### Padding -/

/-- The `if` of `pkcs7_pad` never fires: the difference is not 0. -/
theorem paddingLen_eq (input : Bytes) : paddingLen input = 128 - input.length % 128 := by
  have h : blockSize - input.length % blockSize ≠ 0 := by
    unfold blockSize
    omega
  exact if_neg h

/-- The padding length fits in one byte and is never 0. -/
theorem paddingLen_bounds (input : Bytes) : 0 < paddingLen input ∧ paddingLen input ≤ 128 := by
  rw [paddingLen_eq]
  omega

theorem pkcs7Pad_length (input : Bytes) :
    (pkcs7Pad input).length = input.length + paddingLen input := by
  simp [pkcs7Pad]

/-- A padded message is a whole number of cipher blocks. -/
theorem stateSize_dvd_pkcs7Pad (input : Bytes) : stateSize ∣ (pkcs7Pad input).length := by
  rw [pkcs7Pad_length, paddingLen_eq]
  unfold stateSize Nb
  omega

/-- As many bytes `k` as `k` says are taken off, whatever the message before them ends with. -/
theorem pkcs7Unpad_append_replicate (s : Bytes) {k : UInt8} (hk : 0 < k.toNat) :
    pkcs7Unpad (s ++ List.replicate k.toNat k) = .ok s := by
  have hlast : (s ++ List.replicate k.toNat k).getLast? = some k := by
    simp [List.getLast?_append, List.getLast?_replicate, Nat.pos_iff_ne_zero.mp hk]
  have hne : k ≠ 0 := by
    intro h
    rw [h] at hk
    exact absurd hk (by decide)
  have hlen : ¬ k.toNat > (s ++ List.replicate k.toNat k).length := by
    rw [List.length_append, List.length_replicate]
    omega
  have hcut : (s ++ List.replicate k.toNat k).length - k.toNat = s.length := by
    rw [List.length_append, List.length_replicate, Nat.add_sub_cancel]
  unfold pkcs7Unpad
  rw [hlast]
  simp only [hne, hlen, or_self, if_false, hcut]
  simp

/-- Unpadding undoes padding. -/
theorem pkcs7Unpad_pkcs7Pad (input : Bytes) : pkcs7Unpad (pkcs7Pad input) = .ok input := by
  obtain ⟨hpos, hle⟩ := paddingLen_bounds input
  have hnat : (UInt8.ofNat (paddingLen input)).toNat = paddingLen input :=
    UInt8.toNat_ofNat_of_lt' (lt_of_le_of_lt hle (by decide))
  have hunpad := @pkcs7Unpad_append_replicate input (UInt8.ofNat (paddingLen input)) (by omega)
  rwa [hnat] at hunpad

/-! ### Whole messages -/

theorem blockOf_toList (block : State) : blockOf block.toList = block := by
  refine Vector.ext fun i hi => ?_
  simp [blockOf]

theorem toList_blockOf {bs : Bytes} (h : bs.length = 16) : (blockOf bs).toList = bs := by
  refine List.ext_getElem (by simp [h]) fun i hi hi' => ?_
  simp [blockOf, hi']

/-- Inverse block functions are inverse on every sequence of whole blocks. -/
theorem mapBlocks_mapBlocks {f g : State → State} (hgf : ∀ b, g (f b) = b) {input : Bytes}
    (h : stateSize ∣ input.length) : mapBlocks g (mapBlocks f input) = input := by
  refine flatMap_toBlocks_flatMap (by decide) (fun b _ => ?_) (fun b hb => ?_) h
  · exact Vector.length_toList
  · rw [blockOf_toList, hgf, toList_blockOf hb]

theorem length_mapBlocks (f : State → State) {input : Bytes} (h : stateSize ∣ input.length) :
    (mapBlocks f input).length = input.length := by
  have hlen := length_flatMap_toBlocks (f := fun block => (f (blockOf block)).toList)
    (show 0 < stateSize by decide) (fun _ _ => Vector.length_toList) input
  rw [mapBlocks, hlen, Nat.mul_div_cancel' h]

/-- Decrypting an encrypted message gives the message back. -/
theorem aes256Decrypt_aes256Encrypt (key : Key) (m : Bytes) (hm : m ≠ []) :
    (aes256Encrypt key m >>= aes256Decrypt key) = .ok m := by
  have hdvd := stateSize_dvd_pkcs7Pad m
  have hlen := length_mapBlocks (encrypt key) hdvd
  have hne : (mapBlocks (encrypt key) (pkcs7Pad m)).isEmpty = false := by
    have hpos : 0 < (mapBlocks (encrypt key) (pkcs7Pad m)).length := by
      rw [hlen, pkcs7Pad_length]
      exact Nat.add_pos_right _ (paddingLen_bounds m).1
    simpa [List.isEmpty_iff] using List.ne_nil_of_length_pos hpos
  have henc : aes256Encrypt key m = .ok (mapBlocks (encrypt key) (pkcs7Pad m)) := by
    simp [aes256Encrypt, hm]
  have hmod : (mapBlocks (encrypt key) (pkcs7Pad m)).length % stateSize = 0 := by
    rw [hlen]
    exact Nat.mod_eq_zero_of_dvd hdvd
  rw [henc]
  change aes256Decrypt key (mapBlocks (encrypt key) (pkcs7Pad m)) = .ok m
  simp only [aes256Decrypt, hne, hmod, ne_eq, not_true_eq_false, or_self, Bool.false_eq_true,
    if_false, mapBlocks_mapBlocks (decrypt_encrypt key) hdvd, pkcs7Unpad_pkcs7Pad]

/-- A message that ends like a padding, under the all-zero key. -/
theorem aes256Decrypt_aes256Encrypt_paddingLike :
    (aes256Encrypt (Vector.replicate 32 0) [0x02, 0x02] >>=
      aes256Decrypt (Vector.replicate 32 0)) = .ok [0x02, 0x02] :=
  aes256Decrypt_aes256Encrypt _ _ (by decide)

end Silence.Crypto.Aes256
