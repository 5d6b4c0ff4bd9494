import Silence.Crypto.Aes256RoundTrip
import Silence.Spec.Pkcs7

/-!
# Silence.Crypto.Aes256Padding

The padding of `crypto/src/aes256.cpp`, and which ciphertexts decryption accepts.

`pkcs7_pad` computes with `block_size`, the size of a block in bits, where bytes are
meant: messages are padded to multiples of 128 bytes. `pkcs7_unpad` does not know
any block size and takes off whatever looks like a padding. `aes256_decrypt` tests
that the length is a multiple of `state_size`, which is 16. So decryption accepts
more than the image of encryption.
-/

namespace Silence.Crypto.Aes256

open Silence.Lib
open Silence.Spec

/-! ### The padder and the unpadder -/

/-- The padder is the one of the standard for blocks of 128 bytes. -/
theorem pkcs7Pad_eq_pad (s : Bytes) : pkcs7Pad s = Pkcs7.pad 128 s := by
  unfold pkcs7Pad Pkcs7.pad
  rw [paddingLen_eq]

/-- The unpadder takes off whatever ends like a padding. -/
theorem pkcs7Unpad_eq_ok_iff {v s : Bytes} :
    pkcs7Unpad v = .ok s ↔ ∃ k, Pkcs7.Padded v s k := by
  constructor
  · intro h
    unfold pkcs7Unpad at h
    split at h
    · cases h
    · rename_i k hlast
      split at h
      · cases h
      · rename_i hrange
        split at h
        · cases h
        · rename_i hbytes
          obtain ⟨hne, hle⟩ := not_or.mp hrange
          have hpos : 0 < k.toNat := by
            rw [Nat.pos_iff_ne_zero, ne_eq, ← UInt8.toNat_zero, UInt8.toNat_inj]
            exact hne
          -- the bytes that the loop has compared are all `k`
          have htail : v.drop (v.length - k.toNat) = List.replicate k.toNat k := by
            rw [List.eq_replicate_iff, List.length_drop]
            refine ⟨by omega, ?_⟩
            intro b hb
            by_contra hb'
            exact hbytes (List.any_eq_true.mpr ⟨b, hb, decide_eq_true hb'⟩)
          refine ⟨k, hpos, ?_⟩
          rw [← htail, ← Except.ok.inj h, List.take_append_drop]
  · intro h
    obtain ⟨k, hpos, rfl⟩ := h
    exact pkcs7Unpad_append_replicate s hpos

/-- The padder agrees with the standard for blocks of 16 bytes on the messages whose length is 112
or more modulo 128. The unpadder agrees with it on the vectors that do not end like a padding, and
on those of whole blocks that end with at most 16 bytes of padding. -/
theorem pkcs7_standard_iff (s v : Bytes) :
    (pkcs7Pad s = Pkcs7.pad 16 s ↔ 112 ≤ s.length % 128) ∧
      ((∀ s, pkcs7Unpad v = .ok s ↔ v = Pkcs7.pad 16 s) ↔
        ∀ s k, Pkcs7.Padded v s k → k.toNat ≤ 16 ∧ 16 ∣ v.length) := by
  constructor
  · rw [pkcs7Pad_eq_pad]
    constructor
    · intro h
      have hlen := congrArg List.length h
      simp only [Pkcs7.pad, List.length_append, List.length_replicate] at hlen
      omega
    · intro h
      have hnum : 128 - s.length % 128 = 16 - s.length % 16 := by omega
      rw [Pkcs7.pad, hnum]
      rfl
  · have hstandard := fun s => @Pkcs7.eq_pad_iff 16 (by decide) (by decide) v s
    simp only [pkcs7Unpad_eq_ok_iff, hstandard]
    constructor
    · intro h s k hpadded
      obtain ⟨k', hpadded', hle, hdvd⟩ := (h s).mp ⟨k, hpadded⟩
      rw [(hpadded.unique hpadded').2]
      exact ⟨hle, hdvd⟩
    · intro h s
      constructor
      · intro hex
        obtain ⟨k, hpadded⟩ := hex
        exact ⟨k, hpadded, h s k hpadded⟩
      · intro hex
        obtain ⟨k, hpadded, -⟩ := hex
        exact ⟨k, hpadded⟩

/-- A single byte gets 127 bytes of padding, not 15, and the two bytes `01 01`, which are no padding
of any message, are unpadded. -/
theorem pkcs7_not_standard :
    pkcs7Pad [0x41] ≠ Pkcs7.pad 16 [0x41] ∧ pkcs7Unpad [0x01, 0x01] = .ok [0x01] ∧
      ∀ s, [0x01, 0x01] ≠ Pkcs7.pad 16 s := by
  refine ⟨by decide, by decide, ?_⟩
  intro s h
  obtain ⟨k, -, -, hdvd⟩ := (Pkcs7.eq_pad_iff (by decide) (by decide)).mp h
  exact absurd hdvd (by decide)

/-! ### The accepted ciphertexts -/

/-- The last byte of the last block. -/
def lastByte (f : State → State) (c : Bytes) : UInt8 :=
  (f (blockOf (c.drop (c.length - stateSize)))).toList.getLastD 0

theorem getLast?_mapBlocks (f : State → State) {c : Bytes} (hne : c ≠ [])
    (hdvd : stateSize ∣ c.length) : (mapBlocks f c).getLast? = some (lastByte f c) := by
  have hsize : stateSize = 16 := rfl
  have hpos : 0 < c.length := List.length_pos_iff.mpr hne
  rw [hsize] at hdvd
  have hlast : (c.drop (c.length - 16)).length = 16 := by
    rw [List.length_drop]
    omega
  have hinit : 16 ∣ (c.take (c.length - 16)).length := by
    rw [List.length_take]
    omega
  -- the last block by itself
  have hblocks : toBlocks 16 c =
      toBlocks 16 (c.take (c.length - 16)) ++ [c.drop (c.length - 16)] := by
    have hone := toBlocks_append (n := 16) (by decide) hlast []
    rw [List.append_nil, toBlocks_nil] at hone
    conv_lhs => rw [← List.take_append_drop (c.length - 16) c]
    rw [toBlocks_append_of_dvd (by decide) hinit, hone]
  have hblock : ∀ block : State, block.toList.getLast? = some (block.toList.getLastD 0) := by
    intro block
    have hsome : block.toList ≠ [] := List.ne_nil_of_length_eq_add_one block.length_toList
    rw [List.getLast?_eq_some_getLast hsome, List.getLastD_eq_getLast?,
      List.getLast?_eq_some_getLast hsome, Option.getD_some]
  unfold mapBlocks lastByte
  rw [hsize, hblocks, List.flatMap_append, List.getLast?_append, List.flatMap_singleton, hblock]
  rfl

/-- The condition under which a ciphertext is one that encryption makes: its length is a multiple of
128, and its padding has at most 128 bytes and does not make up the whole text. -/
def Encrypted (key : Key) (c : Bytes) : Prop :=
  128 ∣ c.length ∧ (lastByte (decrypt key) c).toNat ≤ 128 ∧
    (lastByte (decrypt key) c).toNat < c.length

/-- What is known of a ciphertext that is accepted. -/
theorem padded_of_aes256Decrypt {key : Key} {c m : Bytes} (h : aes256Decrypt key c = .ok m) :
    stateSize ∣ c.length ∧
      Pkcs7.Padded (mapBlocks (decrypt key) c) m (lastByte (decrypt key) c) := by
  unfold aes256Decrypt at h
  split at h
  · cases h
  · rename_i haccepted
    obtain ⟨hne, hmod⟩ := not_or.mp haccepted
    have hdvd : stateSize ∣ c.length := Nat.dvd_of_mod_eq_zero (not_not.mp hmod)
    obtain ⟨k, hpadded⟩ := pkcs7Unpad_eq_ok_iff.mp h
    have hlast := getLast?_mapBlocks (decrypt key) (by simpa using hne) hdvd
    rw [hpadded.getLast?] at hlast
    rw [← Option.some.inj hlast]
    exact ⟨hdvd, hpadded⟩

/-- Encrypting the decrypted message gives the ciphertext back if and only if the message was padded
to a multiple of 128 bytes. -/
theorem aes256Encrypt_of_aes256Decrypt {key : Key} {c m : Bytes}
    (h : aes256Decrypt key c = .ok m) :
    (m ≠ [] ∧ aes256Encrypt key m = .ok c) ↔ Encrypted key c := by
  obtain ⟨hdvd, hpadded⟩ := padded_of_aes256Decrypt h
  have hlen := length_mapBlocks (decrypt key) hdvd
  have hmessage : m ≠ [] ↔ (lastByte (decrypt key) c).toNat < c.length := by
    rw [← List.length_pos_iff, ← hlen, hpadded.length]
    omega
  have hpad : pkcs7Pad m = mapBlocks (decrypt key) c ↔
      128 ∣ c.length ∧ (lastByte (decrypt key) c).toNat ≤ 128 := by
    rw [pkcs7Pad_eq_pad, eq_comm, Pkcs7.eq_pad_iff (by decide) (by decide), hlen]
    constructor
    · intro hex
      obtain ⟨k, hpadded', hle, h128⟩ := hex
      rw [(hpadded.unique hpadded').2]
      exact ⟨h128, hle⟩
    · intro hcond
      exact ⟨_, hpadded, hcond.2, hcond.1⟩
  have hciphertext : m ≠ [] →
      (aes256Encrypt key m = .ok c ↔ pkcs7Pad m = mapBlocks (decrypt key) c) := by
    intro hne
    have henc : aes256Encrypt key m = .ok (mapBlocks (encrypt key) (pkcs7Pad m)) := by
      simp [aes256Encrypt, hne]
    rw [henc, Except.ok.injEq]
    constructor
    · intro hc
      rw [← hc, mapBlocks_mapBlocks (decrypt_encrypt key) (stateSize_dvd_pkcs7Pad m)]
    · intro hc
      rw [hc, mapBlocks_mapBlocks (encrypt_decrypt key) hdvd]
  unfold Encrypted
  constructor
  · intro himage
    have hcond := hpad.mp ((hciphertext himage.1).mp himage.2)
    exact ⟨hcond.1, hcond.2, hmessage.mp himage.1⟩
  · intro hcond
    have hne := hmessage.mpr hcond.2.2
    exact ⟨hne, (hciphertext hne).mpr (hpad.mpr ⟨hcond.1, hcond.2.1⟩)⟩

/-- A ciphertext that is accepted is the encryption of the message that it decrypts to if and only
if it meets the condition. No two ciphertexts that meet it decrypt to the same message. -/
theorem aes256Decrypt_accepts_image {key : Key} {c m : Bytes} (h : aes256Decrypt key c = .ok m) :
    ((m ≠ [] ∧ aes256Encrypt key m = .ok c) ↔ Encrypted key c) ∧
      (Encrypted key c → ∀ c', aes256Decrypt key c' = .ok m → Encrypted key c' → c' = c) := by
  refine ⟨aes256Encrypt_of_aes256Decrypt h, ?_⟩
  intro hc c' h' hc'
  have henc := ((aes256Encrypt_of_aes256Decrypt h).mpr hc).2
  have henc' := ((aes256Encrypt_of_aes256Decrypt h').mpr hc').2
  rw [henc] at henc'
  exact (Except.ok.inj henc').symm

/-- The ciphertext of a message with any padding that makes up whole blocks is accepted. -/
theorem aes256Decrypt_mapBlocks (key : Key) {m : Bytes} {k : UInt8} (hk : 0 < k.toNat)
    (hdvd : stateSize ∣ m.length + k.toNat) :
    (mapBlocks (encrypt key) (m ++ List.replicate k.toNat k)).length = m.length + k.toNat ∧
      aes256Decrypt key (mapBlocks (encrypt key) (m ++ List.replicate k.toNat k)) = .ok m := by
  have hpadded : (m ++ List.replicate k.toNat k).length = m.length + k.toNat := by
    rw [List.length_append, List.length_replicate]
  rw [← hpadded] at hdvd
  have hlen := length_mapBlocks (encrypt key) hdvd
  have haccepted : ¬ ((mapBlocks (encrypt key) (m ++ List.replicate k.toNat k)).isEmpty ∨
      (mapBlocks (encrypt key) (m ++ List.replicate k.toNat k)).length % stateSize ≠ 0) := by
    rw [List.isEmpty_iff_length_eq_zero, hlen, not_or, not_not]
    exact ⟨by omega, Nat.mod_eq_zero_of_dvd hdvd⟩
  rw [aes256Decrypt, if_neg haccepted, mapBlocks_mapBlocks (decrypt_encrypt key) hdvd]
  exact ⟨hlen.trans hpadded, pkcs7Unpad_append_replicate m hk⟩

/-- The encryption of a single byte under the all-zero key. -/
theorem aes256Decrypt_accepts_image_byte :
    let key : Key := Vector.replicate 32 0
    let c := mapBlocks (encrypt key) ([0x41] ++ List.replicate (127 : UInt8).toNat 127)
    ((([0x41] : Bytes) ≠ [] ∧ aes256Encrypt key [0x41] = .ok c) ↔ Encrypted key c) ∧
      (Encrypted key c → ∀ c', aes256Decrypt key c' = .ok [0x41] → Encrypted key c' → c' = c) := by
  intro key c
  have hdecrypt : aes256Decrypt key c = .ok [0x41] :=
    (@aes256Decrypt_mapBlocks key [0x41] 127 (by decide) (by decide)).2
  exact aes256Decrypt_accepts_image hdecrypt

/-- Under the all-zero key a ciphertext of 16 bytes and one of 128 bytes are accepted and decrypt to
the same byte, whose encryption is the second one. -/
theorem aes256Decrypt_accepts_more :
    let key : Key := Vector.replicate 32 0
    let c := mapBlocks (encrypt key) ([0x41] ++ List.replicate (15 : UInt8).toNat 15)
    let c' := mapBlocks (encrypt key) ([0x41] ++ List.replicate (127 : UInt8).toNat 127)
    aes256Decrypt key c = .ok [0x41] ∧ aes256Decrypt key c' = .ok [0x41] ∧ c ≠ c' ∧
      aes256Encrypt key [0x41] ≠ .ok c := by
  intro key c c'
  obtain ⟨hlen, hdecrypt⟩ := @aes256Decrypt_mapBlocks key [0x41] 15 (by decide) (by decide)
  obtain ⟨hlen', hdecrypt'⟩ := @aes256Decrypt_mapBlocks key [0x41] 127 (by decide) (by decide)
  refine ⟨hdecrypt, hdecrypt', ?_, ?_⟩
  · intro heq
    have hlengths := congrArg List.length heq
    rw [hlen, hlen'] at hlengths
    exact absurd hlengths (by decide)
  · intro henc
    have hcond := (aes256Encrypt_of_aes256Decrypt hdecrypt).mp ⟨by decide, henc⟩
    rw [Encrypted, hlen] at hcond
    exact absurd hcond.1 (by decide)

end Silence.Crypto.Aes256
