import Silence.Basic

/-!
# Silence.Spec.Pkcs7

The padding of PKCS #7 for blocks of `b` bytes.
Nothing here is taken from the repository.

A message is followed by `k` bytes of value `k`, where `k` is the number of bytes
that are missing up to the next multiple of `b`, from 1 to `b`.
-/

namespace Silence.Spec.Pkcs7

def pad (b : Nat) (s : Bytes) : Bytes :=
  s ++ List.replicate (b - s.length % b) (UInt8.ofNat (b - s.length % b))

/-- `v` consists of `s` and of as many bytes `k` as `k` says. The block size has no part in it. -/
structure Padded (v s : Bytes) (k : UInt8) : Prop where
  pos : 0 < k.toNat
  eq : v = s ++ List.replicate k.toNat k

theorem Padded.getLast? {v s : Bytes} {k : UInt8} (h : Padded v s k) : v.getLast? = some k := by
  have hpos : k.toNat ≠ 0 := Nat.pos_iff_ne_zero.mp h.pos
  rw [h.eq, List.getLast?_append, List.getLast?_replicate, if_neg hpos]
  rfl

/-- The last byte tells what the padding is. -/
theorem Padded.unique {v s s' : Bytes} {k k' : UInt8} (h : Padded v s k) (h' : Padded v s' k') :
    s = s' ∧ k = k' := by
  obtain rfl : k = k' := by
    have hlast := h.getLast?
    rw [h'.getLast?] at hlast
    exact (Option.some.inj hlast).symm
  have heq := h.eq
  rw [h'.eq] at heq
  exact ⟨(List.append_cancel_right heq).symm, rfl⟩

theorem Padded.length {v s : Bytes} {k : UInt8} (h : Padded v s k) :
    v.length = s.length + k.toNat := by
  rw [h.eq, List.length_append, List.length_replicate]

/-- The block size enters by a bound for the padding and by the whole length. -/
theorem eq_pad_iff {b : Nat} (hpos : 0 < b) (hle : b ≤ 255) {v s : Bytes} :
    v = pad b s ↔ ∃ k, Padded v s k ∧ k.toNat ≤ b ∧ b ∣ v.length := by
  have hlt : s.length % b < b := Nat.mod_lt _ hpos
  have hdiv := Nat.div_add_mod s.length b
  constructor
  · intro h
    have hbyte : (UInt8.ofNat (b - s.length % b)).toNat = b - s.length % b :=
      UInt8.toNat_ofNat_of_lt' (show b - s.length % b < 256 by omega)
    have hpadded : Padded v s (UInt8.ofNat (b - s.length % b)) :=
      ⟨by omega, by rw [hbyte]; exact h⟩
    refine ⟨_, hpadded, by omega, ?_⟩
    rw [hpadded.length, hbyte]
    exact ⟨s.length / b + 1, by rw [Nat.mul_succ]; omega⟩
  · intro h
    obtain ⟨k, hpadded, hk, hdvd⟩ := h
    have hk0 := hpadded.pos
    rw [hpadded.length] at hdvd
    -- the only number from 1 to `b` that completes the last block
    have hnum : k.toNat = b - s.length % b := by
      obtain ⟨q, hq⟩ := hdvd
      have hmod : (s.length % b + k.toNat) % b = 0 := by
        rw [Nat.mod_add_mod, hq, Nat.mul_mod_right]
      rcases Nat.lt_or_ge (s.length % b + k.toNat) b with hsmall | hbig
      · rw [Nat.mod_eq_of_lt hsmall] at hmod
        omega
      · rw [Nat.mod_eq_sub_mod hbig, Nat.mod_eq_of_lt (by omega)] at hmod
        omega
    rw [pad, ← hnum, UInt8.ofNat_toNat]
    exact hpadded.eq

end Silence.Spec.Pkcs7
