import Silence.Crypto.Dsa
import Silence.Crypto.DsaParameters

/-!
# Silence.Crypto.SentinelKeys

What `DSA::verify` does with the numbers that stand for a missing key.

Neither number is tested for. The key 0 has no powers but 0, so that no signature
is accepted. The remainder of -1 is -1, since it is truncated, and its powers are 1
and -1: the key has no part in the number that `verify` computes, except for its
sign. The signatures that the key -1 accepts are those where `u2` is even and `r`
is the residue of `g ^ u1`, for which no private key is needed.
-/

namespace Silence.Crypto.DSA

open Silence.Lib

section Verify

variable {self : DSA} {h : Int} {sig : DSASignature}

/-- Both parts of the signature pass the range test. -/
def InRange (self : DSA) (sig : DSASignature) : Prop :=
  (0 < sig.r ∧ sig.r < self.q) ∧ 0 < sig.signature ∧ sig.signature < self.q

instance (self : DSA) (sig : DSASignature) : Decidable (self.InRange sig) :=
  inferInstanceAs (Decidable (_ ∧ _))

/-- The variable `u1` of `verify`. -/
def u1 (self : DSA) (h : Int) (sig : DSASignature) : Int :=
  h * (sig.signature ^ (self.q - 2).toNat % self.q) % self.q

/-- The variable `u2` of `verify`. -/
def u2 (self : DSA) (sig : DSASignature) : Int :=
  sig.r * (sig.signature ^ (self.q - 2).toNat % self.q) % self.q

/-- The number that `verify` computes from the generator alone is `r`. -/
def Keyless (self : DSA) (h : Int) (sig : DSASignature) : Prop :=
  self.g ^ (self.u1 h sig).toNat % self.p % self.q = sig.r

instance (self : DSA) (h : Int) (sig : DSASignature) : Decidable (self.Keyless h sig) :=
  inferInstanceAs (Decidable (_ = _))

theorem verify_of_not_inRange (hrange : ¬ self.InRange sig) (y : Int) :
    self.verify h sig y = .ok false := by
  have hout : sig.r ≤ 0 ∨ sig.r ≥ self.q ∨ sig.signature ≤ 0 ∨ sig.signature ≥ self.q := by
    unfold InRange at hrange
    omega
  rw [verify, if_pos hout]

/-- `verify` depends on the key through one of its powers. -/
theorem verify_of_modularPow (hp : 0 < self.p) (hg : 0 ≤ self.g) (hh : 0 ≤ h)
    (hrange : self.InRange sig) {y power : Int}
    (hpower : modularPow y (self.u2 sig) self.p = .ok power) :
    self.verify h sig y =
      .ok (((self.g ^ (self.u1 h sig).toNat % self.p * power).tmod self.p).tmod self.q ==
        sig.r) := by
  obtain ⟨hr, hs⟩ := hrange
  have hq : 0 < self.q := by omega
  have hw : 0 ≤ sig.signature ^ (self.q - 2).toNat % self.q := Int.emod_nonneg _ (by omega)
  have hrange : ¬ (sig.r ≤ 0 ∨ sig.r ≥ self.q ∨ sig.signature ≤ 0 ∨ sig.signature ≥ self.q) := by
    omega
  have hremp : ∀ a, rem a self.p = .ok (a.tmod self.p) := fun a => if_neg (by omega)
  have hremq : ∀ a, rem a self.q = .ok (a.tmod self.q) := fun a => if_neg (by omega)
  unfold u2 at hpower
  simp only [verify, if_neg hrange, modularPow_eq hs.1.le hq, bind, Except.bind,
    rem_eq_emod (Int.mul_nonneg hh hw) hq, rem_eq_emod (Int.mul_nonneg hr.1.le hw) hq,
    modularPow_eq hg hp, hpower, hremp, hremq]
  rfl

theorem u2_nonneg (hrange : self.InRange sig) : 0 ≤ self.u2 sig := by
  obtain ⟨hr, -⟩ := hrange
  exact Int.emod_nonneg _ (by omega)

/-- If the power of the key is 1, only the generator counts. -/
theorem verify_of_power_one (hp : 0 < self.p) (hg : 0 ≤ self.g) (hh : 0 ≤ h)
    (hrange : self.InRange sig) {y : Int}
    (hpower : modularPow y (self.u2 sig) self.p = .ok 1) :
    self.verify h sig y = .ok (decide (self.Keyless h sig)) := by
  have hnonneg : 0 ≤ self.g ^ (self.u1 h sig).toNat % self.p := Int.emod_nonneg _ (by omega)
  rw [verify_of_modularPow hp hg hh hrange hpower, mul_one,
    Int.tmod_eq_emod_of_nonneg hnonneg, Int.emod_emod_of_dvd _ dvd_rfl,
    Int.tmod_eq_emod_of_nonneg hnonneg]
  rfl

/-- If it is 0 or less, the number that is compared with `r` is not positive. -/
theorem verify_of_power_nonpos (hp : 0 < self.p) (hg : 0 ≤ self.g) (hh : 0 ≤ h)
    (hrange : self.InRange sig) {y power : Int} (hnonpos : power ≤ 0)
    (hpower : modularPow y (self.u2 sig) self.p = .ok power) :
    self.verify h sig y = .ok false := by
  have hnonneg : 0 ≤ self.g ^ (self.u1 h sig).toNat % self.p := Int.emod_nonneg _ (by omega)
  have hprod : self.g ^ (self.u1 h sig).toNat % self.p * power ≤ 0 :=
    mul_nonpos_of_nonneg_of_nonpos hnonneg hnonpos
  have htmod : ∀ {a b : Int}, a ≤ 0 → a.tmod b ≤ 0 := by
    intro a b ha
    have hneg := Int.tmod_nonneg b (show 0 ≤ -a by omega)
    rw [Int.neg_tmod] at hneg
    omega
  have hle : ((self.g ^ (self.u1 h sig).toNat % self.p * power).tmod self.p).tmod self.q ≤ 0 :=
    htmod (htmod hprod)
  have hne := ne_of_lt (hle.trans_lt hrange.1.1)
  rw [verify_of_modularPow hp hg hh hrange hpower, beq_false_of_ne hne]

/-! ### The powers of the two numbers -/

theorem modularPow_zero (hp : 1 < self.p) {e : Int} (he : 0 ≤ e) :
    modularPow 0 e self.p = .ok (if e = 0 then 1 else 0) := by
  rw [modularPow_eq le_rfl (by omega)]
  by_cases hzero : e = 0
  · rw [if_pos hzero, hzero]
    exact congrArg _ (Int.emod_eq_of_lt Int.one_nonneg hp)
  · rw [if_neg hzero, zero_pow (by omega), Int.zero_emod]

end Verify

/-- Once the base is 1 the result stays. -/
theorem modularPowLoop_one {modulus result : Int} (hmod : 1 < modulus)
    (hresult : result.tmod modulus = result) (e : Int) :
    modularPowLoop modulus result 1 e = result := by
  have hone : (1 * 1 : Int).tmod modulus = 1 := Int.tmod_eq_of_lt Int.one_nonneg hmod
  have hnext : ∀ e, nextResult modulus result 1 e = result := by
    intro e
    rw [nextResult, mul_one, hresult, ite_self]
  generalize hb : (1 : Int) = b
  fun_induction modularPowLoop modulus result b e with
  | case1 result b e hpos ih =>
      subst hb
      rw [hnext, hone] at ih ⊢
      exact ih hresult hnext rfl
  | case2 => rfl

/-- The powers of -1 are 1 and -1, as the remainder keeps the sign. -/
theorem modularPow_neg_one {modulus : Int} (hmod : 2 < modulus) {e : Int} (he : 0 ≤ e) :
    modularPow (-1) e modulus = .ok (if e % 2 = 0 then 1 else -1) := by
  have hbase : (-1 : Int).tmod modulus = -1 := by
    rw [Int.neg_tmod, Int.tmod_eq_of_lt Int.one_nonneg (by omega)]
  have hrem : rem (-1) modulus = .ok (-1) := by rw [rem, if_neg (by omega), hbase]
  have hsquare : (-1 * -1 : Int).tmod modulus = 1 := Int.tmod_eq_of_lt Int.one_nonneg (by omega)
  have hpow : modularPow (-1) e modulus = .ok (modularPowLoop modulus 1 (-1) e) := by
    rw [modularPow, if_neg (by omega), hrem]
    rfl
  rw [hpow, modularPowLoop, hsquare, nextResult, Int.tmod_eq_emod_of_nonneg he, one_mul, hbase]
  by_cases heven : e % 2 = 0
  · have hodd : ¬ e % 2 = 1 := by omega
    rw [if_neg hodd, if_pos heven, modularPowLoop_one (by omega)
      (Int.tmod_eq_of_lt Int.one_nonneg (by omega)), ite_self]
  · have hpos : 0 < e := by omega
    have hodd : e % 2 = 1 := by omega
    rw [if_pos hpos, if_pos hodd, if_neg heven, modularPowLoop_one (by omega) hbase]

/-! ### Signatures that are accepted for a missing key -/

section Sentinel

variable {self : DSA} {h : Int}

/-- The key 0 accepts only where no power of it is taken. -/
theorem verify_zero (hp : 1 < self.p) (hg : 0 ≤ self.g) (hh : 0 ≤ h) (sig : DSASignature) :
    self.verify h sig 0 =
      .ok (decide (self.InRange sig ∧ self.u2 sig = 0 ∧ self.Keyless h sig)) := by
  by_cases hrange : self.InRange sig
  · have hpower := @modularPow_zero self hp _ (u2_nonneg hrange)
    by_cases hzero : self.u2 sig = 0
    · rw [if_pos hzero] at hpower
      rw [verify_of_power_one (by omega) hg hh hrange hpower]
      simp [hrange, hzero]
    · rw [if_neg hzero] at hpower
      rw [verify_of_power_nonpos (by omega) hg hh hrange le_rfl hpower]
      simp [hzero]
  · rw [verify_of_not_inRange hrange]
    simp [hrange]

/-- The key -1 accepts where its power is 1. -/
theorem verify_neg_one (hp : 2 < self.p) (hg : 0 ≤ self.g) (hh : 0 ≤ h) (sig : DSASignature) :
    self.verify h sig (-1) =
      .ok (decide (self.InRange sig ∧ self.u2 sig % 2 = 0 ∧ self.Keyless h sig)) := by
  by_cases hrange : self.InRange sig
  · have hpower := modularPow_neg_one hp (u2_nonneg hrange)
    by_cases heven : self.u2 sig % 2 = 0
    · rw [if_pos heven] at hpower
      rw [verify_of_power_one (by omega) hg hh hrange hpower]
      simp [hrange, heven]
    · rw [if_neg heven] at hpower
      rw [verify_of_power_nonpos (by omega) hg hh hrange (by decide) hpower]
      simp [heven]
  · rw [verify_of_not_inRange hrange]
    simp [hrange]

/-- Modulo a prime the product `u2` of two numbers in range is not 0. -/
theorem u2_ne_zero (hprime : self.q.toNat.Prime) {sig : DSASignature}
    (hrange : self.InRange sig) : self.u2 sig ≠ 0 := by
  obtain ⟨hr, hs⟩ := hrange
  have : Fact self.q.toNat.Prime := ⟨hprime⟩
  have hq : (self.q.toNat : Int) = self.q := Int.toNat_of_nonneg (by omega)
  have hr0 : ((sig.r : Int) : ZMod self.q.toNat) ≠ 0 := cast_ne_zero_of_lt hr.1 (by omega)
  have hs0 : ((sig.signature : Int) : ZMod self.q.toNat) ≠ 0 :=
    cast_ne_zero_of_lt hs.1 (by omega)
  intro hzero
  have hmod : ∀ a : Int, ((a % self.q : Int) : ZMod self.q.toNat) = a := by
    intro a
    have h := ZMod.intCast_mod a self.q.toNat
    rwa [hq] at h
  have hcast : ((self.u2 sig : Int) : ZMod self.q.toNat) =
      sig.r * sig.signature ^ (self.q - 2).toNat := by
    unfold u2
    rw [hmod, Int.cast_mul, hmod, Int.cast_pow]
  rw [hzero, Int.cast_zero] at hcast
  exact mul_ne_zero hr0 (pow_ne_zero _ hs0) hcast.symm

end Sentinel

/-- For accepted parameters: with a prime `q` the key 0 accepts no signature, and without that
condition only those with `u2 = 0`. The key -1 accepts exactly the signatures in range for which
`u2` is even and `r` is the number that is computed from the generator alone. -/
theorem verify_missingKey {isPrime : Int → Bool} {p q g : Int}
    (haccepted : validateDsaParameters isPrime p q g = .ok true) (keys : KeyPair) {h : Int}
    (hh : 0 ≤ h) (sig : DSASignature) :
    let self : DSA := ⟨p, q, g, keys⟩
    (q.toNat.Prime → self.verify h sig 0 = .ok false) ∧
      self.verify h sig 0 =
        .ok (decide (self.InRange sig ∧ self.u2 sig = 0 ∧ self.Keyless h sig)) ∧
      self.verify h sig (-1) =
        .ok (decide (self.InRange sig ∧ self.u2 sig % 2 = 0 ∧ self.Keyless h sig)) := by
  intro self
  obtain ⟨hg, hlt, -⟩ := spec_of_validateDsaParameters haccepted
  have hg0 : 0 ≤ self.g := by show 0 ≤ g; omega
  have hp : 2 < self.p := by show 2 < p; omega
  have hzero := @verify_zero self h (by omega) hg0 hh sig
  refine ⟨?_, hzero, verify_neg_one hp hg0 hh sig⟩
  intro hprime
  rw [hzero, decide_eq_false]
  intro haccepts
  exact @u2_ne_zero self hprime sig haccepts.1 haccepts.2.1

/-- The parameters 23, 11 and 2, and the signature (1, 6) of the hash 0. -/
theorem verify_missingKey_small_prime :
    let self : DSA := ⟨23, 11, 2, ⟨5, 9⟩⟩
    ((11 : Int).toNat.Prime → self.verify 0 ⟨1, 6⟩ 0 = .ok false) ∧
      self.verify 0 ⟨1, 6⟩ 0 = .ok (decide (self.InRange ⟨1, 6⟩ ∧ self.u2 ⟨1, 6⟩ = 0 ∧
        self.Keyless 0 ⟨1, 6⟩)) ∧
      self.verify 0 ⟨1, 6⟩ (-1) = .ok (decide (self.InRange ⟨1, 6⟩ ∧ self.u2 ⟨1, 6⟩ % 2 = 0 ∧
        self.Keyless 0 ⟨1, 6⟩)) := by
  have haccepted : validateDsaParameters (fun n => decide n.toNat.Prime) 23 11 2 = .ok true := by
    rw [validateDsaParameters_eq (by decide)]
    decide
  exact verify_missingKey haccepted ⟨5, 9⟩ (by decide) ⟨1, 6⟩

/-- With the accepted parameters 23, 11 and 2 the signature (1, 6) of the hash 0 is accepted for
the key -1. -/
theorem verify_missingKey_forged :
    validateDsaParameters (fun n => decide n.toNat.Prime) 23 11 2 = .ok true ∧
      (⟨23, 11, 2, ⟨5, 9⟩⟩ : DSA).verify 0 ⟨1, 6⟩ (-1) = .ok true := by
  constructor
  · rw [validateDsaParameters_eq (by decide)]
    decide
  · rw [verify_neg_one (by decide) (by decide) (by decide)]
    decide

end Silence.Crypto.DSA
