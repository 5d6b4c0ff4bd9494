import Silence.Crypto.Generators

/-!
# Silence.Crypto.DsaParameters

What `validate_dsa_parameters` of `crypto/src/crypto_utils.cpp` accepts.

It tests a range and one power of the generator. Modulo a prime a number other
than 1 whose power with the prime exponent `q` is 1 has the order `q`, so the test
is exact.
-/

namespace Silence.Crypto

open Silence.Lib

/-- The conditions that are tested. -/
def PassesDsaTests (isPrime : Int → Bool) (p q g : Int) : Prop :=
  (isPrime p = true ∧ isPrime q = true) ∧ q ∣ p - 1 ∧ (2 ≤ g ∧ g ≤ p - 1) ∧ g ^ q.toNat % p = 1

instance (isPrime : Int → Bool) (p q g : Int) : Decidable (PassesDsaTests isPrime p q g) :=
  inferInstanceAs (Decidable (_ ∧ _ ∧ _ ∧ _))

/-- Unless 0 passes for a prime, validation returns and does not throw: the remainder modulo `q` is
taken after `q` is tested, and the power modulo `p` after the range. -/
theorem validateDsaParameters_eq {isPrime : Int → Bool} (hzero : isPrime 0 = false) (p q g : Int) :
    validateDsaParameters isPrime p q g = .ok (decide (PassesDsaTests isPrime p q g)) := by
  unfold validateDsaParameters
  by_cases hprimes : isPrime p = true ∧ isPrime q = true
  · have hq : q ≠ 0 := by
      intro h
      rw [h, hzero] at hprimes
      exact absurd hprimes.2 Bool.false_ne_true
    have hrem : rem (p - 1) q = .ok ((p - 1).tmod q) := if_neg hq
    have hdvd : (p - 1).tmod q = 0 ↔ q ∣ p - 1 := Int.dvd_iff_tmod_eq_zero.symm
    have hfails : ∀ h : ¬ PassesDsaTests isPrime p q g,
        (Except.ok false : Except CryptoError Bool) = .ok (decide (PassesDsaTests isPrime p q g)) :=
      fun h => by rw [decide_eq_false h]
    rw [hprimes.1, hprimes.2, hrem]
    -- the tests that are left, one after the other
    show (if (p - 1).tmod q ≠ 0 then Except.ok false
      else if g < 2 ∨ g ≥ p then Except.ok false
      else modularPow g q p >>= fun e => if e ≠ 1 then Except.ok false else Except.ok true) = _
    by_cases hdiv : q ∣ p - 1
    · rw [if_neg (not_not_intro (hdvd.mpr hdiv))]
      by_cases hrange : 2 ≤ g ∧ g ≤ p - 1
      · have hpow := @modularPow_eq g q p (by omega) (by omega)
        rw [if_neg (by omega), hpow]
        show (if g ^ q.toNat % p ≠ 1 then Except.ok false else Except.ok true) = _
        by_cases hone : g ^ q.toNat % p = 1
        · rw [if_neg (not_not_intro hone), decide_eq_true ⟨hprimes, hdiv, hrange, hone⟩]
        · rw [if_pos hone]
          exact hfails fun h => hone h.2.2.2
      · rw [if_pos (by omega)]
        exact hfails fun h => hrange h.2.2.1
    · rw [if_pos (hdvd.not.mpr hdiv)]
      exact hfails fun h => hdiv h.2.1
  · have htests : (!isPrime p || !isPrime q) = true := by
      rw [← Bool.not_and, Bool.not_eq_true', Bool.and_eq_false_iff]
      by_contra h
      simp at h
      exact hprimes h
    rw [if_pos htests, decide_eq_false (fun h : PassesDsaTests isPrime p q g => hprimes h.1)]

/-- A number that is not 1 has the prime order `q` if its power `q` is 1. -/
theorem pow_emod_eq_one_iff_orderOf {p q : Nat} [Fact p.Prime] [hq : Fact q.Prime] {g : Int}
    (hg : 2 ≤ g) (hlt : g < p) : g ^ q % p = 1 ↔ orderOf (g : ZMod p) = q := by
  rw [pow_emod_eq_one_iff]
  constructor
  · intro hpow
    have hne : (g : ZMod p) ≠ 1 := by
      intro h
      have hdiff : ((g - 1 : Int) : ZMod p) = 0 := by
        push_cast
        rw [h, sub_self]
      exact cast_ne_zero_of_lt (by omega) (by omega) hdiff
    exact orderOf_eq_prime hpow hne
  · intro horder
    rw [← horder, pow_orderOf_eq_one]

/-- Validation returns on every input and never divides by zero, and it accepts exactly the primes
`p` and `q` with `q` dividing `p - 1` and the numbers `g` of `[2, p - 1]` whose multiplicative order
modulo `p` is `q`. -/
theorem validateDsaParameters_orderOf {isPrime : Int → Bool}
    (hprime : ∀ n, isPrime n = true ↔ n.toNat.Prime) (p q g : Int) :
    validateDsaParameters isPrime p q g ≠ .error .divisionByZero ∧
      ∃ accepted, validateDsaParameters isPrime p q g = .ok accepted ∧
        (accepted = true ↔ (p.toNat.Prime ∧ q.toNat.Prime) ∧ q ∣ p - 1 ∧ (2 ≤ g ∧ g ≤ p - 1) ∧
          orderOf (g : ZMod p.toNat) = q.toNat) := by
  have hzero : isPrime 0 = false := by
    rw [Bool.eq_false_iff, ne_eq, hprime]
    decide
  rw [validateDsaParameters_eq hzero]
  refine ⟨by simp, _, rfl, ?_⟩
  rw [decide_eq_true_iff, PassesDsaTests, hprime, hprime]
  refine and_congr_right fun hprimes => and_congr_right fun _ => and_congr_right fun hrange => ?_
  have : Fact p.toNat.Prime := ⟨hprimes.1⟩
  have : Fact q.toNat.Prime := ⟨hprimes.2⟩
  have hp : (p.toNat : Int) = p := Int.toNat_of_nonneg (by omega)
  rw [← pow_emod_eq_one_iff_orderOf hrange.1 (by omega), hp]

/-- The parameters 23, 11 and 2. -/
theorem validateDsaParameters_orderOf_small_prime :
    let isPrime := fun n : Int => decide n.toNat.Prime
    validateDsaParameters isPrime 23 11 2 ≠ .error .divisionByZero ∧
      ∃ accepted, validateDsaParameters isPrime 23 11 2 = .ok accepted ∧
        (accepted = true ↔ ((23 : Int).toNat.Prime ∧ (11 : Int).toNat.Prime) ∧
          (11 : Int) ∣ 23 - 1 ∧ ((2 : Int) ≤ 2 ∧ (2 : Int) ≤ 23 - 1) ∧
          orderOf ((2 : Int) : ZMod (23 : Int).toNat) = (11 : Int).toNat) :=
  validateDsaParameters_orderOf (fun _ => decide_eq_true_iff) 23 11 2

end Silence.Crypto
