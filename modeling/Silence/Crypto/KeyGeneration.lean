import Silence.Crypto.DsaParameters
import Silence.Crypto.RandomNumbers

/-!
# Silence.Crypto.KeyGeneration

For which accepted parameters a private key can be drawn.

The constructors of `ElGamalEncryption` and `DSA` draw their private keys with
`generate_random(2, p - 2)` and `generate_random(1, q - 1)`. The loop of
`generate_random` draws numbers below the size of the range until one is at least
the lower bound. In the smallest accepted ranges there is no such number, and the
constructor never returns.
-/

namespace Silence.Crypto

/-- Some outputs of the generator make the loop of `generate_random` end. -/
def CanReturn (min max : Int) : Prop :=
  ∃ outputs v, generateRandom min max outputs = .ok (some v)

/-- The largest value that is returned is `max`, where the call can return. -/
theorem canReturn_iff {min max : Int} (hmin : 0 < min) (hle : min ≤ max) :
    CanReturn min max ↔ 2 * min ≤ max ∧ min < 2 ^ 512 := by
  unfold CanReturn
  rw [exists_comm]
  simp only [exists_generateRandom_iff hmin.le hle, if_neg hmin.ne']
  constructor
  · intro h
    obtain ⟨v, h2, hmax, hbits⟩ := h
    omega
  · intro h
    exact ⟨2 * min, by omega⟩

/-- No parameters are accepted for the primes 2 and 3. -/
theorem three_lt_of_accepted {isPrime : Int → Bool} {p g : Int}
    (h : validateElGamalParameters isPrime p g = .ok true) : 3 < p := by
  have hrange := range_of_validateElGamalParameters h
  by_contra hle
  obtain ⟨rfl, rfl⟩ : p = 3 ∧ g = 2 := by omega
  -- the factors of `p - 1 = 2` are 2 and 1, and the power for 1 is the square
  have htwo : checkFactor 3 2 2 = .ok () := by
    have hquot : quot (3 - 1) 2 = .ok 1 := rfl
    rw [checkFactor_eq (by decide) (by decide) hquot]
    rfl
  have hone : checkFactor 3 2 1 =
      .error (.invalidArgument "g is not a primitive root modulo p") := by
    have hquot : quot (3 - 1) 1 = .ok 2 := rfl
    rw [checkFactor_eq (by decide) (by decide) hquot]
    rfl
  have hforM : [2, ((3 : Int) - 1).tdiv 2].forM (checkFactor 3 2) =
      .error (.invalidArgument "g is not a primitive root modulo p") := by
    simp [List.forM, htwo, hone, bind, Except.bind]
  unfold validateElGamalParameters at h
  rw [hforM] at h
  split at h
  · cases h
  · cases h

/-- The private key of accepted ElGamal parameters can be drawn for every prime but 5, and that of
accepted DSA parameters for every prime divisor but 2. -/
theorem privateKey_drawn_iff (isPrime : Int → Bool) :
    (∀ p g, validateElGamalParameters isPrime p g = .ok true → p.toNat.Prime →
      (CanReturn 2 (p - 2) ↔ p ≠ 5)) ∧
    (∀ p q g, validateDsaParameters isPrime p q g = .ok true → p.toNat.Prime → q.toNat.Prime →
      (CanReturn 1 (q - 1) ↔ q ≠ 2)) := by
  constructor
  · intro p g haccepted hprime
    have hp := three_lt_of_accepted haccepted
    have hfour : p ≠ 4 := by
      intro h
      rw [h] at hprime
      exact absurd hprime (by decide)
    rw [canReturn_iff (by decide) (by omega)]
    omega
  · intro p q g _ _ hprime
    have hq := hprime.two_le
    rw [canReturn_iff (by decide) (by omega)]
    omega

/-- The parameters 23 and 5, and the parameters 23, 11 and 2. -/
theorem privateKey_drawn_iff_small_prime : CanReturn 2 (23 - 2) ∧ CanReturn 1 (11 - 1) := by
  have hrange : (2 : Int) ≤ 5 ∧ (5 : Int) < 23 ∧ Accepts 23 5 := by decide
  refine ⟨((privateKey_drawn_iff fun n => decide n.toNat.Prime).1 23 5 ?_ (by decide)).mpr
    (by decide), ((privateKey_drawn_iff fun n => decide n.toNat.Prime).2 23 11 2 ?_ (by decide)
      (by decide)).mpr (by decide)⟩
  · exact (validateElGamalParameters_iff (by decide) (by decide) (by decide) 5).mpr hrange
  · rw [validateDsaParameters_eq (by decide)]
    decide

/-- For the accepted parameters 5 and 2, and for the accepted parameters 5, 2 and 4, no outputs of
the generator make the loop end. -/
theorem privateKey_not_drawn :
    let isPrime := fun n : Int => decide n.toNat.Prime
    (validateElGamalParameters isPrime 5 2 = .ok true ∧ ¬ CanReturn 2 (5 - 2)) ∧
      (validateDsaParameters isPrime 5 2 4 = .ok true ∧ ¬ CanReturn 1 (2 - 1)) ∧
      (5 : Nat).Prime ∧ (2 : Nat).Prime := by
  refine ⟨⟨?_, ?_⟩, ⟨?_, ?_⟩, by decide, by decide⟩
  · exact (validateElGamalParameters_iff (by decide) (by decide) (by decide) 2).mpr (by decide)
  · rw [canReturn_iff (by decide) (by decide)]
    decide
  · rw [validateDsaParameters_eq (by decide)]
    decide
  · rw [canReturn_iff (by decide) (by decide)]
    decide

end Silence.Crypto
