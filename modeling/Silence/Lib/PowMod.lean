import Mathlib.Data.List.Prime
import Mathlib.NumberTheory.LucasPrimality

/-!
# Silence.Lib.PowMod

Powers modulo a number that can be evaluated, and primality proved by them.

`powMod` squares and multiplies on the bits of the exponent, so the kernel
evaluates it for exponents of thousands of bits. `prime_of_lucas` is Lucas's test
on it: a number is prime if some base has the order `p - 1`, which is checked with
the prime factors of `p - 1`.
-/

namespace Silence.Lib

/-- Squaring the base halves the exponent. -/
theorem pow_eq_sq_pow_half {M : Type*} [Monoid M] (b : M) (n : Nat) :
    b ^ n = (if n % 2 = 1 then b else 1) * (b * b) ^ (n / 2) := by
  conv_lhs => rw [← Nat.mod_add_div n 2, pow_add, pow_mul, pow_two]
  rcases Nat.mod_two_eq_zero_or_one n with h | h <;> simp [h]

/-- The loop over the low `fuel` bits of the exponent. -/
def powModLoop (m : Nat) : Nat → Nat → Nat → Nat → Nat
  | 0, acc, _, _ => acc
  | fuel + 1, acc, b, e =>
      powModLoop m fuel (if e % 2 = 1 then acc * b % m else acc) (b * b % m) (e / 2)

/-- `b ^ e % m`. -/
def powMod (b e m : Nat) : Nat := powModLoop m (e.log2 + 1) (1 % m) (b % m) e

/-- The loop keeps the residue of `acc * b ^ e`. -/
theorem powModLoop_eq (m : Nat) {fuel acc b e : Nat} (he : e < 2 ^ fuel) (hacc : acc % m = acc) :
    powModLoop m fuel acc b e = acc * b ^ e % m := by
  induction fuel generalizing acc b e with
  | zero =>
      obtain rfl : e = 0 := by simpa using he
      rw [powModLoop, pow_zero, mul_one, hacc]
  | succ fuel ih =>
      have hhalf : e / 2 < 2 ^ fuel := by
        rw [pow_succ] at he
        omega
      have hpow : (b * b % m) ^ (e / 2) ≡ (b * b) ^ (e / 2) [MOD m] :=
        (Nat.mod_modEq (b * b) m).pow _
      rw [powModLoop, pow_eq_sq_pow_half b e, ih hhalf]
      · split
        · rw [← mul_assoc]
          exact (Nat.mod_modEq (acc * b) m).mul hpow
        · rw [one_mul]
          exact hpow.mul_left acc
      · split
        · exact Nat.mod_mod _ _
        · exact hacc

theorem powMod_eq (b e m : Nat) : powMod b e m = b ^ e % m := by
  have hpow : (b % m) ^ e ≡ b ^ e [MOD m] := (Nat.mod_modEq b m).pow e
  rw [powMod, powModLoop_eq m Nat.lt_log2_self (Nat.mod_mod 1 m)]
  have hone := ((Nat.mod_modEq 1 m).mul hpow)
  rwa [one_mul] at hone

/-- A power is 1 in the ring of residues exactly if it is 1 as a number. -/
theorem cast_pow_eq_one_iff {b e m : Nat} (hm : 1 < m) :
    (b : ZMod m) ^ e = 1 ↔ powMod b e m = 1 := by
  rw [powMod_eq, ← Nat.cast_pow, ← Nat.cast_one, ZMod.natCast_eq_natCast_iff',
    Nat.mod_eq_of_lt hm]

/-- Lucas's test: `a` has the order `p - 1`, the product of the given factors. -/
def LucasTest (p a : Nat) (factors : List Nat) : Prop :=
  p - 1 = factors.prod ∧ powMod a (p - 1) p = 1 ∧
    ∀ q ∈ factors, powMod a ((p - 1) / q) p ≠ 1

instance (p a : Nat) (factors : List Nat) : Decidable (LucasTest p a factors) :=
  inferInstanceAs (Decidable (_ ∧ _ ∧ _))

theorem prime_of_lucas {p a : Nat} {factors : List Nat} (htest : LucasTest p a factors)
    (hp : 1 < p) (hfactors : ∀ q ∈ factors, q.Prime) : p.Prime := by
  obtain ⟨hprod, hone, hne⟩ := htest
  refine lucas_primality p (a : ZMod p) ((cast_pow_eq_one_iff hp).mpr hone) fun q hq hdvd => ?_
  have hmem : q ∈ factors := by
    rw [hprod] at hdvd
    exact mem_list_primes_of_dvd_prod hq.prime (fun r hr => (hfactors r hr).prime) hdvd
  exact fun h => hne q hmem ((cast_pow_eq_one_iff hp).mp h)

end Silence.Lib
