import Mathlib.FieldTheory.Finite.Basic

/-!
# Silence.Lib.PrimeField

Arithmetic modulo a prime, for algorithms that compute with integer residues.

An algorithm keeps integers and reduces them with `%`; its correctness is an
identity in the field `ZMod p`. The lemmas here carry such identities back to the
integers, and give the two facts on powers that public-key schemes rest on:
inversion by Fermat's little theorem, and exponents modulo the order of a base.
-/

namespace Silence.Lib

variable {p : Nat}

/-- Two integers with the same class have the same canonical residue. -/
theorem emod_eq_of_cast_eq {a b : Int} (h : (a : ZMod p) = b) : a % p = b % p :=
  (ZMod.intCast_eq_intCast_iff' a b p).mp h

/-- An integer strictly between 0 and `p` is a unit. -/
theorem cast_ne_zero_of_lt {a : Int} (hpos : 0 < a) (hlt : a < p) : (a : ZMod p) ≠ 0 := by
  intro h
  have hdvd : (p : Int) ∣ a := (ZMod.intCast_zmod_eq_zero_iff_dvd a p).mp h
  exact absurd (Int.le_of_dvd hpos hdvd) (Int.not_le.mpr hlt)

/-- Fermat inversion: the power `p - 2` is the inverse. -/
theorem mul_pow_sub_two [hp : Fact p.Prime] {a : ZMod p} (ha : a ≠ 0) : a * a ^ (p - 2) = 1 := by
  have hexp : p - 2 + 1 = p - 1 := by have := hp.out.two_le; omega
  rw [← pow_succ', hexp, ZMod.pow_card_sub_one_eq_one ha]

/-- Exponents of a base with `a ^ n = 1` count modulo `n`. -/
theorem pow_congr_of_modEq {M : Type*} [Monoid M] {a : M} {n i j : Nat} (ha : a ^ n = 1)
    (h : i ≡ j [MOD n]) : a ^ i = a ^ j := by
  have hmod : ∀ i, a ^ (i % n) = a ^ i := by
    intro i
    conv_rhs => rw [← Nat.div_add_mod i n, pow_add, pow_mul, ha, one_pow, one_mul]
  rw [← hmod i, h, hmod j]

end Silence.Lib
