import Mathlib.Algebra.Order.Ring.Int
import Mathlib.Data.Int.ModEq
import Mathlib.FieldTheory.Finite.Basic

/-!
# Silence.Lib.StrongProbablePrime

Strong probable primes, the notion that the test of Miller and Rabin decides.

Let `n - 1 = 2 ^ r * d` with `d` odd. Modulo a prime `n` the power of a number with
the exponent `n - 1` is 1, and the only square roots of 1 are 1 and -1. So among
the powers with the exponents `2 ^ j * d` either the first is 1 or one of them,
with `j < r`, is -1 (`strongTest_of_pow_eq_one`).
-/

namespace Silence.Lib

section Ring

variable {R : Type*} [Ring R]

/-- The strong test of `a` for the exponent `2 ^ r * d`. -/
def StrongTest (r d : Nat) (a : R) : Prop := a ^ d = 1 ∨ ∃ j < r, a ^ (2 ^ j * d) = -1

/-- Where 1 has no square roots but 1 and -1, the test passes if the last power is 1. The induction
takes square roots, from the last power down to the first. -/
theorem strongTest_of_pow_eq_one [NoZeroDivisors R] {r d : Nat} {a : R}
    (h : a ^ (2 ^ r * d) = 1) : StrongTest r d a := by
  induction r with
  | zero =>
      rw [pow_zero, one_mul] at h
      exact .inl h
  | succ r ih =>
      have hsq : a ^ (2 ^ r * d) * a ^ (2 ^ r * d) = 1 := by
        rw [← pow_add, ← two_mul, ← mul_assoc, ← pow_succ', h]
      rcases mul_self_eq_one_iff.mp hsq with hone | hneg
      · rcases ih hone with hfirst | ⟨j, hj, hneg⟩
        · exact .inl hfirst
        · exact .inr ⟨j, Nat.lt_succ_of_lt hj, hneg⟩
      · exact .inr ⟨r, Nat.lt_succ_self r, hneg⟩

end Ring

/-- A number has only one power of two with an odd cofactor. -/
theorem two_pow_mul_odd_unique {r s d e : Nat} (h : 2 ^ r * d = 2 ^ s * e) (hd : Odd d)
    (he : Odd e) : r = s ∧ d = e := by
  have hle : ∀ {r s d e : Nat}, 2 ^ r * d = 2 ^ s * e → Odd e → r ≤ s := by
    intro r s d e h he
    have hdvd : 2 ^ r ∣ 2 ^ s :=
      (Nat.Coprime.pow_left r he.coprime_two_left).dvd_of_dvd_mul_right ⟨d, h.symm⟩
    exact (Nat.pow_dvd_pow_iff_le_right (by decide)).mp hdvd
  obtain rfl : r = s := Nat.le_antisymm (hle h he) (hle h.symm hd)
  exact ⟨rfl, Nat.eq_of_mul_eq_mul_left (by positivity) h⟩

/-- `n` is a strong probable prime to the base `a`. -/
def StrongProbablePrime (n a : Int) : Prop :=
  ∃ r d : Nat, n - 1 = 2 ^ r * d ∧ Odd d ∧
    (a ^ d ≡ 1 [ZMOD n] ∨ ∃ j < r, a ^ (2 ^ j * d) ≡ -1 [ZMOD n])

/-- It does not matter how `r` and `d` are found. -/
theorem strongProbablePrime_iff {n a : Int} {r d : Nat} (hn : n - 1 = 2 ^ r * d) (hd : Odd d) :
    StrongProbablePrime n a ↔
      a ^ d ≡ 1 [ZMOD n] ∨ ∃ j < r, a ^ (2 ^ j * d) ≡ -1 [ZMOD n] := by
  constructor
  · intro h
    obtain ⟨s, e, hse, he, htest⟩ := h
    have heq : 2 ^ r * d = 2 ^ s * e := by
      rw [hn] at hse
      exact_mod_cast hse
    obtain ⟨rfl, rfl⟩ := two_pow_mul_odd_unique heq hd he
    exact htest
  · intro htest
    exact ⟨r, d, hn, hd, htest⟩

/-- A prime is a strong probable prime to every base that it does not divide. -/
theorem strongProbablePrime_of_prime {p : Nat} [hp : Fact p.Prime] {a : Int}
    (ha : (a : ZMod p) ≠ 0) : StrongProbablePrime p a := by
  have hpos : p - 1 ≠ 0 := Nat.sub_ne_zero_of_lt hp.out.one_lt
  obtain ⟨r, d, hd, hrd⟩ := Nat.exists_eq_two_pow_mul_odd hpos
  have hlast : (a : ZMod p) ^ (2 ^ r * d) = 1 := by
    rw [← hrd, ZMod.pow_card_sub_one_eq_one ha]
  have hn : (p : Int) - 1 = 2 ^ r * d := by
    rw [← Nat.cast_one, ← Nat.cast_sub hp.out.one_le, hrd]
    push_cast
    rfl
  rw [strongProbablePrime_iff hn hd]
  have hcast : ∀ (e : Nat) (b : Int), a ^ e ≡ b [ZMOD p] ↔ (a : ZMod p) ^ e = b := by
    intro e b
    rw [← ZMod.intCast_eq_intCast_iff, Int.cast_pow]
  simp only [hcast, Int.cast_one, Int.cast_neg]
  exact strongTest_of_pow_eq_one hlast

end Silence.Lib
