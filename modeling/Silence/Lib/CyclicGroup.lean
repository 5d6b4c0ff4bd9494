import Mathlib.Data.Nat.Factors
import Mathlib.GroupTheory.SpecificGroups.Cyclic.Basic

/-!
# Silence.Lib.CyclicGroup

A test for the generators of a cyclic group of even order.

An element of a group of order `2 * q` is tested by two of its powers: neither its
square nor its power `q` may be 1. Generators pass. An element that passes has an
order of odd index, so the test is exact if and only if the group has no subgroup of
odd index but the trivial ones: if `q` is prime or the order is a power of two.
-/

namespace Silence.Lib

variable {G : Type*} [Group G]

/-- Neither the square nor the power `q` is 1. -/
def PassesTest (q : Nat) (x : G) : Prop := x ^ 2 ≠ 1 ∧ x ^ q ≠ 1

theorem passesTest_iff {q : Nat} {x : G} :
    PassesTest q x ↔ ¬ orderOf x ∣ 2 ∧ ¬ orderOf x ∣ q := by
  rw [PassesTest, ne_eq, ne_eq, orderOf_dvd_iff_pow_eq_one, orderOf_dvd_iff_pow_eq_one]

theorem passesTest_of_generator {q : Nat} (hq : 1 < q) {x : G} (hx : orderOf x = 2 * q) :
    PassesTest q x := by
  rw [passesTest_iff, hx]
  constructor
  · intro h
    have := Nat.le_of_dvd (by omega) h
    omega
  · intro h
    have := Nat.le_of_dvd (by omega) h
    omega

/-- A divisor of `2 * q` that does not divide `q` has an odd index. -/
theorem odd_index {d c q : Nat} (h : d * c = 2 * q) (hd : ¬ d ∣ q) : Odd c := by
  by_contra hodd
  obtain ⟨m, rfl⟩ := even_iff_two_dvd.mp (Nat.not_odd_iff_even.mp hodd)
  rw [Nat.mul_left_comm] at h
  exact hd ⟨m, (Nat.eq_of_mul_eq_mul_left (by omega) h).symm⟩

/-- An odd index in a group whose order is twice a prime or a power of two is trivial. -/
theorem generator_of_passesTest [Finite G] {q : Nat} (hcard : Nat.card G = 2 * q)
    (hq : q.Prime ∨ ∃ k, 2 * q = 2 ^ k) {x : G} (hx : PassesTest q x) : orderOf x = 2 * q := by
  obtain ⟨hx2, hxq⟩ := passesTest_iff.mp hx
  obtain ⟨c, hc⟩ : orderOf x ∣ 2 * q := hcard ▸ orderOf_dvd_natCard x
  have hodd := odd_index hc.symm hxq
  have hone : c = 1 := by
    rcases hq with hprime | ⟨k, hk⟩
    · have hdvd : c ∣ q :=
        (Nat.Coprime.dvd_of_dvd_mul_left hodd.coprime_two_right ⟨orderOf x, by rw [hc, mul_comm]⟩)
      rcases (Nat.dvd_prime hprime).mp hdvd with h1 | rfl
      · exact h1
      · have htwo : orderOf x = 2 := Nat.eq_of_mul_eq_mul_right hprime.pos hc.symm
        exact absurd (Dvd.intro_left 1 (by rw [one_mul, htwo])) hx2
    · have hdvd : c ∣ 2 ^ k := ⟨orderOf x, by rw [← hk, hc, mul_comm]⟩
      exact (Nat.Coprime.pow_right k hodd.coprime_two_right).eq_one_of_dvd hdvd
  rw [hc, hone, mul_one]

/-- Otherwise an odd prime divides the order, and the elements of this index pass. -/
theorem exists_passesTest_of_not [Finite G] [IsCyclic G] {q : Nat} (hq : 1 < q)
    (hcard : Nat.card G = 2 * q) (hprime : ¬ q.Prime) (hpow : ¬ ∃ k, 2 * q = 2 ^ k) :
    ∃ x : G, PassesTest q x ∧ orderOf x ≠ 2 * q := by
  obtain ⟨c, hc, hdvd, hodd⟩ : ∃ c, c.Prime ∧ c ∣ 2 * q ∧ Odd c :=
    ((2 * q).eq_two_pow_or_exists_odd_prime_and_dvd).resolve_left hpow
  obtain ⟨y, hy⟩ := IsCyclic.exists_generator (α := G)
  have horder : orderOf y = 2 * q := (orderOf_eq_card_of_forall_mem_zpowers hy).trans hcard
  obtain ⟨d, hd⟩ := hdvd
  have hpos : 0 < d := Nat.pos_of_ne_zero (by rintro rfl; omega)
  -- the witness is the power of a generator with index `c`
  have hx : orderOf (y ^ c) = d := by
    rw [orderOf_pow_of_dvd hc.ne_zero (horder ▸ ⟨d, hd⟩), horder, hd,
      Nat.mul_div_cancel_left _ hc.pos]
  have hc3 : 3 ≤ c := by
    rcases hc.two_le.lt_or_eq with h | rfl
    · exact h
    · exact absurd hodd (by decide)
  obtain ⟨e, rfl⟩ : 2 ∣ d := by
    have htwo : 2 ∣ c * d := ⟨q, hd.symm⟩
    exact hodd.coprime_two_left.dvd_of_dvd_mul_left htwo
  -- `c` divides `q`, because it is odd
  have hqe : q = c * e := by
    rw [Nat.mul_left_comm] at hd
    exact Nat.eq_of_mul_eq_mul_left (by omega) hd
  refine ⟨y ^ c, passesTest_iff.mpr ⟨?_, ?_⟩, ?_⟩
  · rw [hx]
    intro h
    have hle := Nat.le_of_dvd (by omega) h
    have he : e = 1 := by omega
    rw [hqe, he, mul_one] at hprime
    exact hprime hc
  · rw [hx]
    rintro ⟨m, hm⟩
    rw [hqe] at hm
    have hcm : c = 2 * m :=
      Nat.eq_of_mul_eq_mul_right (show 0 < e by omega) (by rw [hm, Nat.mul_right_comm])
    exact absurd hodd (by rw [hcm]; simp)
  · rw [hx]
    intro h
    have : c * (2 * e) = 1 * (2 * e) := by rw [← hd, h, one_mul]
    have := Nat.eq_of_mul_eq_mul_right hpos this
    omega

/-- When the test is exact. -/
theorem passesTest_iff_generator_iff [Finite G] [IsCyclic G] {q : Nat} (hq : 1 < q)
    (hcard : Nat.card G = 2 * q) :
    (∀ x : G, PassesTest q x ↔ orderOf x = 2 * q) ↔ q.Prime ∨ ∃ k, 2 * q = 2 ^ k := by
  constructor
  · intro h
    by_contra hnot
    obtain ⟨x, hx, hne⟩ := exists_passesTest_of_not (G := G) hq hcard
      (fun hp => hnot (.inl hp)) fun hp => hnot (.inr hp)
    exact hne ((h x).mp hx)
  · exact fun h x => ⟨generator_of_passesTest hcard h, passesTest_of_generator hq⟩

end Silence.Lib
