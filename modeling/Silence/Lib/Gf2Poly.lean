import Mathlib.Algebra.Field.ZMod
import Mathlib.Data.Nat.Bitwise
import Mathlib.Data.Nat.Size
import Mathlib.Data.ZMod.Basic
import Mathlib.RingTheory.AdjoinRoot

/-!
# Silence.Lib.Gf2Poly

Polynomials over GF(2) packed into natural numbers: bit `i` of `n` is the
coefficient of `X ^ i`. Addition is XOR (`gf2Poly_xor`), multiplication is the
carry-less product `clmul` (`gf2Poly_clmul`), and `clmod` is schoolbook long
division (`residue_clmod`, `clmod_lt`).

`residue m n` is the class of `n` in `GF(2)[X] / (m)`. Below the degree of `m`
the map is injective (`residue_injOn`), so an identity between packed values can
be proved in that commutative ring, where `ring` and matrix algebra apply, and
read back on the packed values.
-/

namespace Silence.Lib

open Polynomial

/-! ### Packed values as polynomials -/

/-- The polynomial over GF(2) whose coefficients are the bits of `n`. -/
noncomputable def gf2Poly (n : Nat) : (ZMod 2)[X] :=
  ∑ i ∈ Finset.range n.size, if n.testBit i then X ^ i else 0

@[simp] theorem coeff_gf2Poly (n i : Nat) :
    (gf2Poly n).coeff i = if n.testBit i then 1 else 0 := by
  have hterm : ∀ j, (if n.testBit j then (X : (ZMod 2)[X]) ^ j else 0).coeff i =
      if j = i then (if n.testBit i then 1 else 0) else 0 := by
    intro j
    by_cases hj : j = i
    · subst hj
      split <;> simp
    · split <;> simp [coeff_X_pow, Ne.symm hj]
  simp only [gf2Poly, finsetSum_coeff, hterm, Finset.sum_ite_eq', Finset.mem_range]
  by_cases hi : i < n.size
  · rw [if_pos hi]
  · have hbit : n.testBit i = false :=
      Nat.testBit_lt_two_pow (Nat.size_le.mp (Nat.le_of_not_lt hi))
    simp [hi, hbit]

@[simp] theorem gf2Poly_zero : gf2Poly 0 = 0 := by simp [gf2Poly]

/-- Addition of polynomials over GF(2) is XOR. -/
theorem gf2Poly_xor (a b : Nat) : gf2Poly (a ^^^ b) = gf2Poly a + gf2Poly b := by
  ext i
  simp only [coeff_gf2Poly, coeff_add, Nat.testBit_xor]
  cases a.testBit i <;> cases b.testBit i <;> decide

/-- Shifting left by `k` is multiplication by `X ^ k`. -/
theorem gf2Poly_shiftLeft (a k : Nat) : gf2Poly (a <<< k) = X ^ k * gf2Poly a := by
  ext i
  rw [coeff_X_pow_mul', coeff_gf2Poly, Nat.testBit_shiftLeft]
  by_cases h : k ≤ i <;> simp [h]

theorem gf2Poly_two_pow (k : Nat) : gf2Poly (2 ^ k) = X ^ k := by
  ext i
  rw [coeff_gf2Poly, coeff_X_pow, Nat.testBit_two_pow]
  by_cases h : k = i <;> simp [h, eq_comm]

@[simp] theorem gf2Poly_one : gf2Poly 1 = 1 := by
  simpa using gf2Poly_two_pow 0

theorem gf2Poly_injective : Function.Injective gf2Poly := by
  intro a b h
  refine Nat.eq_of_testBit_eq fun i => ?_
  have hi := congrArg (fun p => p.coeff i) h
  simp only [coeff_gf2Poly] at hi
  cases ha : a.testBit i <;> cases hb : b.testBit i <;> simp_all

/-- A value below `2 ^ d` is a polynomial of degree below `d`. -/
theorem degree_gf2Poly_lt {n d : Nat} (h : n < 2 ^ d) : (gf2Poly n).degree < d := by
  rw [degree_lt_iff_coeff_zero]
  intro i hi
  have hlt : n < 2 ^ i := lt_of_lt_of_le h (Nat.pow_le_pow_right (by omega) (by omega))
  simp [Nat.testBit_lt_two_pow hlt]

/-! ### Carry-less multiplication -/

/-- The carry-less product of `a` with the low `k` bits of `b`: the XOR of the
copies of `a` shifted by the positions of the set bits. -/
def clmul (k a b : Nat) : Nat :=
  Nat.fold k (fun i _ acc => if b.testBit i then acc ^^^ (a <<< i) else acc) 0

theorem clmul_succ (k a b : Nat) :
    clmul (k + 1) a b = if b.testBit k then clmul k a b ^^^ (a <<< k) else clmul k a b :=
  Nat.fold_succ ..

theorem gf2Poly_clmul_eq_sum (k a b : Nat) :
    gf2Poly (clmul k a b) =
      gf2Poly a * ∑ i ∈ Finset.range k, if b.testBit i then X ^ i else 0 := by
  induction k with
  | zero => simp [clmul]
  | succ k ih =>
      rw [clmul_succ, Finset.sum_range_succ, mul_add, ← ih]
      by_cases hb : b.testBit k
      · simp only [hb, if_true, gf2Poly_xor, gf2Poly_shiftLeft]
        ring
      · simp [hb]

/-- The carry-less product is the product of the polynomials. -/
theorem gf2Poly_clmul {k a b : Nat} (hb : b < 2 ^ k) :
    gf2Poly (clmul k a b) = gf2Poly a * gf2Poly b := by
  rw [gf2Poly_clmul_eq_sum]
  congr 1
  refine (Finset.sum_subset (Finset.range_subset_range.mpr (Nat.size_le.mpr hb)) ?_).symm
  intro i _ hi
  have hlt : b < 2 ^ i := Nat.size_le.mp (by simpa using hi)
  simp [Nat.testBit_lt_two_pow hlt]

/-- The product of polynomials of degree below `d` and at most `k` has degree
below `d + k`. -/
theorem clmul_lt {k a b d : Nat} (ha : a < 2 ^ d) : clmul (k + 1) a b < 2 ^ (d + k) := by
  induction k with
  | zero =>
      rw [clmul_succ]
      split
      · simpa [clmul] using ha
      · simp [clmul]
  | succ k ih =>
      have hlift : clmul (k + 1) a b < 2 ^ (d + (k + 1)) :=
        lt_trans ih (Nat.pow_lt_pow_right (by omega) (by omega))
      rw [clmul_succ]
      split
      · refine Nat.xor_lt_two_pow hlift ?_
        rw [Nat.shiftLeft_eq, pow_add 2 d (k + 1)]
        exact Nat.mul_lt_mul_of_pos_right ha (Nat.two_pow_pos (k + 1))
      · exact hlift

/-! ### Long division -/

/-- The remainder of `x` modulo `m` (a polynomial of degree `d`) by long
division: cancel the bits `d + k - 1, …, d` from the top down. -/
def clmod (d m : Nat) : Nat → Nat → Nat
  | 0, x => x
  | k + 1, x => clmod d m k (if x.testBit (d + k) then x ^^^ (m <<< k) else x)

/-- Cancelling the top bit of `x` with `m <<< k` leaves a smaller value. -/
theorem cancel_lt {d m k x : Nat} (hm : m < 2 ^ (d + 1)) (hd : m.testBit d = true)
    (hx : x < 2 ^ (d + (k + 1))) :
    (if x.testBit (d + k) then x ^^^ (m <<< k) else x) < 2 ^ (d + k) := by
  have hshift : ∀ i, d + k < i → (m <<< k).testBit i = false := by
    intro i hi
    have hlt : m < 2 ^ (i - k) :=
      lt_of_lt_of_le hm (Nat.pow_le_pow_right (by omega) (by omega))
    simp [Nat.testBit_shiftLeft, Nat.testBit_lt_two_pow hlt]
  have hxi : ∀ i, d + k < i → x.testBit i = false := fun i hi =>
    Nat.testBit_lt_two_pow (lt_of_lt_of_le hx (Nat.pow_le_pow_right (by omega) (by omega)))
  refine Nat.lt_pow_two_of_testBit _ fun i hi => ?_
  rcases Nat.lt_or_eq_of_le hi with hlt | rfl
  · split <;> simp [hxi i hlt, hshift i hlt]
  · split
    · next htop => simp [htop, Nat.testBit_shiftLeft, hd]
    · next htop => simpa using htop

theorem clmod_lt {d m : Nat} (hm : m < 2 ^ (d + 1)) (hd : m.testBit d = true) :
    ∀ {k x : Nat}, x < 2 ^ (d + k) → clmod d m k x < 2 ^ d
  | 0, _, hx => hx
  | k + 1, x, hx => by
      rw [clmod]
      exact clmod_lt hm hd (cancel_lt hm hd hx)

/-! ### Residues -/

/-- The class of the packed value `n` in `GF(2)[X] / (m)`. -/
noncomputable def residue (m n : Nat) : AdjoinRoot (gf2Poly m) :=
  AdjoinRoot.mk (gf2Poly m) (gf2Poly n)

@[simp] theorem residue_zero (m : Nat) : residue m 0 = 0 := by simp [residue]

@[simp] theorem residue_one (m : Nat) : residue m 1 = 1 := by simp [residue]

@[simp] theorem residue_self (m : Nat) : residue m m = 0 := by simp [residue]

theorem residue_xor (m a b : Nat) : residue m (a ^^^ b) = residue m a + residue m b := by
  simp [residue, gf2Poly_xor]

theorem residue_shiftLeft (m a k : Nat) :
    residue m (a <<< k) = residue m 2 ^ k * residue m a := by
  have h2 : gf2Poly 2 = X := by simpa using gf2Poly_two_pow 1
  simp [residue, gf2Poly_shiftLeft, h2]

theorem residue_clmul {k m a b : Nat} (hb : b < 2 ^ k) :
    residue m (clmul k a b) = residue m a * residue m b := by
  simp [residue, gf2Poly_clmul hb]

/-- Long division does not change the class. -/
theorem residue_clmod (d m : Nat) : ∀ k x, residue m (clmod d m k x) = residue m x
  | 0, _ => rfl
  | k + 1, x => by
      rw [clmod, residue_clmod d m k]
      split
      · rw [residue_xor, residue_shiftLeft, residue_self, mul_zero, add_zero]
      · rfl

/-- Below the degree of `m`, a packed value is determined by its class. -/
theorem residue_injOn {d m a b : Nat} (hd : m.testBit d = true) (ha : a < 2 ^ d)
    (hb : b < 2 ^ d) (h : residue m a = residue m b) : a = b := by
  have hdvd : gf2Poly m ∣ gf2Poly (a ^^^ b) := by
    rw [← AdjoinRoot.mk_eq_zero]
    change residue m (a ^^^ b) = 0
    rw [residue_xor, h, ← residue_xor, Nat.xor_self, residue_zero]
  have hdeg : (gf2Poly (a ^^^ b)).degree < (gf2Poly m).degree := by
    have hmd : (d : WithBot ℕ) ≤ (gf2Poly m).degree :=
      le_degree_of_ne_zero (by simp [hd])
    exact lt_of_lt_of_le (degree_gf2Poly_lt (Nat.xor_lt_two_pow ha hb)) hmd
  have hzero : a ^^^ b = 0 := by
    apply gf2Poly_injective
    rw [eq_zero_of_dvd_of_degree_lt hdvd hdeg, gf2Poly_zero]
  exact Nat.eq_of_xor_eq_zero hzero

end Silence.Lib
