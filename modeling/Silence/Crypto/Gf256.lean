import Silence.Crypto.Aes256
import Silence.Spec.Fips197
import Mathlib.Tactic.LinearCombination

/-!
# Silence.Crypto.Gf256

`AES256::gmul` is the multiplication of GF(2)[X] / (X⁸ + X⁴ + X³ + X + 1).

`res` reads a byte as an element of that ring. The loop of `gmul` keeps
`p + a * b` (`res_gmulStep`) and drains `b` (`gmulStep_iterate_b`), so after its
eight iterations `p` is the product (`res_gmul`). Since `res` is injective on
bytes (`res_injective`), an identity between bytes is proved by computing in the
ring.
-/

namespace Silence.Crypto.Aes256

open Silence.Lib
open Fips197 (modulus)

/-- A byte as an element of GF(2)[X] / (`modulus`). -/
noncomputable def res (b : UInt8) : AdjoinRoot (gf2Poly modulus) := residue modulus b.toNat

@[simp] theorem res_zero : res 0 = 0 := residue_zero _

@[simp] theorem res_one : res 1 = 1 := residue_one _

@[simp] theorem res_xor (a b : UInt8) : res (a ^^^ b) = res a + res b := by
  simp only [res, UInt8.toNat_xor, residue_xor]

/-- Distinct bytes are distinct elements: the modulus has degree 8. -/
theorem res_injective : Function.Injective res := by
  intro a b h
  exact UInt8.toNat_inj.mp
    (residue_injOn (d := 8) (by decide) a.toNat_lt b.toNat_lt h)

/-! ### The loop of `gmul` -/

/-- The two shifts as computations on numbers. -/
theorem toNat_shifts : ∀ b : UInt8,
    (if b &&& 0x80 ≠ 0 then (b <<< 1) ^^^ 0x1b else b <<< 1).toNat =
      (if b.toNat.testBit 7 then (b.toNat <<< 1) ^^^ modulus else b.toNat <<< 1) ∧
    b.toNat = ((b >>> 1).toNat <<< 1) ^^^ if b &&& 1 ≠ 0 then 1 else 0 :=
  forall_uint8 (by decide +kernel)

/-- The shift of `a` in one iteration: a doubling that is reduced when it leaves the byte. -/
theorem toNat_gmulStep_a (s : GmulState) :
    (gmulStep s).a.toNat =
      if s.a.toNat.testBit 7 then (s.a.toNat <<< 1) ^^^ modulus else s.a.toNat <<< 1 :=
  (toNat_shifts s.a).1

theorem res_gmulStep_a (s : GmulState) : res (gmulStep s).a = residue modulus 2 * res s.a := by
  simp only [res, toNat_gmulStep_a]
  split
  · rw [residue_xor, residue_self, residue_shiftLeft, pow_one, add_zero]
  · rw [residue_shiftLeft, pow_one]

/-- `b` is the double of `b >> 1` plus its lowest bit. -/
theorem res_shiftRight_one (b : UInt8) :
    res b = residue modulus 2 * res (b >>> 1) + if b &&& 1 ≠ 0 then 1 else 0 := by
  rw [res, (toNat_shifts b).2, residue_xor, residue_shiftLeft, pow_one]
  split <;> simp [res]

/-- The invariant of the loop: `p + a * b` does not change. -/
theorem res_gmulStep (s : GmulState) :
    res (gmulStep s).p + res (gmulStep s).a * res (gmulStep s).b =
      res s.p + res s.a * res s.b := by
  have hp : res (gmulStep s).p = res s.p + if s.b &&& 1 ≠ 0 then res s.a else 0 := by
    simp only [gmulStep]
    split <;> simp
  have hb : (gmulStep s).b = s.b >>> 1 := rfl
  rw [hp, hb, res_gmulStep_a, res_shiftRight_one s.b]
  split <;> ring

theorem res_gmulStep_iterate (n : Nat) (s : GmulState) :
    res (gmulStep^[n] s).p + res (gmulStep^[n] s).a * res (gmulStep^[n] s).b =
      res s.p + res s.a * res s.b := by
  induction n generalizing s with
  | zero => rfl
  | succ n ih => rw [Function.iterate_succ_apply, ih, res_gmulStep]

/-- Iteration `n` has shifted `n` bits of `b` out. -/
theorem gmulStep_iterate_b (n : Nat) (s : GmulState) :
    (gmulStep^[n] s).b.toNat = s.b.toNat / 2 ^ n := by
  induction n with
  | zero => simp
  | succ n ih =>
      have hb : (gmulStep (gmulStep^[n] s)).b.toNat = (gmulStep^[n] s).b.toNat / 2 := by
        simp [gmulStep, UInt8.toNat_shiftRight, Nat.shiftRight_succ]
      rw [Function.iterate_succ_apply', hb, ih, Nat.div_div_eq_div_mul, pow_succ]

/-- `gmul` multiplies in GF(2)[X] / (`modulus`). -/
@[simp] theorem res_gmul (a b : UInt8) : res (gmul a b) = res a * res b := by
  have hb : (gmulStep^[8] ⟨0, a, b⟩).b = 0 := by
    apply UInt8.toNat_inj.mp
    rw [gmulStep_iterate_b, UInt8.toNat_zero]
    exact Nat.div_eq_of_lt b.toNat_lt
  have h := res_gmulStep_iterate 8 ⟨0, a, b⟩
  rw [hb] at h
  simpa [gmul] using h

/-! ### The multiplication of the standard -/

@[simp] theorem res_mul (a b : UInt8) : res (Fips197.mul a b) = res a * res b := by
  have hlt : clmod 8 modulus 7 (clmul 8 a.toNat b.toNat) < 2 ^ 8 :=
    clmod_lt (by decide) (by decide) (clmul_lt a.toNat_lt)
  rw [res, Fips197.mul, UInt8.toNat_ofNat_of_lt' hlt, residue_clmod, residue_clmul b.toNat_lt]
  rfl

/-- The code and the standard multiply alike. -/
theorem gmul_eq_mul (a b : UInt8) : gmul a b = Fips197.mul a b :=
  res_injective (by rw [res_gmul, res_mul])

end Silence.Crypto.Aes256
