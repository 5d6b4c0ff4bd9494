import Silence.Crypto.CryptoUtils
import Mathlib.Data.Nat.Size

/-!
# Silence.Crypto.ModularPow

`modular_pow` terminates, with the canonical residue of the power.

`modularPowLoop` is the loop of the source as a recursion. Here the body of the
loop is looked at by itself (`PowVars.pass`): a pass halves `exp`, so the
condition holds before as many passes as the exponent has binary digits, and
`result` is then what the recursion gives (`result_of_halts`).
-/

namespace Silence.Crypto

/-- The variables that the loop of `modular_pow` assigns. -/
structure PowVars where
  result : Int
  b : Int
  exp : Int
  deriving DecidableEq

/-- The body of the loop. -/
def PowVars.pass (modulus : Int) (s : PowVars) : PowVars :=
  ⟨nextResult modulus s.result s.b s.exp, (s.b * s.b).tmod modulus, s.exp.tdiv 2⟩

/-- The loop makes `n` passes: its condition holds before each of them, and not after the
last. -/
def PowVars.Halts (modulus : Int) (s : PowVars) (n : Nat) : Prop :=
  (∀ k < n, 0 < ((pass modulus)^[k] s).exp) ∧ ¬ 0 < ((pass modulus)^[n] s).exp

namespace PowVars

/-- What `exp` holds after `n` passes. -/
theorem exp_iterate (modulus : Int) (s : PowVars) {e : Nat} (hexp : s.exp = e) (n : Nat) :
    ((pass modulus)^[n] s).exp = (e / 2 ^ n : Nat) := by
  induction n with
  | zero => simp [hexp]
  | succ n ih =>
      have hpass : ((pass modulus)^[n + 1] s).exp = ((pass modulus)^[n] s).exp.tdiv 2 := by
        rw [Function.iterate_succ_apply']
        rfl
      rw [hpass, ih, pow_succ, ← Nat.div_div_eq_div_mul]
      exact (Int.ofNat_tdiv _ 2).symm

/-- There are as many passes as the exponent has binary digits. -/
theorem halts_size (modulus : Int) (s : PowVars) {e : Nat} (hexp : s.exp = e) :
    s.Halts modulus e.size := by
  have hpos : ∀ k, 0 < ((pass modulus)^[k] s).exp ↔ k < e.size := by
    intro k
    rw [exp_iterate modulus s hexp, Nat.lt_size]
    have hdiv := @Nat.div_pos_iff e (2 ^ k)
    have htwo := Nat.two_pow_pos k
    omega
  exact ⟨fun k hk => (hpos k).mpr hk, fun h => Nat.lt_irrefl _ ((hpos _).mp h)⟩

/-- The recursion gives what `result` holds when the loop has halted. -/
theorem result_of_halts {modulus : Int} {n : Nat} {s : PowVars} (h : s.Halts modulus n) :
    ((pass modulus)^[n] s).result = modularPowLoop modulus s.result s.b s.exp := by
  obtain ⟨hpasses, hlast⟩ := h
  induction n generalizing s with
  | zero =>
      have hzero : ¬ 0 < s.exp := hlast
      rw [modularPowLoop, if_neg hzero]
      rfl
  | succ n ih =>
      have hfirst : 0 < s.exp := hpasses 0 (Nat.succ_pos n)
      have hrest : ∀ k < n, 0 < ((pass modulus)^[k] (s.pass modulus)).exp :=
        fun k hk => hpasses (k + 1) (Nat.succ_lt_succ hk)
      rw [modularPowLoop, if_pos hfirst]
      exact ih hrest hlast

end PowVars

/-- The variables before the loop. -/
def PowVars.start (base exponent modulus : Nat) : PowVars :=
  ⟨1, (base : Int) % modulus, exponent⟩

/-- On non-negative numbers and a positive modulus, `modular_pow` returns the residue of the
power that lies below the modulus. Its loop makes as many passes as the exponent has binary
digits; a modulus of 1 is answered before it. -/
theorem modularPow_residue (base exponent modulus : Nat) (hmod : 1 ≤ modulus) :
    ∃ r : Nat, modularPow base exponent modulus = .ok (r : Int) ∧ r ≤ modulus - 1 ∧
      r ≡ base ^ exponent [MOD modulus] ∧
      (PowVars.start base exponent modulus).Halts modulus exponent.size ∧
      (modulus ≠ 1 →
        ((PowVars.pass modulus)^[exponent.size] (.start base exponent modulus)).result = r) := by
  have hpos : (0 : Int) < modulus := Int.natCast_pos.mpr hmod
  have hbase : (0 : Int) ≤ base := Int.natCast_nonneg base
  have hvalue : modularPow base exponent modulus =
      .ok ((base ^ exponent % modulus : Nat) : Int) := by
    rw [modularPow_eq hbase hpos, Int.toNat_natCast]
    push_cast
    rfl
  have hhalts := PowVars.halts_size modulus (.start base exponent modulus) rfl
  refine ⟨base ^ exponent % modulus, hvalue, Nat.le_sub_one_of_lt (Nat.mod_lt _ hmod),
    Nat.mod_modEq _ _, hhalts, fun hone => ?_⟩
  have hone' : ¬ (modulus : Int) = 1 := by omega
  rw [modularPow, if_neg hone', rem_eq_emod hbase hpos] at hvalue
  rw [PowVars.result_of_halts hhalts]
  exact Except.ok.inj hvalue

/-- The base is a multiple of the modulus. -/
theorem modularPow_residue_multiple :
    1 ≤ 7 ∧ ∃ r : Nat, modularPow (21 : Nat) (5 : Nat) (7 : Nat) = .ok (r : Int) ∧ r ≤ 7 - 1 ∧
      r ≡ 21 ^ 5 [MOD 7] ∧ (PowVars.start 21 5 7).Halts (7 : Nat) (Nat.size 5) ∧
      (7 ≠ 1 → ((PowVars.pass (7 : Nat))^[Nat.size 5] (.start 21 5 7)).result = r) :=
  ⟨by decide, modularPow_residue 21 5 7 (by decide)⟩

end Silence.Crypto
