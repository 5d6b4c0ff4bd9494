import Silence.Crypto.CryptoUtils
import Silence.Lib.CyclicGroup
import Silence.Lib.PrimeField
import Mathlib.Tactic.IntervalCases

/-!
# Silence.Crypto.Generators

Which generators the functions of `crypto/src/crypto_utils.cpp` accept and find.

All three of them test two powers only: `g` is accepted if neither `g ^ 2` nor
`g ^ ((p - 1) / 2)` is 1 modulo `p`. The primitive roots are accepted, but modulo
most primes other numbers are as well (`generators_primitive_iff`). The two
searches look through different candidates and yet find the same number, since the
least number that is accepted is always a prime (`prime_of_least`).
-/

namespace Silence.Crypto

open Silence.Lib

/-- Every number from 1 to `p - 1` is a power of `g` modulo `p`. -/
def PrimitiveRoot (p g : Int) : Prop := ∀ a, 0 < a → a < p → ∃ k : Nat, g ^ k % p = a

/-- The two powers that are tested are not 1. -/
def Accepts (p g : Int) : Prop := g ^ 2 % p ≠ 1 ∧ g ^ ((p - 1).tdiv 2).toNat % p ≠ 1

instance (p g : Int) : Decidable (Accepts p g) := inferInstanceAs (Decidable (_ ∧ _))

/-- No number below `g` is accepted. -/
def Least (p g : Int) : Prop := ∀ g', 2 ≤ g' → g' < g → ¬ Accepts p g'

/-- The library function returns the canonical residue of the power. -/
def IsPowm (powm : Int → Int → Int → Int) : Prop :=
  ∀ b e m, 0 ≤ b → 0 ≤ e → 0 < m → powm b e m = b ^ e.toNat % m

/-! ### The search from 2 on -/

theorem isAccepted_eq {p g : Int} (hp : 0 < p) (hg : 0 ≤ g) :
    isAccepted p ((p - 1).tdiv 2) g = .ok (decide (Accepts p g)) := by
  rw [isAccepted, modularPow_eq hg hp, modularPow_eq hg hp]
  by_cases h2 : g ^ 2 % p = 1
  · simp [Accepts, h2, bind, Except.bind, pure, Except.pure]
  · simp [Accepts, h2, bind, Except.bind, pure, Except.pure]

/-- The loop stops at the first number that is accepted. The induction is that of the loop. -/
theorem findGeneratorLoop_cases {p g : Int} (hp : 0 < p) (hg : 2 ≤ g) (hleast : Least p g) :
    (∃ r, findGeneratorLoop p ((p - 1).tdiv 2) g = .ok r ∧ 2 ≤ r ∧ r < p ∧ Accepts p r ∧
        Least p r) ∨
      (findGeneratorLoop p ((p - 1).tdiv 2) g = .error (.runtimeError "Generator not found") ∧
        Least p p) := by
  generalize hn : (p - g).toNat = n
  induction n generalizing g with
  | zero =>
      refine .inr ⟨?_, fun g' h2 hlt => hleast g' h2 (by omega)⟩
      rw [findGeneratorLoop, if_neg (by omega)]
  | succ n ih =>
      have hlt : g < p := by omega
      rw [findGeneratorLoop, if_pos hlt, isAccepted_eq hp (by omega)]
      by_cases haccepts : Accepts p g
      · exact .inl ⟨g, by simp [haccepts, bind, Except.bind, pure, Except.pure], hg, hlt, haccepts,
          hleast⟩
      · have hnext : Least p (g + 1) := by
          intro g' h2 hlt'
          rcases (Int.lt_add_one_iff.mp hlt').lt_or_eq with h | rfl
          · exact hleast g' h2 h
          · exact haccepts
        have hih := ih (g := g + 1) (by omega) hnext (by omega)
        simpa [haccepts, bind, Except.bind] using hih

/-- `find_generator` returns the least number that is accepted, and throws if there is none. -/
theorem findGenerator_cases {p : Int} (hp : 0 < p) :
    (∃ r, findGenerator p = .ok r ∧ 2 ≤ r ∧ r < p ∧ Accepts p r ∧ Least p r) ∨
      (findGenerator p = .error (.runtimeError "Generator not found") ∧ Least p p) :=
  findGeneratorLoop_cases hp (Int.le_refl 2) fun _ h2 hlt => absurd hlt (not_lt.mpr h2)

theorem accepts_of_findGenerator {p g : Int} (hp : 0 < p) (h : findGenerator p = .ok g) :
    2 ≤ g ∧ g < p ∧ Accepts p g := by
  rcases findGenerator_cases hp with ⟨r, hr, h2, hlt, hacc, -⟩ | ⟨hthrow, -⟩
  · obtain rfl := Except.ok.inj (h.symm.trans hr)
    exact ⟨h2, hlt, hacc⟩
  · rw [hthrow] at h
    cases h

/-! ### The search through the candidates -/

theorem searchCandidates_cons {powm : Int → Int → Int → Int} (hpowm : IsPowm powm) {p g : Int}
    (hg : 2 ≤ g) (gs : List Int) :
    searchCandidates powm p ((p - 1).tdiv 2) (g :: gs) =
      if g ≥ p then none
      else if Accepts p g then some g
      else searchCandidates powm p ((p - 1).tdiv 2) gs := by
  rw [searchCandidates]
  by_cases hlt : g ≥ p
  · rw [if_pos hlt, if_pos hlt]
  · have hq : 0 ≤ (p - 1).tdiv 2 := Int.tdiv_nonneg (by omega) (by omega)
    have haccepts : (powm g 2 p ≠ 1 ∧ powm g ((p - 1).tdiv 2) p ≠ 1) ↔ Accepts p g := by
      rw [hpowm g 2 p (by omega) (by omega) (by omega), hpowm g _ p (by omega) hq (by omega)]
      rfl
    simp only [haccepts]

/-- A number that is found is the first candidate below `p` that is accepted. -/
theorem searchCandidates_cases {powm : Int → Int → Int → Int} (hpowm : IsPowm powm) (p : Int)
    {gs : List Int} (hpos : ∀ g ∈ gs, 2 ≤ g) (hsorted : gs.Pairwise (· < ·)) :
    (∃ r, searchCandidates powm p ((p - 1).tdiv 2) gs = some r ∧ r ∈ gs ∧ r < p ∧ Accepts p r ∧
        ∀ g ∈ gs, g < r → ¬ Accepts p g) ∨
      (searchCandidates powm p ((p - 1).tdiv 2) gs = none ∧ ∀ g ∈ gs, g < p → ¬ Accepts p g) := by
  induction gs with
  | nil => exact .inr ⟨rfl, by simp⟩
  | cons g gs ih =>
      obtain ⟨hbefore, hsorted'⟩ := List.pairwise_cons.mp hsorted
      obtain ⟨hg, hpos'⟩ := List.forall_mem_cons.mp hpos
      rw [searchCandidates_cons hpowm hg]
      by_cases hge : g ≥ p
      · rw [if_pos hge]
        refine .inr ⟨rfl, List.forall_mem_cons.mpr ⟨by omega, fun g' hmem => ?_⟩⟩
        have := hbefore g' hmem
        omega
      · rw [if_neg hge]
        by_cases hacc : Accepts p g
        · rw [if_pos hacc]
          refine .inl ⟨g, rfl, List.mem_cons_self, by omega, hacc, ?_⟩
          refine List.forall_mem_cons.mpr ⟨by omega, fun g' hmem => ?_⟩
          have := hbefore g' hmem
          omega
        · rw [if_neg hacc]
          rcases ih hpos' hsorted' with ⟨r, hr, hmem, hlt, haccr, hrest⟩ | ⟨hnone, hrest⟩
          · exact .inl ⟨r, hr, List.mem_cons_of_mem _ hmem, hlt, haccr,
              List.forall_mem_cons.mpr ⟨fun _ => hacc, hrest⟩⟩
          · exact .inr ⟨hnone, List.forall_mem_cons.mpr ⟨fun _ => hacc, hrest⟩⟩

theorem candidates_sorted : candidates.Pairwise (· < ·) := by decide

theorem two_le_of_mem_candidates : ∀ g ∈ candidates, 2 ≤ g := by decide

/-- The candidates are the primes up to 97. -/
theorem mem_candidates {n : Nat} (hprime : n.Prime) (hle : n ≤ 97) : (n : Int) ∈ candidates := by
  revert hprime
  interval_cases n <;> decide

/-- `find_valid_generator` returns the first candidate below `p` that is accepted, and throws if
there is none. -/
theorem findValidGenerator_cases {powm : Int → Int → Int → Int} (hpowm : IsPowm powm) (p : Int) :
    (∃ r, findValidGenerator powm p = .ok r ∧ r ∈ candidates ∧ r < p ∧ Accepts p r ∧
        ∀ g ∈ candidates, g < r → ¬ Accepts p g) ∨
      (findValidGenerator powm p = .error (.runtimeError "No valid generator found") ∧
        ∀ g ∈ candidates, g < p → ¬ Accepts p g) := by
  rcases searchCandidates_cases hpowm p two_le_of_mem_candidates candidates_sorted with
    ⟨r, hr, hrest⟩ | ⟨hnone, hrest⟩
  · exact .inl ⟨r, by rw [findValidGenerator, hr], hrest⟩
  · exact .inr ⟨by rw [findValidGenerator, hnone], hrest⟩

theorem accepts_of_findValidGenerator {powm : Int → Int → Int → Int} (hpowm : IsPowm powm)
    {p g : Int} (h : findValidGenerator powm p = .ok g) : 2 ≤ g ∧ g < p ∧ Accepts p g := by
  rcases findValidGenerator_cases hpowm p with ⟨r, hr, hmem, hlt, hacc, -⟩ | ⟨hthrow, -⟩
  · obtain rfl := Except.ok.inj (h.symm.trans hr)
    exact ⟨two_le_of_mem_candidates g hmem, hlt, hacc⟩
  · rw [hthrow] at h
    cases h

/-! ### Modulo a prime -/

section Prime

variable {p : Nat} [Fact p.Prime]

/-- A power is 1 in the field of residues exactly if its residue is 1. -/
theorem pow_emod_eq_one_iff (g : Int) (n : Nat) : g ^ n % p = 1 ↔ (g : ZMod p) ^ n = 1 := by
  have hone : (1 : Int) % p = 1 :=
    Int.emod_eq_of_lt Int.one_nonneg (by exact_mod_cast (Fact.out : p.Prime).one_lt)
  have hcast := ZMod.intCast_eq_intCast_iff' (g ^ n) 1 p
  rw [hone] at hcast
  rw [← hcast, Int.cast_pow, Int.cast_one]

/-- Only 1 and `p - 1` have the square 1. -/
theorem sq_emod_ne_one {g : Int} (hg : 2 ≤ g) (hlt : g + 1 < p) : g ^ 2 % p ≠ 1 := by
  rw [ne_eq, pow_emod_eq_one_iff]
  intro h
  have hfactors : ((g - 1 : Int) : ZMod p) * ((g + 1 : Int) : ZMod p) = 0 := by
    push_cast
    linear_combination h
  rcases mul_eq_zero.mp hfactors with h | h
  · exact cast_ne_zero_of_lt (by omega) (by omega) h
  · exact cast_ne_zero_of_lt (by omega) hlt h

/-- The least number that is accepted is a prime: a product is accepted only if one of its factors
is. -/
theorem prime_of_least {g : Int} (hg : 2 ≤ g) (hlt : g < p) (haccepts : Accepts p g)
    (hleast : Least p g) : g.toNat.Prime := by
  by_contra hprime
  obtain ⟨a, ⟨b, hab⟩, ha2, halt⟩ := Nat.exists_dvd_of_not_prime2 (by omega) hprime
  have hgab : g = (a : Int) * b := by
    rw [← Int.toNat_of_nonneg (show 0 ≤ g by omega), hab]
    push_cast
    rfl
  have hb2 : 2 ≤ b := by
    by_contra hb
    interval_cases b <;> omega
  have hblt : (b : Int) < g := by nlinarith
  -- a factor that is not accepted has the power 1
  have hone : ∀ n : Int, 2 ≤ n → n < g →
      (n : ZMod p) ^ (((p : Int) - 1).tdiv 2).toNat = 1 := by
    intro n h2 hn
    by_contra hne
    exact hleast n h2 hn
      ⟨sq_emod_ne_one h2 (by omega), fun h => hne ((pow_emod_eq_one_iff n _).mp h)⟩
  refine haccepts.2 ((pow_emod_eq_one_iff g _).mpr ?_)
  rw [hgab, Int.cast_mul, mul_pow, hone a (by exact_mod_cast ha2) (by omega),
    hone b (by exact_mod_cast hb2) hblt, one_mul]

/-- The class of a residue that is not 0. -/
def unitOf {g : Int} (hpos : 0 < g) (hlt : g < p) : (ZMod p)ˣ :=
  Units.mk0 g (cast_ne_zero_of_lt hpos hlt)

theorem unitOf_pow_eq_one_iff {g : Int} (hpos : 0 < g) (hlt : g < p) (n : Nat) :
    unitOf hpos hlt ^ n = 1 ↔ g ^ n % p = 1 := by
  rw [pow_emod_eq_one_iff, Units.ext_iff, Units.val_pow_eq_pow_val, Units.val_one, unitOf,
    Units.val_mk0]

/-- Every class that is not 0 has a representative. -/
theorem exists_unitOf (x : (ZMod p)ˣ) :
    ∃ (g : Int) (hpos : 0 < g) (hlt : g < p), unitOf hpos hlt = x := by
  have hval : (((x : ZMod p).val : Int) : ZMod p) = x := by
    rw [Int.cast_natCast, ZMod.natCast_zmod_val]
  have hpos : 0 < (x : ZMod p).val := Nat.pos_of_ne_zero fun h =>
    x.ne_zero ((ZMod.val_eq_zero _).mp h)
  refine ⟨(x : ZMod p).val, by exact_mod_cast hpos, by exact_mod_cast ZMod.val_lt _, ?_⟩
  exact Units.ext hval

/-- Primitive roots are the generators of the group of units. -/
theorem primitiveRoot_iff_orderOf {g : Int} (hpos : 0 < g) (hlt : g < p) :
    PrimitiveRoot p g ↔ orderOf (unitOf hpos hlt) = p - 1 := by
  have hcard : Nat.card (ZMod p)ˣ = p - 1 := by rw [Nat.card_eq_fintype_card, ZMod.card_units]
  -- residues and units have the same powers
  have hpow : ∀ (k : Nat) {a : Int} (ha : 0 < a) (hap : a < p),
      unitOf hpos hlt ^ k = unitOf ha hap ↔ g ^ k % p = a := by
    intro k a ha hap
    rw [Units.ext_iff, Units.val_pow_eq_pow_val, unitOf, unitOf, Units.val_mk0, Units.val_mk0,
      ← Int.cast_pow, ZMod.intCast_eq_intCast_iff', Int.emod_eq_of_lt ha.le hap]
  constructor
  · intro h
    rw [← hcard]
    refine orderOf_eq_card_of_forall_mem_powers fun x => ?_
    obtain ⟨a, ha, hap, rfl⟩ := exists_unitOf x
    obtain ⟨k, hk⟩ := h a ha hap
    exact ⟨k, (hpow k ha hap).mpr hk⟩
  · intro h a ha hap
    have hmem : unitOf ha hap ∈ Submonoid.powers (unitOf hpos hlt) := by
      rw [mem_powers_iff_mem_zpowers]
      have htop : Subgroup.zpowers (unitOf hpos hlt) = ⊤ :=
        Subgroup.eq_top_of_card_eq _ (by rw [Nat.card_zpowers, h, hcard])
      rw [htop]
      exact Subgroup.mem_top _
    obtain ⟨k, hk⟩ := hmem
    exact ⟨k, (hpow k ha hap).mp hk⟩

theorem half_eq (p : Nat) (hp : 0 < p) : (((p : Int) - 1).tdiv 2).toNat = (p - 1) / 2 := by
  rw [Int.tdiv_eq_ediv_of_nonneg (by omega)]
  omega

theorem accepts_iff_passesTest {g : Int} (hpos : 0 < g) (hlt : g < p) :
    Accepts p g ↔ PassesTest ((p - 1) / 2) (unitOf hpos hlt) := by
  rw [PassesTest, ne_eq, ne_eq, unitOf_pow_eq_one_iff, unitOf_pow_eq_one_iff, Accepts,
    half_eq p (Fact.out : p.Prime).pos]

theorem two_mul_half (hp : 3 < p) : p - 1 = 2 * ((p - 1) / 2) := by
  have hodd := ((Fact.out : p.Prime).eq_two_or_odd).resolve_left (by omega)
  omega

/-- The condition on the modulus, in natural numbers. -/
theorem half_prime_or_pow_iff (hp : 3 < p) :
    ((((p : Int) - 1) / 2).toNat.Prime ∨ ∃ k : Nat, (p : Int) - 1 = 2 ^ k) ↔
      ((p - 1) / 2).Prime ∨ ∃ k, 2 * ((p - 1) / 2) = 2 ^ k := by
  have hhalf : (((p : Int) - 1) / 2).toNat = (p - 1) / 2 := by omega
  have hcast : ∀ k : Nat, (p : Int) - 1 = 2 ^ k ↔ 2 * ((p - 1) / 2) = 2 ^ k := by
    intro k
    rw [← two_mul_half hp, ← Nat.cast_inj (R := Int), Nat.cast_sub (by omega)]
    push_cast
    rfl
  simp only [hhalf, hcast]

/-- The test of the two powers is exact for these moduli only. -/
theorem accepts_iff_primitiveRoot_iff (hp : 3 < p) :
    (∀ g : Int, 2 ≤ g → g < p → (Accepts p g ↔ PrimitiveRoot p g)) ↔
      (((p : Int) - 1) / 2).toNat.Prime ∨ ∃ k : Nat, (p : Int) - 1 = 2 ^ k := by
  have htwo := two_mul_half hp
  have hq : 1 < (p - 1) / 2 := by omega
  have hcard : Nat.card (ZMod p)ˣ = 2 * ((p - 1) / 2) := by
    rw [Nat.card_eq_fintype_card, ZMod.card_units, ← htwo]
  have hroot : ∀ {g : Int} (hpos : 0 < g) (hlt : g < p),
      PrimitiveRoot p g ↔ orderOf (unitOf hpos hlt) = 2 * ((p - 1) / 2) := by
    intro g hpos hlt
    rw [primitiveRoot_iff_orderOf hpos hlt, ← htwo]
  rw [half_prime_or_pow_iff hp, ← passesTest_iff_generator_iff (G := (ZMod p)ˣ) hq hcard]
  constructor
  · intro hexact x
    refine ⟨fun hpasses => ?_, passesTest_of_generator hq⟩
    obtain ⟨g, hpos, hlt, rfl⟩ := exists_unitOf x
    have haccepts := (accepts_iff_passesTest hpos hlt).mpr hpasses
    -- the number 1 is not accepted
    have hg : 2 ≤ g := by
      by_contra hg1
      obtain rfl : g = 1 := by omega
      exact haccepts.1 (by rw [one_pow]; exact Int.emod_eq_of_lt (by omega) (by omega))
    exact (hroot hpos hlt).mp ((hexact g hg hlt).mp haccepts)
  · intro hexact g h2 hlt
    rw [accepts_iff_passesTest (by omega) hlt, hroot (by omega) hlt]
    exact hexact _

end Prime

/-! ### Validation -/

theorem checkFactor_eq {p g factor exponent : Int} (hg : 0 ≤ g) (hp : 0 < p)
    (hexponent : quot (p - 1) factor = .ok exponent) :
    checkFactor p g factor =
      if g ^ exponent.toNat % p = 1 then
        .error (.invalidArgument "g is not a primitive root modulo p")
      else .ok () := by
  rw [checkFactor, hexponent]
  simp only [bind, Except.bind, modularPow_eq hg hp]
  split <;> rfl

/-- For an odd modulus that passes for a prime, validation tests the range and the two powers. -/
theorem validateElGamalParameters_iff {isPrime : Int → Bool} {p : Int} (htest : isPrime p = true)
    (hp : 3 < p) (hodd : p - 1 = 2 * (p - 1).tdiv 2) (g : Int) :
    validateElGamalParameters isPrime p g = .ok true ↔ 2 ≤ g ∧ g < p ∧ Accepts p g := by
  rw [validateElGamalParameters, htest]
  by_cases hrange : g < 2 ∨ g ≥ p
  · rw [if_pos hrange]
    refine iff_of_false (by simp) ?_
    rintro ⟨h2, hlt, -⟩
    omega
  · have h2 : 2 ≤ g := by omega
    have hlt : g < p := by omega
    have htwo : quot (p - 1) 2 = .ok ((p - 1).tdiv 2) := rfl
    have hhalf : quot (p - 1) ((p - 1).tdiv 2) = .ok 2 := by
      have hmul : (2 * (p - 1).tdiv 2).tdiv ((p - 1).tdiv 2) = 2 :=
        Int.mul_tdiv_cancel 2 (by omega)
      rw [← hodd] at hmul
      rw [quot, if_neg (by omega), hmul]
    -- the two factors that are tested
    have hforM : [2, (p - 1).tdiv 2].forM (checkFactor p g) = (do
        checkFactor p g 2
        checkFactor p g ((p - 1).tdiv 2)) := by
      simp [List.forM]
    simp only [Bool.not_true, Bool.false_eq_true, if_false, hrange, hforM,
      checkFactor_eq (show 0 ≤ g by omega) (show 0 < p by omega) htwo,
      checkFactor_eq (show 0 ≤ g by omega) (show 0 < p by omega) hhalf]
    rw [show (2 : Int).toNat = 2 from rfl]
    by_cases hq : g ^ ((p - 1).tdiv 2).toNat % p = 1
    · simp [hq, Accepts, bind, Except.bind]
    · by_cases hsq : g ^ 2 % p = 1
      · simp [hq, hsq, Accepts, bind, Except.bind]
      · simp [hq, hsq, Accepts, bind, Except.bind, pure, Except.pure, h2, hlt]

/-! ### Primitive roots -/

/-- For a prime `p > 3`: validation accepts the primitive roots and both searches find primitive
roots, if and only if `(p - 1) / 2` is a prime or `p - 1` a power of two. -/
theorem generators_primitive_iff {isPrime : Int → Bool} {powm : Int → Int → Int → Int}
    (hpowm : IsPowm powm) {p : Int} (hprime : p.toNat.Prime) (htest : isPrime p = true)
    (hp : 3 < p) :
    ((∀ g, validateElGamalParameters isPrime p g = .ok true ↔
        (2 ≤ g ∧ g ≤ p - 1) ∧ PrimitiveRoot p g) ∧
      (∀ g, findGenerator p = .ok g → PrimitiveRoot p g) ∧
      (∀ g, findValidGenerator powm p = .ok g → PrimitiveRoot p g)) ↔
    ((p - 1) / 2).toNat.Prime ∨ ∃ k : Nat, p - 1 = 2 ^ k := by
  lift p to Nat using by omega
  have : Fact p.Prime := ⟨hprime⟩
  have hp3 : 3 < p := by omega
  have hodd : (p : Int) - 1 = 2 * ((p : Int) - 1).tdiv 2 := by
    have htwo := two_mul_half hp3
    rw [Int.tdiv_eq_ediv_of_nonneg (by omega)]
    omega
  have hvalid := validateElGamalParameters_iff htest hp hodd
  rw [← accepts_iff_primitiveRoot_iff hp3]
  constructor
  · rintro ⟨hvalidate, -, -⟩ g h2 hlt
    constructor
    · intro hacc
      exact ((hvalidate g).mp ((hvalid g).mpr ⟨h2, hlt, hacc⟩)).2
    · intro hprim
      exact ((hvalid g).mp ((hvalidate g).mpr ⟨⟨h2, by omega⟩, hprim⟩)).2.2
  · intro hexact
    refine ⟨fun g => ?_, fun g h => ?_, fun g h => ?_⟩
    · rw [hvalid]
      constructor
      · rintro ⟨h2, hlt, hacc⟩
        exact ⟨⟨h2, by omega⟩, (hexact g h2 hlt).mp hacc⟩
      · rintro ⟨⟨h2, hle⟩, hprim⟩
        exact ⟨h2, by omega, (hexact g h2 (by omega)).mpr hprim⟩
    · obtain ⟨h2, hlt, hacc⟩ := accepts_of_findGenerator (by omega) h
      exact (hexact g h2 hlt).mp hacc
    · obtain ⟨h2, hlt, hacc⟩ := accepts_of_findValidGenerator hpowm h
      exact (hexact g h2 hlt).mp hacc

/-- Modulo 23, with 11 a prime. -/
theorem generators_primitive_iff_small_prime :
    let isPrime := fun n : Int => decide n.toNat.Prime
    ((∀ g, validateElGamalParameters isPrime 23 g = .ok true ↔
        (2 ≤ g ∧ g ≤ 23 - 1) ∧ PrimitiveRoot 23 g) ∧
      (∀ g, findGenerator 23 = .ok g → PrimitiveRoot 23 g) ∧
      (∀ g, findValidGenerator (fun b e m => b ^ e.toNat % m) 23 = .ok g → PrimitiveRoot 23 g)) ↔
    (((23 : Int) - 1) / 2).toNat.Prime ∨ ∃ k : Nat, (23 : Int) - 1 = 2 ^ k :=
  generators_primitive_iff (fun _ _ _ _ _ _ => rfl) (by decide) (by decide) (by decide)

/-- A number with a power that is 1 has no powers but those before it. -/
theorem not_primitiveRoot {p : Nat} {g a : Int} {n : Nat} (hn : 0 < n) (hone : g ^ n % p = 1 % p)
    (ha : 0 < a) (hlt : a < p) (hpowers : ∀ k < n, g ^ k % p ≠ a) : ¬ PrimitiveRoot p g := by
  intro h
  obtain ⟨k, hk⟩ := h a ha hlt
  have hcast : (g : ZMod p) ^ n = 1 := by
    have := (ZMod.intCast_eq_intCast_iff' (g ^ n) 1 p).mpr hone
    rwa [Int.cast_pow, Int.cast_one] at this
  have hmod : g ^ k % p = g ^ (k % n) % p := by
    apply emod_eq_of_cast_eq
    rw [Int.cast_pow, Int.cast_pow]
    exact pow_congr_of_modEq hcast (Nat.mod_modEq k n).symm
  exact hpowers _ (Nat.mod_lt k hn) (hmod ▸ hk)

/-- The number 5 is accepted modulo 13, where it has the four powers 1, 5, 12 and 8, and both
searches find 3 modulo 41, which has eight powers. -/
theorem generators_not_primitive :
    let isPrime := fun n : Int => decide n.toNat.Prime
    let powm := fun b e m : Int => b ^ e.toNat % m
    validateElGamalParameters isPrime 13 5 = .ok true ∧ ¬ PrimitiveRoot 13 5 ∧
      findGenerator 41 = .ok 3 ∧ findValidGenerator powm 41 = .ok 3 ∧ ¬ PrimitiveRoot 41 3 := by
  refine ⟨?_, ?_, ?_, ?_, ?_⟩
  · exact (validateElGamalParameters_iff (by decide) (by decide) (by decide) 5).mpr (by decide)
  · exact not_primitiveRoot (p := 13) (n := 4) (a := 2) (by decide) (by decide) (by decide)
      (by decide) (by decide)
  · rcases findGenerator_cases (p := 41) (by decide) with
      ⟨r, hr, h2, hlt, hacc, hleast⟩ | ⟨-, hnone⟩
    · have h3 : r = 3 := by
        by_contra hne
        rcases (show r = 2 ∨ 3 < r by omega) with rfl | h
        · exact absurd hacc (by decide)
        · exact hleast 3 (by decide) h (by decide)
      rw [hr, h3]
    · exact absurd (show Accepts 41 3 by decide) (hnone 3 (by decide) (by decide))
  · decide
  · exact not_primitiveRoot (p := 41) (n := 8) (a := 2) (by decide) (by decide) (by decide)
      (by decide) (by decide)

/-! ### Agreement of the searches -/

section Searches

variable {powm : Int → Int → Int → Int} {p : Nat} [Fact p.Prime]

/-- The number that is found is a candidate if it is not too large. -/
theorem mem_candidates_of_least {g : Int} (hg : 2 ≤ g) (hlt : g < p) (haccepts : Accepts p g)
    (hleast : Least p g) (hle : g ≤ 97) : g ∈ candidates := by
  have hmem := mem_candidates (prime_of_least hg hlt haccepts hleast) (by omega)
  rwa [Int.toNat_of_nonneg (by omega)] at hmem

theorem findGenerator_of_findValidGenerator (hpowm : IsPowm powm) {g : Int}
    (h : findValidGenerator powm p = .ok g) : findGenerator p = .ok g := by
  have hpos : (0 : Int) < p := Int.natCast_pos.mpr (Fact.out : p.Prime).pos
  have hbound : ∀ g ∈ candidates, g ≤ 97 := by decide
  rcases findValidGenerator_cases hpowm p with ⟨g', hg, hmem, hglt, hgacc, hfirst⟩ | ⟨hnone, -⟩
  · obtain rfl := Except.ok.inj (h.symm.trans hg)
    rcases findGenerator_cases hpos with ⟨r, hr, h2, hlt, hacc, hleast⟩ | ⟨-, hleast⟩
    · -- the two searches have passed over the same numbers
      have hrg : r ≤ g := by
        by_contra hgr
        exact hleast g (two_le_of_mem_candidates g hmem) (by omega) hgacc
      have hgr : g ≤ r := by
        by_contra hrg'
        have hr97 := hrg.trans (hbound g hmem)
        exact hfirst r (mem_candidates_of_least h2 hlt hacc hleast hr97) (by omega) hacc
      rw [hr, le_antisymm hgr hrg]
    · exact absurd hgacc (hleast g (two_le_of_mem_candidates g hmem) hglt)
  · rw [hnone] at h
    cases h

theorem findGenerator_of_findValidGenerator_error (hpowm : IsPowm powm) {e : CryptoError}
    (h : findValidGenerator powm p = .error e) :
    (∃ e', findGenerator p = .error e') ∨ ∃ g, findGenerator p = .ok g ∧ 97 < g := by
  have hpos : (0 : Int) < p := Int.natCast_pos.mpr (Fact.out : p.Prime).pos
  rcases findValidGenerator_cases hpowm p with ⟨g, hg, -⟩ | ⟨-, hall⟩
  · rw [hg] at h
    cases h
  · rcases findGenerator_cases hpos with ⟨r, hr, h2, hlt, hacc, hleast⟩ | ⟨hthrow, -⟩
    · refine .inr ⟨r, hr, ?_⟩
      by_contra hle
      exact hall r (mem_candidates_of_least h2 hlt hacc hleast (by omega)) hlt hacc
    · exact .inl ⟨_, hthrow⟩

end Searches

/-- The two searches agree: they find the same number, or the number that `find_generator` finds is
too large to be a candidate. -/
theorem findValidGenerator_agrees {powm : Int → Int → Int → Int} (hpowm : IsPowm powm) {p : Int}
    (hprime : p.toNat.Prime) :
    (∀ g, findValidGenerator powm p = .ok g → findGenerator p = .ok g) ∧
      ∀ e, findValidGenerator powm p = .error e →
        (∃ e', findGenerator p = .error e') ∨ ∃ g, findGenerator p = .ok g ∧ 97 < g := by
  have hp : 0 < p := by
    have := hprime.pos
    omega
  lift p to Nat using hp.le
  have : Fact p.Prime := ⟨hprime⟩
  exact ⟨fun _ h => findGenerator_of_findValidGenerator hpowm h,
    fun _ h => findGenerator_of_findValidGenerator_error hpowm h⟩

/-- Modulo 41 both searches find 3. -/
theorem findValidGenerator_agrees_small_prime :
    (∀ g, findValidGenerator (fun b e m => b ^ e.toNat % m) 41 = .ok g → findGenerator 41 = .ok g) ∧
      ∀ e, findValidGenerator (fun b e m => b ^ e.toNat % m) 41 = .error e →
        (∃ e', findGenerator 41 = .error e') ∨ ∃ g, findGenerator 41 = .ok g ∧ 97 < g :=
  findValidGenerator_agrees (fun _ _ _ _ _ _ => rfl) (by decide)

end Silence.Crypto
