import Silence.Crypto.RandomNumbers
import Silence.Lib.PrimeField
import Silence.Lib.StrongProbablePrime
import Mathlib.Tactic.IntervalCases

/-!
# Silence.Crypto.MillerRabin

The primality test of `crypto/src/crypto_utils.cpp`.

`miller_rabin_test` decides the strong test for one base, although its second loop
also stops at a 1: no power after a 1 is `n - 1`. `is_prime` divides by the primes
up to 37 and then tests as many bases as it is told to. The bases are drawn with
`generate_random`, and the outputs that each of these calls is given are an argument.
A loop that does not end has no result.
-/

namespace Silence.Crypto

open Silence.Lib

/-- The first loop of `miller_rabin_test`, on its variables `d` and `r`. It does not end for 0. -/
def halve (d r : Int) : Option (Int × Int) :=
  if d.tmod 2 = 0 then
    if d = 0 then none else halve (d.tdiv 2) (r + 1)
  else some (d, r)
termination_by d.natAbs
decreasing_by
  rw [Int.natAbs_tdiv]
  exact Nat.div_lt_self (by omega) (by decide)

/-- The second loop of `miller_rabin_test`, with its number of iterations. -/
def squareLoop (n : Int) : Nat → Int → Except CryptoError Bool
  | 0, _ => return false
  | iterations + 1, x => do
      let x ← rem (x * x) n
      if x = n - 1 then return true
      else if x = 1 then return false
      else squareLoop n iterations x

def millerRabinTest (n a : Int) : Except CryptoError (Option Bool) :=
  match halve (n - 1) 0 with
  | none => return none
  | some (d, r) => do
      let x ← modularPow a d n
      if x = 1 ∨ x = n - 1 then return some true
      else return some (← squareLoop n (r - 1).toNat x)

def smallPrimes : List Int := [2, 3, 5, 7, 11, 13, 17, 19, 23, 29, 31, 37]

/-- The loop of `is_prime` over the small primes. -/
def trialDivision (n : Int) : List Int → Except CryptoError (Option Bool)
  | [] => return none
  | p :: primes => do
      if n = p then return some true
      else if (← rem n p) = 0 then return some false
      else trialDivision n primes

/-- The loop of `is_prime` over the bases. Every iteration has its own outputs of the generator. -/
def testBases (n : Int) : Nat → List (List (Vector UInt64 8)) → Except CryptoError (Option Bool)
  | 0, _ => return some true
  | _ + 1, [] => return none
  | iterations + 1, outputs :: draws => do
      match ← generateRandom 2 (n - 2) outputs with
      | none => return none
      | some a =>
          match ← millerRabinTest n a with
          | none => return none
          | some false => return some false
          | some true => testBases n iterations draws

def isPrime (n iterations : Int) (draws : List (List (Vector UInt64 8))) :
    Except CryptoError (Option Bool) := do
  if n ≤ 1 ∨ n = 4 then return some false
  else if n ≤ 3 then return some true
  else
    match ← trialDivision n smallPrimes with
    | some answer => return some answer
    | none => testBases n iterations.toNat draws

/-! ### The two loops of the test -/

/-- The loop takes the power of two out of a positive number. -/
theorem halve_eq {d : Nat} (hd : d ≠ 0) (r : Int) :
    ∃ k e : Nat, d = 2 ^ k * e ∧ Odd e ∧ halve d r = some ((e : Int), r + k) := by
  induction d using Nat.strong_induction_on generalizing r with
  | _ d ih =>
      have htmod : (d : Int).tmod 2 = ((d % 2 : Nat) : Int) := rfl
      have htdiv : (d : Int).tdiv 2 = ((d / 2 : Nat) : Int) := rfl
      rw [halve, htmod, htdiv]
      rcases Nat.even_or_odd d with heven | hodd
      · have hmod := Nat.even_iff.mp heven
        obtain ⟨k, e, hk, he, hhalve⟩ := ih (d / 2) (by omega) (by omega) (r + 1)
        rw [if_pos (by omega), if_neg (by omega), hhalve]
        refine ⟨k + 1, e, ?_, he, ?_⟩
        · rw [pow_succ', mul_assoc, ← hk]
          omega
        · push_cast
          rw [add_assoc, add_comm 1]
      · have hmod := Nat.odd_iff.mp hodd
        rw [if_neg (by omega)]
        exact ⟨0, d, by simp, hodd, by simp⟩

section Test

variable {n : Int}

/-- The residue `n - 1` is the one of -1. -/
theorem eq_sub_one_iff {x : Int} (hn : 0 < n) (hx : 0 ≤ x) (hlt : x < n) :
    x = n - 1 ↔ x ≡ -1 [ZMOD n] := by
  have hneg : -1 % n = n - 1 := by
    rw [← Int.add_emod_right, Int.emod_eq_of_lt (by omega) (by omega)]
    omega
  unfold Int.ModEq
  rw [hneg, Int.emod_eq_of_lt hx hlt]

theorem eq_one_iff {x : Int} (hn : 1 < n) (hx : 0 ≤ x) (hlt : x < n) :
    x = 1 ↔ x ≡ 1 [ZMOD n] := by
  unfold Int.ModEq
  rw [Int.emod_eq_of_lt hx hlt, Int.emod_eq_of_lt Int.one_nonneg hn]

theorem one_not_modEq_neg_one (hn : 3 ≤ n) : ¬ 1 ≡ -1 [ZMOD n] := by
  rw [← eq_sub_one_iff (by omega) (by omega) (by omega)]
  omega

/-- The loop looks for -1 among the squares. After a 1 there is no -1, so it does not matter that
the loop stops there. -/
theorem squareLoop_eq (hn : 3 ≤ n) (iterations : Nat) {x : Int} :
    ∃ found, squareLoop n iterations x = .ok found ∧
      (found = true ↔ ∃ j < iterations, x ^ 2 ^ (j + 1) ≡ -1 [ZMOD n]) := by
  induction iterations generalizing x with
  | zero => exact ⟨false, rfl, by simp⟩
  | succ iterations ih =>
      have hrem : rem (x * x) n = .ok (x * x % n) := by
        rw [rem, if_neg (by omega), Int.tmod_eq_emod_of_nonneg (mul_self_nonneg x)]
      have hnonneg : 0 ≤ x * x % n := Int.emod_nonneg _ (by omega)
      have hlt : x * x % n < n := Int.emod_lt_of_pos _ (by omega)
      have hsq : ∀ j, (x * x % n) ^ 2 ^ j ≡ x ^ 2 ^ (j + 1) [ZMOD n] := by
        intro j
        rw [pow_succ', pow_mul, pow_two]
        exact (Int.mod_modEq (x * x) n).pow _
      have hfirst : x * x % n ≡ x ^ 2 ^ (0 + 1) [ZMOD n] := by
        have h := hsq 0
        rwa [pow_zero, pow_one] at h
      simp only [squareLoop, hrem, bind, Except.bind]
      by_cases hneg : x * x % n = n - 1
      · rw [if_pos hneg]
        rw [eq_sub_one_iff (by omega) hnonneg hlt] at hneg
        exact ⟨true, rfl, iff_of_true rfl ⟨0, Nat.succ_pos _, hfirst.symm.trans hneg⟩⟩
      · rw [if_neg hneg]
        by_cases hone : x * x % n = 1
        · rw [if_pos hone]
          refine ⟨false, rfl, iff_of_false Bool.false_ne_true ?_⟩
          intro h
          obtain ⟨j, -, hj⟩ := h
          have hpow := hsq j
          rw [hone, one_pow] at hpow
          exact one_not_modEq_neg_one hn (hpow.trans hj)
        · rw [if_neg hone]
          obtain ⟨found, hfound, hiff⟩ := ih (x := x * x % n)
          refine ⟨found, hfound, hiff.trans ?_⟩
          constructor
          · intro h
            obtain ⟨j, hj, hpow⟩ := h
            exact ⟨j + 1, by omega, (hsq (j + 1)).symm.trans hpow⟩
          · intro h
            obtain ⟨j, hj, hpow⟩ := h
            cases j with
            | zero =>
                refine absurd ?_ hneg
                rw [eq_sub_one_iff (by omega) hnonneg hlt]
                exact hfirst.trans hpow
            | succ j => exact ⟨j, by omega, (hsq (j + 1)).trans hpow⟩

/-- For an odd number the test decides whether it is a strong probable prime to the base. -/
theorem millerRabinTest_eq (hn : 3 ≤ n) (hodd : n % 2 = 1) {a : Int} (ha : 0 ≤ a) :
    ∃ passed, millerRabinTest n a = .ok (some passed) ∧
      (passed = true ↔ StrongProbablePrime n a) := by
  obtain ⟨k, e, hk, he, hhalve⟩ := @halve_eq (n - 1).toNat (by omega) 0
  have hcast : ((n - 1).toNat : Int) = n - 1 := Int.toNat_of_nonneg (by omega)
  have hn1 : n - 1 = 2 ^ k * e := by
    rw [← hcast, hk]
    push_cast
    rfl
  have hk0 : k ≠ 0 := by
    intro h
    rw [h, pow_zero, one_mul] at hk
    have := Nat.odd_iff.mp he
    omega
  have hpow : modularPow a e n = .ok (a ^ e % n) := modularPow_eq ha (by omega)
  have hnonneg : 0 ≤ a ^ e % n := Int.emod_nonneg _ (by omega)
  have hlt : a ^ e % n < n := Int.emod_lt_of_pos _ (by omega)
  have hmod : a ^ e % n ≡ a ^ e [ZMOD n] := Int.mod_modEq _ _
  rw [hcast] at hhalve
  rw [strongProbablePrime_iff hn1 he, millerRabinTest, hhalve]
  simp only [hpow, bind, Except.bind, zero_add]
  by_cases hfirst : a ^ e % n = 1 ∨ a ^ e % n = n - 1
  · rw [if_pos hfirst]
    refine ⟨true, rfl, iff_of_true rfl ?_⟩
    rw [eq_one_iff (by omega) hnonneg hlt, eq_sub_one_iff (by omega) hnonneg hlt] at hfirst
    rcases hfirst with hone | hneg
    · exact .inl (hmod.symm.trans hone)
    · refine .inr ⟨0, Nat.pos_of_ne_zero hk0, ?_⟩
      rw [pow_zero, one_mul]
      exact hmod.symm.trans hneg
  · rw [if_neg hfirst]
    obtain ⟨hone, hneg⟩ := not_or.mp hfirst
    rw [eq_one_iff (by omega) hnonneg hlt] at hone
    rw [eq_sub_one_iff (by omega) hnonneg hlt] at hneg
    obtain ⟨found, hfound, hiff⟩ := @squareLoop_eq n hn ((k : Int) - 1).toNat (a ^ e % n)
    rw [hfound]
    refine ⟨found, rfl, hiff.trans ?_⟩
    have hsquare : ∀ j, (a ^ e % n) ^ 2 ^ j ≡ a ^ (2 ^ j * e) [ZMOD n] := by
      intro j
      rw [mul_comm, pow_mul]
      exact hmod.pow _
    constructor
    · intro h
      obtain ⟨j, hj, hpow⟩ := h
      exact .inr ⟨j + 1, by omega, (hsquare (j + 1)).symm.trans hpow⟩
    · intro h
      rcases h with h | ⟨j, hj, h⟩
      · exact absurd (hmod.trans h) hone
      · cases j with
        | zero =>
            rw [pow_zero, one_mul] at h
            exact absurd (hmod.trans h) hneg
        | succ j => exact ⟨j, by omega, (hsquare (j + 1)).trans h⟩

/-! ### The bases -/

theorem generateRandom_returns {min max : Int} (hrange : 0 < max - min + 1)
    (outputs : List (Vector UInt64 8)) : ∃ drawn, generateRandom min max outputs = .ok drawn := by
  have hloop : ∀ result, ∃ drawn,
      generateRandomLoop min (max - min + 1) result outputs = .ok drawn := by
    induction outputs with
    | nil =>
        intro result
        rw [generateRandomLoop]
        split
        · exact ⟨none, rfl⟩
        · exact ⟨some (result + min), rfl⟩
    | cons words outputs ih =>
        intro result
        rw [generateRandomLoop, rem_drawBits words hrange]
        split
        · exact ih _
        · exact ⟨some (result + min), rfl⟩
  exact hloop 0

/-- The base that an iteration draws is in range. -/
theorem range_of_base (hn : 4 ≤ n) {outputs : List (Vector UInt64 8)} {a : Int}
    (h : generateRandom 2 (n - 2) outputs = .ok (some a)) : 2 ≤ a ∧ a ≤ n - 2 := by
  have hv := (exists_generateRandom_iff (by decide) (by omega)).mp ⟨outputs, h⟩
  rw [if_neg (by decide)] at hv
  omega

/-- The outputs make an iteration draw a base that passes the test. -/
def DrawsLiar (n : Int) (outputs : List (Vector UInt64 8)) : Prop :=
  ∃ a, generateRandom 2 (n - 2) outputs = .ok (some a) ∧ (2 ≤ a ∧ a ≤ n - 2) ∧
    StrongProbablePrime n a

/-- The outputs make an iteration draw a base that does not pass. -/
def DrawsWitness (n : Int) (outputs : List (Vector UInt64 8)) : Prop :=
  ∃ a, generateRandom 2 (n - 2) outputs = .ok (some a) ∧ (2 ≤ a ∧ a ≤ n - 2) ∧
    ¬ StrongProbablePrime n a

/-- One iteration: its base is not drawn, or is tested. -/
theorem testBases_cons (hn : 4 ≤ n) (hodd : n % 2 = 1) (iterations : Nat)
    (outputs : List (Vector UInt64 8)) (draws : List (List (Vector UInt64 8))) :
    (generateRandom 2 (n - 2) outputs = .ok none ∧
        testBases n (iterations + 1) (outputs :: draws) = .ok none) ∨
      (DrawsWitness n outputs ∧
        testBases n (iterations + 1) (outputs :: draws) = .ok (some false)) ∨
      (DrawsLiar n outputs ∧
        testBases n (iterations + 1) (outputs :: draws) = testBases n iterations draws) := by
  obtain ⟨drawn, hdrawn⟩ := generateRandom_returns (show 0 < (n - 2) - 2 + 1 by omega) outputs
  rw [testBases]
  cases drawn with
  | none => exact .inl ⟨hdrawn, by rw [hdrawn]; rfl⟩
  | some a =>
      have hrange := range_of_base hn hdrawn
      obtain ⟨passed, htest, hiff⟩ := @millerRabinTest_eq n (by omega) hodd a (by omega)
      simp only [hdrawn, htest, bind, Except.bind]
      cases passed with
      | false =>
          exact .inr (.inl ⟨⟨a, hdrawn, hrange, fun h => Bool.false_ne_true (hiff.mpr h)⟩, rfl⟩)
      | true => exact .inr (.inr ⟨⟨a, hdrawn, hrange, hiff.mp rfl⟩, rfl⟩)

/-- The loop accepts if and only if every iteration draws a base that passes. -/
theorem testBases_eq_true_iff (hn : 4 ≤ n) (hodd : n % 2 = 1) (iterations : Nat)
    (draws : List (List (Vector UInt64 8))) :
    testBases n iterations draws = .ok (some true) ↔
      iterations ≤ draws.length ∧ ∀ outputs ∈ draws.take iterations, DrawsLiar n outputs := by
  induction iterations generalizing draws with
  | zero => simp [testBases, pure, Except.pure]
  | succ iterations ih =>
      cases draws with
      | nil => simp [testBases, pure, Except.pure]
      | cons outputs draws =>
          rw [List.length_cons, Nat.add_le_add_iff_right, List.take_succ_cons,
            List.forall_mem_cons]
          rcases testBases_cons hn hodd iterations outputs draws with
            ⟨hnone, hloop⟩ | ⟨hwitness, hloop⟩ | ⟨hliar, hloop⟩
          · rw [hloop]
            refine iff_of_false (by simp) ?_
            intro h
            obtain ⟨a, ha, -⟩ := h.2.1
            rw [hnone] at ha
            cases ha
          · rw [hloop]
            refine iff_of_false (by simp) ?_
            intro h
            obtain ⟨a, ha, -, hpass⟩ := h.2.1
            obtain ⟨b, hb, -, hfail⟩ := hwitness
            rw [ha] at hb
            cases hb
            exact hfail hpass
          · rw [hloop, ih]
            simp only [hliar, true_and]

/-- Where all bases pass, the loop accepts or has to draw more. -/
theorem testBases_of_forall_pass (hn : 4 ≤ n) (hodd : n % 2 = 1)
    (hpass : ∀ a, 2 ≤ a → a ≤ n - 2 → StrongProbablePrime n a) (iterations : Nat)
    (draws : List (List (Vector UInt64 8))) :
    testBases n iterations draws = .ok none ∨ testBases n iterations draws = .ok (some true) := by
  induction iterations generalizing draws with
  | zero => exact .inr rfl
  | succ iterations ih =>
      cases draws with
      | nil => exact .inl rfl
      | cons outputs draws =>
          rcases testBases_cons hn hodd iterations outputs draws with
            ⟨-, hloop⟩ | ⟨⟨a, -, hrange, hfail⟩, -⟩ | ⟨-, hloop⟩
          · exact .inl hloop
          · exact absurd (hpass a hrange.1 hrange.2) hfail
          · rw [hloop]
            exact ih draws

/-! ### The small primes -/

theorem smallPrimes_prime : ∀ p ∈ smallPrimes, p.toNat.Prime := by decide

theorem mem_smallPrimes {r : Nat} (hprime : r.Prime) (hle : r ≤ 37) : (r : Int) ∈ smallPrimes := by
  revert hprime
  interval_cases r <;> decide

/-- The loop stops at a number that is `n` or divides it. -/
theorem trialDivision_cases {primes : List Int} (hprimes : ∀ p ∈ primes, p.toNat.Prime) :
    (trialDivision n primes = .ok none ∧ ∀ p ∈ primes, ¬ p ∣ n) ∨
      (trialDivision n primes = .ok (some true) ∧ n ∈ primes) ∨
      (trialDivision n primes = .ok (some false) ∧ ∃ p ∈ primes, n ≠ p ∧ p ∣ n) := by
  induction primes with
  | nil => exact .inl ⟨rfl, by simp⟩
  | cons p primes ih =>
      obtain ⟨hp, hprimes'⟩ := List.forall_mem_cons.mp hprimes
      have hrem : rem n p = .ok (n.tmod p) := by
        have := hp.pos
        exact if_neg (by omega)
      rw [trialDivision]
      by_cases heq : n = p
      · rw [if_pos heq]
        exact .inr (.inl ⟨rfl, by simp [heq]⟩)
      · rw [if_neg heq, hrem]
        simp only [bind, Except.bind]
        by_cases hdvd : p ∣ n
        · rw [if_pos (Int.dvd_iff_tmod_eq_zero.mp hdvd)]
          exact .inr (.inr ⟨rfl, p, by simp, heq, hdvd⟩)
        · rw [if_neg (mt Int.dvd_iff_tmod_eq_zero.mpr hdvd)]
          rcases ih hprimes' with ⟨hloop, hnone⟩ | ⟨hloop, hmem⟩ | ⟨hloop, r, hr, hne, hrn⟩
          · exact .inl ⟨hloop, List.forall_mem_cons.mpr ⟨hdvd, hnone⟩⟩
          · exact .inr (.inl ⟨hloop, List.mem_cons_of_mem p hmem⟩)
          · exact .inr (.inr ⟨hloop, r, List.mem_cons_of_mem p hr, hne, hrn⟩)

/-- The answers that are given without a base are right. Otherwise `n` is odd and the bases are
tested. -/
theorem isPrime_cases (n iterations : Int) (draws : List (List (Vector UInt64 8))) :
    (isPrime n iterations draws = .ok (some (decide n.toNat.Prime))) ∨
      (isPrime n iterations draws = testBases n iterations.toNat draws ∧
        4 ≤ n ∧ n % 2 = 1 ∧ ∀ p ∈ smallPrimes, ¬ p ∣ n) := by
  rw [isPrime]
  by_cases hsmall : n ≤ 1 ∨ n = 4
  · rw [if_pos hsmall]
    have hcomposite : ¬ n.toNat.Prime := by
      rcases hsmall with hle | rfl
      · intro h
        have := h.two_le
        omega
      · decide
    exact .inl (by rw [decide_eq_false hcomposite]; rfl)
  · rw [if_neg hsmall]
    by_cases hthree : n ≤ 3
    · rw [if_pos hthree]
      obtain rfl | rfl : n = 2 ∨ n = 3 := by omega
      · exact .inl rfl
      · exact .inl rfl
    · rw [if_neg hthree]
      rcases @trialDivision_cases n smallPrimes smallPrimes_prime with
        ⟨hloop, hnone⟩ | ⟨hloop, hmem⟩ | ⟨hloop, p, hp, hne, hdvd⟩
      · have htwo := hnone 2 (by decide)
        rw [hloop]
        exact .inr ⟨rfl, by omega, by omega, hnone⟩
      · rw [hloop, decide_eq_true (smallPrimes_prime n hmem)]
        exact .inl rfl
      · have hcomposite : ¬ n.toNat.Prime := by
          intro h
          have hp' := smallPrimes_prime p hp
          have hpos := hp'.pos
          have hdvd' : p.toNat ∣ n.toNat := by
            rw [← Int.natCast_dvd_natCast, Int.toNat_of_nonneg (by omega),
              Int.toNat_of_nonneg (by omega)]
            exact hdvd
          have := (Nat.prime_dvd_prime_iff_eq hp' h).mp hdvd'
          omega
        rw [hloop, decide_eq_false hcomposite]
        exact .inl rfl

/-! ### Primes and composite numbers -/

/-- No prime is rejected, and a prime is accepted as soon as the bases are drawn. -/
theorem isPrime_of_prime (hprime : n.toNat.Prime) (iterations : Int)
    (draws : List (List (Vector UInt64 8))) :
    (isPrime n iterations draws = .ok none ∨ isPrime n iterations draws = .ok (some true)) ∧
      (iterations ≤ draws.length →
        (∀ outputs ∈ draws, ∃ a, generateRandom 2 (n - 2) outputs = .ok (some a)) →
        isPrime n iterations draws = .ok (some true)) := by
  have hpos := hprime.pos
  have hpass : ∀ a, 2 ≤ a → a ≤ n - 2 → StrongProbablePrime n a := by
    intro a h2 hle
    have : Fact n.toNat.Prime := ⟨hprime⟩
    have hn : (n.toNat : Int) = n := Int.toNat_of_nonneg (by omega)
    rw [← hn]
    exact strongProbablePrime_of_prime (cast_ne_zero_of_lt (by omega) (by omega))
  rcases isPrime_cases n iterations draws with hanswer | ⟨hloop, hn, hodd, -⟩
  · rw [hanswer, decide_eq_true hprime]
    exact ⟨.inr rfl, fun _ _ => rfl⟩
  · rw [hloop]
    refine ⟨testBases_of_forall_pass hn hodd hpass iterations.toNat draws, ?_⟩
    intro hlength hdrawn
    rw [testBases_eq_true_iff hn hodd]
    refine ⟨by omega, ?_⟩
    intro outputs hmem
    obtain ⟨a, ha⟩ := hdrawn outputs (List.mem_of_mem_take hmem)
    have hrange := range_of_base hn ha
    exact ⟨a, ha, hrange, hpass a hrange.1 hrange.2⟩

/-- A composite number that is accepted has no small prime factor, and every base that is drawn is
a strong liar. -/
theorem isPrime_of_composite (hcomposite : ¬ n.toNat.Prime) {iterations : Int}
    {draws : List (List (Vector UInt64 8))} (h : isPrime n iterations draws = .ok (some true)) :
    (∀ r : Nat, r.Prime → r ≤ 37 → ¬ (r : Int) ∣ n) ∧ iterations.toNat ≤ draws.length ∧
      ∀ outputs ∈ draws.take iterations.toNat, DrawsLiar n outputs := by
  rcases isPrime_cases n iterations draws with hanswer | ⟨hloop, hn, hodd, hnone⟩
  · rw [hanswer, decide_eq_false hcomposite] at h
    cases h
  · rw [hloop, testBases_eq_true_iff hn hodd] at h
    exact ⟨fun r hr hle => hnone r (mem_smallPrimes hr hle), h⟩

end Test

/-- The test for one base decides the strong test. So every prime passes for all bases, and a
composite number is accepted only if it has no prime factor up to 37 and every base that is drawn
is a strong liar. -/
theorem millerRabin_exact :
    (∀ n a : Int, 3 ≤ n → n % 2 = 1 → 1 ≤ a → a ≤ n - 1 →
      ∃ passed, millerRabinTest n a = .ok (some passed) ∧
        (passed = true ↔ StrongProbablePrime n a)) ∧
    (∀ (n iterations : Int) (draws : List (List (Vector UInt64 8))), n.toNat.Prime →
      (isPrime n iterations draws = .ok none ∨ isPrime n iterations draws = .ok (some true)) ∧
        (iterations ≤ draws.length →
          (∀ outputs ∈ draws, ∃ a, generateRandom 2 (n - 2) outputs = .ok (some a)) →
          isPrime n iterations draws = .ok (some true))) ∧
    (∀ (n iterations : Int) (draws : List (List (Vector UInt64 8))), ¬ n.toNat.Prime →
      isPrime n iterations draws = .ok (some true) →
      (∀ r : Nat, r.Prime → r ≤ 37 → ¬ (r : Int) ∣ n) ∧ iterations.toNat ≤ draws.length ∧
        ∀ outputs ∈ draws.take iterations.toNat, DrawsLiar n outputs) :=
  ⟨fun _ _ hn hodd ha _ => millerRabinTest_eq hn hodd (by omega),
    fun _ iterations draws hprime => isPrime_of_prime hprime iterations draws,
    fun _ _ _ hcomposite => isPrime_of_composite hcomposite⟩

/-- The base 8 for 9, the prime 41, and the square 1681 of 41 with its strong liar 51. -/
theorem millerRabin_exact_small :
    (∃ passed, millerRabinTest 9 8 = .ok (some passed) ∧
      (passed = true ↔ StrongProbablePrime 9 8)) ∧
    isPrime 41 1 [[#v[0, 0, 0, 0, 0, 0, 0, 2]]] = .ok (some true) ∧
    DrawsLiar 1681 [#v[0, 0, 0, 0, 0, 0, 0, 49]] := by
  have hliar : StrongProbablePrime 1681 51 :=
    ⟨4, 105, by decide, by decide, .inl (by decide)⟩
  have hdraw : generateRandom 2 (1681 - 2) [#v[0, 0, 0, 0, 0, 0, 0, 49]] = .ok (some 51) := by
    decide
  have haccepts : isPrime 1681 1 [[#v[0, 0, 0, 0, 0, 0, 0, 49]]] = .ok (some true) := by
    have hloop : isPrime 1681 1 [[#v[0, 0, 0, 0, 0, 0, 0, 49]]] =
        testBases 1681 1 [[#v[0, 0, 0, 0, 0, 0, 0, 49]]] := rfl
    rw [hloop, testBases_eq_true_iff (by decide) (by decide)]
    refine ⟨by decide, ?_⟩
    intro outputs hmem
    rw [List.mem_singleton.mp hmem]
    exact ⟨51, hdraw, by decide, hliar⟩
  have hcomposite : ¬ (1681 : Int).toNat.Prime :=
    Nat.not_prime_of_dvd_of_lt (show 41 ∣ 1681 by decide) (by decide) (by decide)
  refine ⟨millerRabin_exact.1 9 8 (by decide) (by decide) (by decide) (by decide), ?_, ?_⟩
  · refine (millerRabin_exact.2.1 41 1 [[#v[0, 0, 0, 0, 0, 0, 0, 2]]] (by decide)).2 (by decide) ?_
    intro outputs hmem
    rw [List.mem_singleton.mp hmem]
    exact ⟨4, by decide⟩
  · have hall := (millerRabin_exact.2.2 1681 1 _ hcomposite haccepts).2.2
    exact hall _ (by simp)

end Silence.Crypto
