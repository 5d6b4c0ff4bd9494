import Silence.Crypto.Sha256
import Silence.Spec.Fips180
import Mathlib.Tactic

/-!
# Silence.Crypto.Sha256Compress

`transform` is the compression of FIPS 180-4.

The words of the class are `UInt32`, those of the standard `BitVec 32`; every
operation is carried over by `UInt32.toBitVec`. The two loops are invariants
over the number of iterations done: `messageSchedule` has filled the words of
the standard's schedule, `rounds` holds the standard's working variables.
-/

namespace Silence.Crypto.Sha256

open Silence.Lib Silence.Spec

/-! ### Word operations -/

theorem toBitVec_rotr (x bits : UInt32) (hpos : 0 < bits.toNat) (hlt : bits.toNat < 32) :
    (rotr x bits).toBitVec = x.toBitVec.rotateRight bits.toNat := by
  simp [rotr, BitVec.rotateRight_def, Nat.mod_eq_of_lt hlt]
  congr 2
  omega

theorem toBitVec_ch (x y z : UInt32) :
    (ch x y z).toBitVec = Fips180.ch x.toBitVec y.toBitVec z.toBitVec := rfl

theorem toBitVec_maj (x y z : UInt32) :
    (maj x y z).toBitVec = Fips180.maj x.toBitVec y.toBitVec z.toBitVec := rfl

theorem toBitVec_ep0 (x : UInt32) : (ep0 x).toBitVec = Fips180.bigSigma0 x.toBitVec := by
  rw [ep0, UInt32.toBitVec_xor, UInt32.toBitVec_xor, toBitVec_rotr x 2 (by decide) (by decide),
    toBitVec_rotr x 13 (by decide) (by decide), toBitVec_rotr x 22 (by decide) (by decide)]
  rfl

theorem toBitVec_ep1 (x : UInt32) : (ep1 x).toBitVec = Fips180.bigSigma1 x.toBitVec := by
  rw [ep1, UInt32.toBitVec_xor, UInt32.toBitVec_xor, toBitVec_rotr x 6 (by decide) (by decide),
    toBitVec_rotr x 11 (by decide) (by decide), toBitVec_rotr x 25 (by decide) (by decide)]
  rfl

theorem toBitVec_sig0 (x : UInt32) : (sig0 x).toBitVec = Fips180.smallSigma0 x.toBitVec := by
  rw [sig0, UInt32.toBitVec_xor, UInt32.toBitVec_xor, toBitVec_rotr x 7 (by decide) (by decide),
    toBitVec_rotr x 18 (by decide) (by decide)]
  rfl

theorem toBitVec_sig1 (x : UInt32) : (sig1 x).toBitVec = Fips180.smallSigma1 x.toBitVec := by
  rw [sig1, UInt32.toBitVec_xor, UInt32.toBitVec_xor, toBitVec_rotr x 17 (by decide) (by decide),
    toBitVec_rotr x 19 (by decide) (by decide)]
  rfl

/-! ### Message schedule -/

/-- Four bytes combined by shifts are the four bytes side by side. -/
theorem toBitVec_bytes (a b c d : UInt8) :
    ((a.toUInt32 <<< 24) ||| (b.toUInt32 <<< 16) ||| (c.toUInt32 <<< 8) ||| d.toUInt32).toBitVec =
      a.toBitVec ++ b.toBitVec ++ c.toBitVec ++ d.toBitVec := by
  have ha := a.toNat_lt
  have hb := b.toNat_lt
  have hc := c.toNat_lt
  have hd := d.toNat_lt
  have hsmall : ∀ (n s : Nat), n < 2 ^ 8 → s ≤ 24 → n <<< s < 4294967296 := by
    intro n s hn hs
    calc n <<< s = n * 2 ^ s := Nat.shiftLeft_eq n s
      _ < 2 ^ 8 * 2 ^ s := Nat.mul_lt_mul_of_pos_right hn (Nat.two_pow_pos s)
      _ ≤ 2 ^ 8 * 2 ^ 24 := Nat.mul_le_mul_left _ (Nat.pow_le_pow_right (by decide) hs)
  have hshifts : a.toNat <<< 24 % 4294967296 ||| b.toNat <<< 16 % 4294967296 |||
      c.toNat <<< 8 % 4294967296 ||| d.toNat =
        ((a.toNat <<< 8 ||| b.toNat) <<< 8 ||| c.toNat) <<< 8 ||| d.toNat := by
    rw [Nat.mod_eq_of_lt (hsmall _ 24 ha (by decide)),
      Nat.mod_eq_of_lt (hsmall _ 16 hb (by decide)),
      Nat.mod_eq_of_lt (hsmall _ 8 hc (by decide))]
    simp only [Nat.shiftLeft_or_distrib, ← Nat.shiftLeft_add]
  apply BitVec.eq_of_toNat_eq
  simp only [UInt32.toBitVec_or, UInt32.toBitVec_shiftLeft, BitVec.toNat_or, BitVec.toNat_append]
  simpa using hshifts

/-- Word `i` of a buffer. -/
theorem toBitVec_loadWord (buffer : Bytes) {i : Nat} (hi : i < 16) :
    (loadWord (blockAt buffer) i hi).toBitVec = Fips180.blockWord buffer i := by
  have hbyte : ∀ j (hj : j < 4), (blockAt buffer)[i * 4 + j] = buffer.getD (4 * i + j) 0 := by
    intro j hj
    simp [blockAt, Nat.mul_comm]
  have h0 : (blockAt buffer)[i * 4] = buffer.getD (4 * i + 0) 0 := hbyte 0 (by decide)
  rw [loadWord, toBitVec_bytes, h0, hbyte 1 (by decide), hbyte 2 (by decide), hbyte 3 (by decide)]
  rfl

/-- The first 16 words of the standard's schedule are the words of the block. -/
theorem schedule_of_lt (buffer : Bytes) {t : Nat} (ht : t < 16) :
    Fips180.schedule buffer t = Fips180.blockWord buffer t := by
  rw [Fips180.schedule, if_pos ht]

/-- The recurrence of the other words. -/
theorem schedule_of_ge (buffer : Bytes) {t : Nat} (ht : 16 ≤ t) :
    Fips180.schedule buffer t =
      Fips180.smallSigma1 (Fips180.schedule buffer (t - 2)) + Fips180.schedule buffer (t - 7) +
        Fips180.smallSigma0 (Fips180.schedule buffer (t - 15)) +
        Fips180.schedule buffer (t - 16) := by
  rw [Fips180.schedule, if_neg (Nat.not_lt.mpr ht)]

/-- The first `n` words of the array are those of the standard's schedule. -/
def ScheduledTo (buffer : Bytes) (n : Nat) (w : Vector UInt32 64) : Prop :=
  ∀ t (ht : t < 64), t < n → w[t].toBitVec = Fips180.schedule buffer t

theorem scheduledTo_loadWords (buffer : Bytes) :
    ScheduledTo buffer 16 (loadWords (blockAt buffer)) := by
  intro t ht hlt
  rw [schedule_of_lt buffer hlt, ← toBitVec_loadWord buffer hlt]
  simp [loadWords, hlt]

/-- One iteration of the second loop fills one more word. -/
theorem scheduledTo_extendStep {buffer : Bytes} {i : Nat} (hi : 16 ≤ i ∧ i < 64)
    {w : Vector UInt32 64} (hw : ScheduledTo buffer i w) :
    ScheduledTo buffer (i + 1) (extendStep i hi w) := by
  intro t ht hlt
  rcases Nat.lt_succ_iff_lt_or_eq.mp hlt with hold | rfl
  · rw [← hw t ht hold, extendStep, Vector.getElem_set_ne _ _ (Nat.ne_of_gt hold)]
  · rw [schedule_of_ge buffer hi.1, extendStep, Vector.getElem_set_self]
    simp only [UInt32.toBitVec_add, toBitVec_sig0, toBitVec_sig1]
    rw [hw _ (by omega) (by omega), hw _ (by omega) (by omega), hw _ (by omega) (by omega),
      hw _ (by omega) (by omega)]

theorem scheduledTo_messageSchedule (buffer : Bytes) :
    ScheduledTo buffer 64 (messageSchedule (blockAt buffer)) := by
  suffices h : ∀ n (hn : n ≤ 48), ScheduledTo buffer (n + 16)
      (Nat.fold n (fun k hk w => extendStep (k + 16) (by omega) w)
        (loadWords (blockAt buffer))) from
    h 48 (Nat.le_refl 48)
  intro n hn
  induction n with
  | zero => exact scheduledTo_loadWords buffer
  | succ n ih =>
      rw [Nat.fold_succ]
      have := scheduledTo_extendStep (i := n + 16) (by omega) (ih (by omega))
      rwa [Nat.add_right_comm] at this

/-! ### Round constants and initial hash value -/

/-- The integer part of `2 ^ 32 * x` holds the first 32 bits of the fraction. -/
theorem fracBits_eq {x : ℝ} {a : Nat} (hlow : (a : ℝ) ≤ 2 ^ 32 * x) (hhigh : 2 ^ 32 * x < a + 1) :
    Fips180.fracBits x = BitVec.ofNat 32 a := by
  have hfloor : ⌊Int.fract x * 2 ^ 32⌋ = (a : ℤ) - ⌊x⌋ * 2 ^ 32 := by
    rw [Int.floor_eq_iff]
    have hfract : Int.fract x = x - ⌊x⌋ := rfl
    push_cast
    constructor <;> · rw [hfract]; linarith
  have hwhole : BitVec.ofInt 32 (2 ^ 32) = 0#32 := by decide
  rw [Fips180.fracBits, hfloor, sub_eq_add_neg, ← neg_mul, BitVec.ofInt_add, BitVec.ofInt_mul,
    hwhole, BitVec.mul_zero, BitVec.add_zero, BitVec.ofInt_natCast]

/-- The fraction bits of a `k`-th root, from a bound between two powers. -/
theorem fracBits_root {k p a : Nat} {x : ℝ} (hk : k ≠ 0) (hx : 0 ≤ x) (hroot : x ^ k = p)
    (hlow : a ^ k ≤ p * 2 ^ (32 * k)) (hhigh : p * 2 ^ (32 * k) < (a + 1) ^ k) :
    Fips180.fracBits x = BitVec.ofNat 32 a := by
  have hpow : (2 ^ 32 * x) ^ k = ((p * 2 ^ (32 * k) : Nat) : ℝ) := by
    rw [mul_pow, hroot, ← pow_mul]
    push_cast
    ring
  have hx' : 0 ≤ 2 ^ 32 * x := by positivity
  apply fracBits_eq
  · rw [← pow_le_pow_iff_left₀ (by positivity) hx' hk, hpow]
    exact_mod_cast hlow
  · rw [← pow_lt_pow_iff_left₀ hx' (by positivity) hk, hpow]
    exact_mod_cast hhigh

/-- The first 64 primes. -/
def firstPrimes : Vector Nat 64 := #v[
    2, 3, 5, 7, 11, 13, 17, 19, 23, 29, 31, 37, 41, 43, 47, 53,
    59, 61, 67, 71, 73, 79, 83, 89, 97, 101, 103, 107, 109, 113, 127, 131,
    137, 139, 149, 151, 157, 163, 167, 173, 179, 181, 191, 193, 197, 199, 211, 223,
    227, 229, 233, 239, 241, 251, 257, 263, 269, 271, 277, 281, 283, 293, 307, 311]

/-- Trial division by the numbers below 18. -/
def NoDivisor (n : Nat) : Prop := 2 ≤ n ∧ ∀ m < 18, 2 ≤ m → m < n → n % m ≠ 0

instance : DecidablePred NoDivisor := fun n =>
  inferInstanceAs (Decidable (2 ≤ n ∧ ∀ m < 18, 2 ≤ m → m < n → n % m ≠ 0))

theorem prime_iff_noDivisor {n : Nat} (hn : n < 18 * 18) : n.Prime ↔ NoDivisor n := by
  constructor
  · intro hprime
    refine ⟨hprime.two_le, fun m _ h2 hlt hmod => ?_⟩
    rcases hprime.eq_one_or_self_of_dvd m (Nat.dvd_of_mod_eq_zero hmod) with hone | hself <;> omega
  · intro h
    by_contra hnot
    have hsq := Nat.minFac_sq_le_self (by have := h.1; omega) hnot
    have hsmall : n.minFac < 18 := lt_of_pow_lt_pow_left₀ 2 (by decide) (by omega)
    have htwo : 2 ≤ n.minFac := (Nat.minFac_prime (by have := h.1; omega)).two_le
    exact h.2 n.minFac hsmall htwo ((Nat.not_prime_iff_minFac_lt h.1).mp hnot)
      (Nat.mod_eq_zero_of_dvd (Nat.minFac_dvd n))

/-- Between two neighbours of the table there is no other number that passes. -/
theorem count_between (t : Fin 63) : firstPrimes[t.castSucc] ≤ firstPrimes[t.succ] ∧
    Nat.count (fun n => NoDivisor (firstPrimes[t.castSucc] + n))
      (firstPrimes[t.succ] - firstPrimes[t.castSucc]) = 1 := by
  revert t
  decide +kernel

theorem firstPrimes_spec (t : Fin 64) : firstPrimes[t] < 18 * 18 ∧ NoDivisor firstPrimes[t] := by
  revert t
  decide +kernel

theorem count_firstPrimes (t : Fin 64) : Nat.count Nat.Prime firstPrimes[t] = t := by
  have hsame : Nat.count Nat.Prime firstPrimes[t] = Nat.count NoDivisor firstPrimes[t] :=
    Nat.le_antisymm
      (Nat.count_mono_left fun n hn =>
        (prime_iff_noDivisor (hn.trans (firstPrimes_spec t).1)).mp)
      (Nat.count_mono_left fun n hn =>
        (prime_iff_noDivisor (hn.trans (firstPrimes_spec t).1)).mpr)
  rw [hsame]
  clear hsame
  induction t using Fin.induction with
  | zero => decide
  | succ t ih =>
      obtain ⟨hle, hone⟩ := count_between t
      rw [← Nat.add_sub_cancel' hle, Nat.count_add, ih, hone]
      rfl

theorem nth_prime_eq (t : Fin 64) : Nat.nth Nat.Prime t = firstPrimes[t] := by
  have hprime : firstPrimes[t].Prime :=
    (prime_iff_noDivisor (firstPrimes_spec t).1).mpr (firstPrimes_spec t).2
  rw [← Nat.nth_count hprime, count_firstPrimes]

/-- Whole multiples of `2 ^ 32` do not show in a word. -/
theorem ofNat_add_toNat (i : Nat) (w : UInt32) :
    BitVec.ofNat 32 (i * 2 ^ 32 + w.toNat) = w.toBitVec := by
  apply BitVec.eq_of_toNat_eq
  rw [BitVec.toNat_ofNat, Nat.mul_comm, Nat.mul_add_mod, Nat.mod_eq_of_lt w.toNat_lt]
  rfl

/-- The entry of `K` for a prime follows the integer part of its cube root. -/
theorem K_bounds (t : Fin 64) : ∃ i : Fin 7,
    (i * 2 ^ 32 + K[t].toNat) ^ 3 ≤ firstPrimes[t] * 2 ^ (32 * 3) ∧
      firstPrimes[t] * 2 ^ (32 * 3) < (i * 2 ^ 32 + K[t].toNat + 1) ^ 3 := by
  revert t
  decide +kernel

/-- The table `K` holds the standard's round constants. -/
theorem toBitVec_K (t : Nat) (ht : t < 64) : K[t].toBitVec = Fips180.roundConstant t := by
  obtain ⟨i, hlow, hhigh⟩ := K_bounds ⟨t, ht⟩
  have hprime : Nat.nth Nat.Prime t = firstPrimes[t] := nth_prime_eq ⟨t, ht⟩
  have hroot : ((firstPrimes[t] : ℝ) ^ (1 / 3 : ℝ)) ^ 3 = firstPrimes[t] := by
    rw [← Real.rpow_natCast, ← Real.rpow_mul (by positivity)]
    norm_num
  rw [Fips180.roundConstant, hprime,
    fracBits_root (by decide) (by positivity) hroot hlow hhigh]
  exact (ofNat_add_toNat i _).symm

theorem initialState_bounds (i : Fin 8) : ∃ j : Fin 5,
    (j * 2 ^ 32 + initialState[i].toNat) ^ 2 ≤ firstPrimes[i] * 2 ^ (32 * 2) ∧
      firstPrimes[i] * 2 ^ (32 * 2) < (j * 2 ^ 32 + initialState[i].toNat + 1) ^ 2 := by
  revert i
  decide +kernel

/-- The constructor starts from the standard's initial hash value. -/
theorem toBitVec_initialState : initialState.map UInt32.toBitVec = Fips180.initialHash := by
  ext i hi : 1
  obtain ⟨j, hlow, hhigh⟩ := initialState_bounds ⟨i, hi⟩
  have hprime : Nat.nth Nat.Prime i = firstPrimes[i] := nth_prime_eq ⟨i, by omega⟩
  have hroot : √(firstPrimes[i] : ℝ) ^ 2 = firstPrimes[i] := Real.sq_sqrt (by positivity)
  simp only [Fips180.initialHash, Vector.getElem_map, Vector.getElem_ofFn]
  rw [hprime, fracBits_root (by decide) (by positivity) hroot hlow hhigh]
  exact (ofNat_add_toNat j _).symm

/-! ### The compression -/

/-- The working variables of the standard that the local variables stand for. -/
def Working.toSpec (s : Working) : Fips180.Working :=
  ⟨s.a.toBitVec, s.b.toBitVec, s.c.toBitVec, s.d.toBitVec, s.e.toBitVec, s.f.toBitVec,
    s.g.toBitVec, s.h.toBitVec⟩

/-- One round of the main loop is one round of the standard. -/
theorem toSpec_round (k w : UInt32) (s : Working) :
    (round k w s).toSpec =
      let v := s.toSpec
      let T₁ := v.h + Fips180.bigSigma1 v.e + Fips180.ch v.e v.f v.g + k.toBitVec + w.toBitVec
      let T₂ := Fips180.bigSigma0 v.a + Fips180.maj v.a v.b v.c
      ⟨T₁ + T₂, v.a, v.b, v.c, v.d + T₁, v.e, v.f, v.g⟩ := by
  simp only [round, Working.toSpec, UInt32.toBitVec_add, toBitVec_ep0, toBitVec_ep1, toBitVec_ch,
    toBitVec_maj]

/-- After `n` rounds the local variables are the standard's working variables
before round `n`. -/
theorem toSpec_rounds {H : Fips180.HashValue} {buffer : Bytes} {w : Vector UInt32 64}
    (hw : ScheduledTo buffer 64 w) {s : Working} (hs : s.toSpec = Fips180.working H buffer 0)
    (n : Nat) (hn : n ≤ 64) : (rounds w n hn s).toSpec = Fips180.working H buffer n := by
  induction n with
  | zero => exact hs
  | succ n ih =>
      have hround := toSpec_round K[n] w[n] (rounds w n (by omega) s)
      rw [ih, toBitVec_K n hn, hw n hn hn] at hround
      rw [rounds, Nat.fold_succ]
      exact hround

theorem map_addTo (state : HashState) (s : Working) :
    (addTo state s).map UInt32.toBitVec = s.toSpec.addTo (state.map UInt32.toBitVec) := by
  simp [addTo, Working.toSpec, Fips180.Working.addTo, Vector.get,
    UInt32.toBitVec_add, BitVec.add_comm]

/-- `transform` is the compression of the standard, for every state and every
64 bytes. -/
theorem toBitVec_transform (state : HashState) (buffer : Bytes) :
    (transform state (blockAt buffer)).map UInt32.toBitVec =
      Fips180.compress (state.map UInt32.toBitVec) buffer := by
  have hload : (load state).toSpec = Fips180.working (state.map UInt32.toBitVec) buffer 0 := by
    simp [load, Working.toSpec, Fips180.working, Vector.get]
  have hrounds := toSpec_rounds (scheduledTo_messageSchedule buffer) hload 64 (Nat.le_refl 64)
  exact (map_addTo state _).trans (congrArg (Fips180.Working.addTo · _) hrounds)

/-- A block is what is read off its 64 bytes. -/
theorem blockAt_toList (block : Block) : blockAt block.toList = block := by
  refine Vector.ext fun i hi => ?_
  simp [blockAt]

/-- `transform` replaces the state by the standard's compression of it with the block, and the
table that it reads holds the first 32 bits of the fractional parts of the cube roots of the
first 64 primes. -/
theorem transform_fips180 (state : HashState) (block : Block) :
    (transform state block).map UInt32.toBitVec =
        Fips180.compress (state.map UInt32.toBitVec) block.toList ∧
      ∀ t (ht : t < 64), K[t].toBitVec =
        Fips180.fracBits ((Nat.nth Nat.Prime t : ℝ) ^ (1 / 3 : ℝ)) := by
  refine ⟨?_, toBitVec_K⟩
  rw [← toBitVec_transform, blockAt_toList]

end Silence.Crypto.Sha256
