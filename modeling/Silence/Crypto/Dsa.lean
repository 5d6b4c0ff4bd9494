import Silence.Crypto.CryptoUtils
import Silence.Lib.PrimeField

/-!
# Silence.Crypto.Dsa

The class `DSA` of `crypto/src/dsa.cpp`, and that a signature verifies.

What `generate_random` returns, the private key in the constructor and the
nonces in `sign`, is an argument. `sign` retries until the signature is not 0;
it is given the list of nonces it draws and has no result while it needs more.
-/

namespace Silence.Crypto

open Silence.Lib

structure DSA where
  p : Int
  q : Int
  g : Int
  keys : KeyPair

namespace DSA

/-- The constructor. -/
def new (isPrime : Int → Bool) (primeModulus primeDivisor generator privateKey : Int) :
    Except CryptoError DSA := do
  if !(← validateDsaParameters isPrime primeModulus primeDivisor generator) then
    throw (.invalidArgument "Invalid DSA parameters")
  let publicKey ← modularPow generator privateKey primeModulus
  return ⟨primeModulus, primeDivisor, generator, ⟨privateKey, publicKey⟩⟩

/-- `sign` with the nonces that it draws, in order. -/
def sign (self : DSA) (messageHash : Int) : List Int → Except CryptoError (Option DSASignature)
  | [] => return none
  | k :: nonces => do
      let r ← rem (← modularPow self.g k self.p) self.q
      if r = 0 then sign self messageHash nonces
      else
        let kInv ← modularPow k (self.q - 2) self.q
        let signature ← rem (kInv * (messageHash + self.keys.privateKey * r)) self.q
        -- the loop condition: a signature of 0 is drawn again
        if signature = 0 then sign self messageHash nonces
        else return some ⟨r, signature⟩

def verify (self : DSA) (messageHash : Int) (signature : DSASignature) (signerPublicKey : Int) :
    Except CryptoError Bool :=
  if signature.r ≤ 0 ∨ signature.r ≥ self.q ∨ signature.signature ≤ 0 ∨
      signature.signature ≥ self.q then .ok false
  else do
    let w ← modularPow signature.signature (self.q - 2) self.q
    let u1 ← rem (messageHash * w) self.q
    let u2 ← rem (signature.r * w) self.q
    let gu1 ← modularPow self.g u1 self.p
    let yu2 ← modularPow signerPublicKey u2 self.p
    let v ← rem (← rem (gu1 * yu2) self.p) self.q
    return v == signature.r

/-! ### What signing and verifying compute -/

/-- What the constructor returns. -/
theorem new_eq_ok {isPrime : Int → Bool} {p q g x : Int} {self : DSA}
    (h : new isPrime p q g x = .ok self) :
    2 ≤ g ∧ g < p ∧ g ^ q.toNat % p = 1 ∧ self = ⟨p, q, g, ⟨x, g ^ x.toNat % p⟩⟩ := by
  cases hv : validateDsaParameters isPrime p q g with
  | error e => simp [new, hv, bind, Except.bind] at h
  | ok b =>
      cases b with
      | false => simp [new, hv, bind, Except.bind, throw, throwThe, MonadExceptOf.throw] at h
      | true =>
          obtain ⟨hg, hlt, horder⟩ := spec_of_validateDsaParameters hv
          have hkey : modularPow g x p = .ok (g ^ x.toNat % p) :=
            modularPow_eq (by omega) (by omega)
          simp [new, hv, hkey, bind, Except.bind, pure, Except.pure] at h
          exact ⟨hg, hlt, horder, h.symm⟩

/-- The value `r` that a nonce gives. -/
def commitment (self : DSA) (k : Int) : Int := self.g ^ k.toNat % self.p % self.q

/-- The value `s` that a nonce gives for a hash. -/
def response (self : DSA) (h k : Int) : Int :=
  k ^ (self.q - 2).toNat % self.q * (h + self.keys.privateKey * self.commitment k) % self.q

/-- One iteration of the loop of `sign`. -/
theorem sign_cons {self : DSA} (hp : 0 < self.p) (hq : 0 < self.q) (hg : 0 ≤ self.g)
    (hx : 0 ≤ self.keys.privateKey) {h k : Int} (hh : 0 ≤ h) (hk : 0 ≤ k) (nonces : List Int) :
    self.sign h (k :: nonces) =
      if self.commitment k = 0 ∨ self.response h k = 0 then self.sign h nonces
      else .ok (some ⟨self.commitment k, self.response h k⟩) := by
  have hpow : 0 ≤ self.g ^ k.toNat % self.p := Int.emod_nonneg _ (Int.ne_of_gt hp)
  have hcommit : rem (self.g ^ k.toNat % self.p) self.q = .ok (self.commitment k) :=
    rem_eq_emod hpow hq
  have hr : 0 ≤ self.commitment k := Int.emod_nonneg _ (Int.ne_of_gt hq)
  have hinv : 0 ≤ k ^ (self.q - 2).toNat % self.q := Int.emod_nonneg _ (Int.ne_of_gt hq)
  have hresponse : rem (k ^ (self.q - 2).toNat % self.q *
      (h + self.keys.privateKey * self.commitment k)) self.q = .ok (self.response h k) :=
    rem_eq_emod (Int.mul_nonneg hinv (Int.add_nonneg hh (Int.mul_nonneg hx hr))) hq
  simp only [sign, modularPow_eq hg hp, bind, Except.bind, hcommit, modularPow_eq hk hq, hresponse]
  by_cases hr0 : self.commitment k = 0
  · rw [if_pos hr0, if_pos (Or.inl hr0)]
  · by_cases hs0 : self.response h k = 0
    · rw [if_neg hr0, if_pos hs0, if_pos (Or.inr hs0)]
    · rw [if_neg hr0, if_neg hs0, if_neg (not_or.mpr ⟨hr0, hs0⟩)]
      rfl

/-- A signature comes from one of the nonces. The induction is on the nonces
drawn. -/
theorem sign_eq_some {self : DSA} (hp : 0 < self.p) (hq : 0 < self.q) (hg : 0 ≤ self.g)
    (hx : 0 ≤ self.keys.privateKey) {h : Int} (hh : 0 ≤ h) {nonces : List Int}
    (hnonces : ∀ k ∈ nonces, 0 ≤ k) {sig : DSASignature}
    (hsign : self.sign h nonces = .ok (some sig)) :
    ∃ k ∈ nonces, self.commitment k ≠ 0 ∧ self.response h k ≠ 0 ∧
      sig = ⟨self.commitment k, self.response h k⟩ := by
  induction nonces with
  | nil => simp [sign, pure, Except.pure] at hsign
  | cons k nonces ih =>
      rw [sign_cons hp hq hg hx hh (hnonces k (by simp))] at hsign
      by_cases hretry : self.commitment k = 0 ∨ self.response h k = 0
      · rw [if_pos hretry] at hsign
        obtain ⟨j, hj, hsig⟩ := ih (fun j hj => hnonces j (by simp [hj])) hsign
        exact ⟨j, by simp [hj], hsig⟩
      · rw [if_neg hretry] at hsign
        obtain ⟨hr, hs⟩ := not_or.mp hretry
        exact ⟨k, by simp, hr, hs, by simpa using hsign.symm⟩

/-- The value that `verify` compares with `r`. -/
def recover (self : DSA) (h y : Int) (sig : DSASignature) : Int :=
  let w := sig.signature ^ (self.q - 2).toNat % self.q
  (self.g ^ (h * w % self.q).toNat % self.p * (y ^ (sig.r * w % self.q).toNat % self.p)) %
    self.p % self.q

theorem verify_eq {self : DSA} (hp : 0 < self.p) (hq : 0 < self.q) (hg : 0 ≤ self.g)
    {h y : Int} (hh : 0 ≤ h) (hy : 0 ≤ y) {sig : DSASignature}
    (hr : 0 < sig.r ∧ sig.r < self.q) (hs : 0 < sig.signature ∧ sig.signature < self.q) :
    self.verify h sig y = .ok (self.recover h y sig == sig.r) := by
  have hneq := Int.ne_of_gt hq
  have hnep := Int.ne_of_gt hp
  have hw : 0 ≤ sig.signature ^ (self.q - 2).toNat % self.q := Int.emod_nonneg _ hneq
  have hrange : ¬ (sig.r ≤ 0 ∨ sig.r ≥ self.q ∨ sig.signature ≤ 0 ∨ sig.signature ≥ self.q) := by
    omega
  simp only [verify, if_neg hrange, modularPow_eq hs.1.le hq, bind, Except.bind,
    rem_eq_emod (Int.mul_nonneg hh hw) hq, rem_eq_emod (Int.mul_nonneg hr.1.le hw) hq,
    modularPow_eq hg hp, modularPow_eq hy hp]
  rw [rem_eq_emod (Int.mul_nonneg (Int.emod_nonneg _ hnep) (Int.emod_nonneg _ hnep)) hp]
  simp only [rem_eq_emod (Int.emod_nonneg _ hnep) hq]
  rfl

/-! ### Correctness -/

/-- The exponent that `verify` reaches is the nonce. -/
theorem exponent_eq {q : Nat} [Fact q.Prime] {h x r k s : Int} (hk : (k : ZMod q) ≠ 0)
    (hs : s = k ^ (q - 2) % q * (h + x * r) % q) (hs0 : (s : ZMod q) ≠ 0) :
    ((h * (s ^ (q - 2) % q) % q + x * (r * (s ^ (q - 2) % q) % q) : Int) : ZMod q) = k := by
  have hsk : (s : ZMod q) = (k : ZMod q) ^ (q - 2) * (h + x * r) := by
    rw [hs]
    push_cast [ZMod.intCast_mod]
    rfl
  push_cast [ZMod.intCast_mod]
  calc (h : ZMod q) * s ^ (q - 2) + x * (r * s ^ (q - 2))
      = (k * k ^ (q - 2)) * ((h + x * r) * s ^ (q - 2)) := by
        rw [mul_pow_sub_two hk, one_mul]
        ring
    _ = k * (s * s ^ (q - 2)) := by rw [hsk]; ring
    _ = k := by rw [mul_pow_sub_two hs0, mul_one]

/-- Powers of a base of order dividing `q` whose exponents agree modulo `q`. -/
theorem recover_pow {p q : Nat} {g u1 u2 x k : Int} (horder : g ^ q % p = 1 % p)
    (hu1 : 0 ≤ u1) (hu2 : 0 ≤ u2) (hx : 0 ≤ x) (hk : 0 ≤ k)
    (hexp : ((u1 + x * u2 : Int) : ZMod q) = k) :
    g ^ u1.toNat % p * ((g ^ x.toNat % p) ^ u2.toNat % p) % p = g ^ k.toNat % p := by
  lift u1 to Nat using hu1
  lift u2 to Nat using hu2
  lift x to Nat using hx
  lift k to Nat using hk
  have hmod : u1 + x * u2 ≡ k [MOD q] := by
    rw [← ZMod.natCast_eq_natCast_iff]
    exact_mod_cast hexp
  have hone : (g : ZMod p) ^ q = 1 := by
    have hcast := (ZMod.intCast_eq_intCast_iff' (g ^ q) 1 p).mpr horder
    simpa using hcast
  apply emod_eq_of_cast_eq
  push_cast [ZMod.intCast_mod, Int.toNat_natCast]
  rw [← pow_mul, ← pow_add]
  exact pow_congr_of_modEq hone hmod

/-- With the signer's public key, `verify` recovers the value `r` of the nonce. -/
theorem recover_eq {p q : Nat} [hq : Fact q.Prime] {g h x k r s : Int} (keys : KeyPair)
    (horder : g ^ q % p = 1 % p) (hx : 0 ≤ x) (hk : 0 < k ∧ k < q)
    (hs : s = k ^ ((q : Int) - 2).toNat % q * (h + x * r) % q) (hs0 : (s : ZMod q) ≠ 0) :
    (⟨p, q, g, keys⟩ : DSA).recover h (g ^ x.toNat % p) ⟨r, s⟩ = g ^ k.toNat % p % q := by
  have hpos : (0 : Int) < q := by exact_mod_cast hq.out.pos
  have hnonneg : ∀ a : Int, 0 ≤ a % (q : Int) := fun a => Int.emod_nonneg _ (Int.ne_of_gt hpos)
  have hq2 : ((q : Int) - 2).toNat = q - 2 := by omega
  have hexp := exponent_eq (cast_ne_zero_of_lt hk.1 hk.2) (by rw [hs, hq2]) hs0
  simp only [recover, hq2,
    recover_pow horder (hnonneg (h * _)) (hnonneg (r * _)) hx hk.1.le hexp]

/-- Every signature of an object with valid parameters is in range, and is accepted with the
same parameters. -/
theorem accepts_sign {p q g x h : Int} (hprimeq : q.toNat.Prime) (hg : 2 ≤ g) (hlt : g < p)
    (horder : g ^ q.toNat % p = 1) (keys : KeyPair) (hx : 1 ≤ x ∧ x ≤ q - 1) (hh : 0 ≤ h)
    {nonces : List Int} (hnonces : ∀ k ∈ nonces, 1 ≤ k ∧ k ≤ q - 1) {sig : DSASignature}
    (hsign : (⟨p, q, g, ⟨x, g ^ x.toNat % p⟩⟩ : DSA).sign h nonces = .ok (some sig)) :
    (0 < sig.r ∧ sig.r < q) ∧ (0 < sig.signature ∧ sig.signature < q) ∧
      (⟨p, q, g, keys⟩ : DSA).verify h sig (g ^ x.toNat % p) = .ok true := by
  have hp : 0 < p := by omega
  have hq : 0 < q := by omega
  have hg0 : 0 ≤ g := by omega
  have hx0 : 0 ≤ x := by omega
  have hpos : ∀ k ∈ nonces, 0 ≤ k := fun k hk => by have := hnonces k hk; omega
  obtain ⟨k, hk, hr, hs, rfl⟩ := sign_eq_some hp hq hg0 hx0 hh hpos hsign
  have hkrange := hnonces k hk
  have hrange : ∀ a : Int, a % q ≠ 0 → 0 < a % q ∧ a % q < q := fun a hne =>
    ⟨(Int.emod_nonneg a (Int.ne_of_gt hq)).lt_of_ne' hne, Int.emod_lt_of_pos a hq⟩
  have hr' := hrange _ hr
  have hs' := hrange _ hs
  refine ⟨hr', hs', ?_⟩
  -- the range test passes, so `verify` compares the recovered number
  have hverify := @verify_eq ⟨p, q, g, keys⟩ hp hq hg0 h (g ^ x.toNat % p) hh
    (Int.emod_nonneg (g ^ x.toNat) (Int.ne_of_gt hp)) ⟨_, _⟩ hr' hs'
  lift p to Nat using hp.le
  lift q to Nat using hq.le
  have : Fact q.Prime := ⟨hprimeq⟩
  have hone : g ^ q % p = 1 % p := by
    rw [Int.emod_eq_of_lt (a := 1) (by omega) (by omega)]
    exact horder
  have hrecover := recover_eq keys hone hx0 ⟨by omega, by omega⟩ rfl
    (cast_ne_zero_of_lt hs'.1 hs'.2)
  exact hverify.trans (congrArg _ (beq_iff_eq.mpr hrecover))

/-- Every signature that `sign` returns is in range and is accepted by every
object with the same parameters. -/
theorem verify_sign {isPrime isPrime' : Int → Bool} {p q g x x' h : Int} {signer verifier : DSA}
    (hprimeq : q.toNat.Prime)
    (hsigner : new isPrime p q g x = .ok signer) (hverifier : new isPrime' p q g x' = .ok verifier)
    (hx : 1 ≤ x ∧ x ≤ q - 1) (hh : 0 ≤ h) {nonces : List Int}
    (hnonces : ∀ k ∈ nonces, 1 ≤ k ∧ k ≤ q - 1) {sig : DSASignature}
    (hsign : signer.sign h nonces = .ok (some sig)) :
    (0 < sig.r ∧ sig.r < q) ∧ (0 < sig.signature ∧ sig.signature < q) ∧
      verifier.verify h sig signer.keys.publicKey = .ok true := by
  obtain ⟨hg, hlt, horder, rfl⟩ := new_eq_ok hsigner
  obtain ⟨-, -, -, rfl⟩ := new_eq_ok hverifier
  exact accepts_sign hprimeq hg hlt horder _ hx hh hnonces hsign

/-- The nonce 8 gives the signature 0, so 3 is drawn. -/
theorem verify_sign_small_prime :
    ((0 : Int) < 8 ∧ (8 : Int) < 11) ∧ ((0 : Int) < 8 ∧ (8 : Int) < 11) ∧
      (⟨23, 11, 2, ⟨5, 9⟩⟩ : DSA).verify 100 ⟨8, 8⟩ 13 = .ok true := by
  have h11 : Nat.Prime 11 := by decide
  have h23 : Nat.Prime 23 := by decide
  have hsigner : new (fun n => decide n.toNat.Prime) 23 11 2 7 = .ok ⟨23, 11, 2, ⟨7, 13⟩⟩ := by
    simp [new, validateDsaParameters, modularPow_eq, rem, h11, h23, bind, Except.bind, pure,
      Except.pure]
  have hverifier : new (fun n => decide n.toNat.Prime) 23 11 2 5 = .ok ⟨23, 11, 2, ⟨5, 9⟩⟩ := by
    simp [new, validateDsaParameters, modularPow_eq, rem, h11, h23, bind, Except.bind, pure,
      Except.pure]
  have hsign : (⟨23, 11, 2, ⟨7, 13⟩⟩ : DSA).sign 100 [8, 3] = .ok (some ⟨8, 8⟩) := by
    simp [sign, modularPow_eq, rem, bind, Except.bind, pure, Except.pure]
  exact verify_sign (q := 11) h11 hsigner hverifier (by decide) (by decide) (by decide) hsign

end DSA

end Silence.Crypto
