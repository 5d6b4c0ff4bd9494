import Silence.Crypto.Aes256
import Silence.Crypto.Dsa
import Silence.Crypto.ElGamalEncryption
import Mathlib.Tactic.NormNum.Prime

/-!
# Silence.Crypto.HybridCryptoSystem

The class `HybridCryptoSystem` of `crypto/src/hybrid_crypto_system.cpp`.

An object has three parts behind `std::unique_ptr`s; the constructor makes the
ElGamal and the DSA part from fixed parameters and leaves the AES part null.
`new_eq_ok_iff` computes the constructor: the fixed parameters pass every check but
the primality tests, whose answers are an argument.
-/

namespace Silence.Crypto

open Silence.Lib

structure HybridCryptoSystem where
  /-- The key of the object behind `_aes`; none while the pointer is null. -/
  aes : Option Aes256.Key
  elGamal : ElGamalEncryption
  dsa : DSA

/-- How a method of the class ends when it does not return. -/
inductive HybridError where
  /-- A null pointer is dereferenced. -/
  | nullPointer
  | crypto (e : CryptoError)
  deriving DecidableEq, Repr

namespace HybridCryptoSystem

/-! ### The class -/

/-- The number that a text of rows of 64 hexadecimal digits denotes. -/
def ofHexRows (rows : List Nat) : Int := (rows.foldl (fun n row => n * 16 ^ 64 + row) 0 : Nat)

def elGamalP : Int := ofHexRows [
  0xffffffffffffffffc90fdaa22168c234c4c6628b80dc1cd129024e088a67cc74,
  0x020bbea63b139b22514a08798e3404ddef9519b3cd3a431b302b0a6df25f1437,
  0x4fe1356d6d51c245e485b576625e7ec6f44c42e9a637ed6b0bff5cb6f406b7ed,
  0xee386bfb5a899fa5ae9f24117c4b1fe649286651ece45b3dc2007cb8a163bf05,
  0x98da48361c55d39a69163fa8fd24cf5f83655d23dca3ad961c62f356208552bb,
  0x9ed529077096966d670c354e4abc9804f1746c08ca18217c32905e462e36ce3b,
  0xe39e772c180e86039b2783a2ec07a28fb5c55df06f4c52c9de2bcbf695581718,
  0x3995497cea956ae515d2261898fa051015728e5a8aacaa68ffffffffffffffff]

def elGamalG : Int := 11

def dsaP : Int := ofHexRows [
  0x8df2a494492276aa3d25759bb06869cbeac0d83afb8d0cf7cbb8324f0d7882e5,
  0xd0762fc5b7210eafc2e9adac32ab7aac49693dfbf83724c2ec0736ee31c80291]

def dsaQ : Int := 0xc773218c737ec8ee993b4f2ded30f48edace915f

def dsaG : Int := ofHexRows [
  0x626d027839ea0a13413163a55b4cb500299d5522956cefcb3bff10f399ce2c2e,
  0x71cb9de5fa24babf58e5b79521925c9cc42e9f6f464b088cc572af53e6d78802]

/-- The constructor, with the private keys that its parts draw. -/
def new (isPrime : Int → Bool) (elGamalKey dsaKey : Int) :
    Except CryptoError HybridCryptoSystem := do
  let elGamal ← ElGamalEncryption.new isPrime elGamalP elGamalG elGamalKey
  let dsa ← DSA.new isPrime dsaP dsaQ dsaG dsaKey
  return ⟨none, elGamal, dsa⟩

def getElGamalPublicKey (self : HybridCryptoSystem) : Int := self.elGamal.keys.publicKey

def getDsaPublicKey (self : HybridCryptoSystem) : Int := self.dsa.keys.publicKey

/-- `encrypt_message`, with the ephemeral key that is drawn. -/
def encryptMessage (self : HybridCryptoSystem) (k : Int) (recipientsPublicKey : Bytes) :
    Except HybridError EncryptedMessage :=
  match self.aes with
  | none => .error .nullPointer
  | some key => do
      let message ← (hexToCppInt key.toList).mapError .crypto
      let recipient ← (hexToCppInt recipientsPublicKey).mapError .crypto
      (self.elGamal.encrypt k message recipient).mapError .crypto

def decryptMessage (self : HybridCryptoSystem) (encryptedMessage : EncryptedMessage) :
    Except CryptoError Int :=
  self.elGamal.decrypt encryptedMessage

def sign (self : HybridCryptoSystem) (messageHash : Int) (nonces : List Int) :
    Except CryptoError (Option DSASignature) :=
  self.dsa.sign messageHash nonces

def verify (self : HybridCryptoSystem) (messageHash : Int) (signature : DSASignature)
    (signerPublicKey : Int) : Except CryptoError Bool :=
  self.dsa.verify messageHash signature signerPublicKey

/-! ### The fixed parameters -/

theorem emod_eq_powMod (b e m : Nat) : (b : Int) ^ e % m = (powMod b e m : Nat) := by
  rw [powMod_eq]
  push_cast
  rfl

/-- A power modulo a positive number, by evaluation. -/
theorem pow_emod_eq {b e m : Int} {r : Nat} (hb : 0 ≤ b) (hm : 0 ≤ m)
    (h : powMod b.toNat e.toNat m.toNat = r) : b ^ e.toNat % m = r := by
  conv_lhs => rw [← Int.toNat_of_nonneg hb, ← Int.toNat_of_nonneg hm, emod_eq_powMod, h]

theorem elGamalP_pos : 0 < elGamalP := by decide

theorem dsaP_pos : 0 < dsaP := by decide

theorem dsaQ_pos : 0 < dsaQ := by decide

theorem dsaG_range : 2 ≤ dsaG ∧ dsaG < dsaP := by decide

theorem dsaG_nonneg : 0 ≤ dsaG := by decide

theorem elGamalG_squared : elGamalG ^ (2 : Int).toNat % elGamalP = 121 := by decide +kernel

/-- The generator is no square modulo `p`. -/
theorem elGamalG_half :
    elGamalG ^ ((elGamalP - 1).tdiv 2).toNat % elGamalP = (elGamalP.toNat - 1 : Nat) :=
  pow_emod_eq (by decide) elGamalP_pos.le (by decide +kernel)

theorem dsaG_order : dsaG ^ dsaQ.toNat % dsaP = (1 : Nat) :=
  pow_emod_eq dsaG_nonneg dsaP_pos.le (by decide +kernel)

/-- A factor passes if the power that it leaves is not 1. -/
theorem checkFactor_eq_ok {p g factor exponent r : Int} (hg : 0 ≤ g) (hp : 0 < p)
    (hexponent : quot (p - 1) factor = .ok exponent) (hr : g ^ exponent.toNat % p = r)
    (hne : r ≠ 1) : checkFactor p g factor = .ok () := by
  rw [checkFactor, hexponent]
  simp only [bind, Except.bind, modularPow_eq hg hp, hr, if_neg hne]
  rfl

/-- Parameters in range whose factors pass are as valid as their modulus is prime. -/
theorem validateElGamalParameters_eq (isPrime : Int → Bool) {p g : Int}
    (hrange : ¬ (g < 2 ∨ g ≥ p)) (htwo : checkFactor p g 2 = .ok ())
    (hhalf : checkFactor p g ((p - 1).tdiv 2) = .ok ()) :
    validateElGamalParameters isPrime p g =
      if isPrime p then .ok true
      else .error (.invalidArgument "The modulus p must be prime") := by
  have hfactors : [2, (p - 1).tdiv 2].forM (checkFactor p g) = .ok () := by
    simp only [List.forM, htwo, hhalf, bind, Except.bind]
    rfl
  rw [validateElGamalParameters, if_neg hrange, hfactors]
  cases isPrime p with
  | false => rfl
  | true => rfl

theorem validateElGamal_eq (isPrime : Int → Bool) :
    validateElGamalParameters isPrime elGamalP elGamalG =
      if isPrime elGamalP then .ok true
      else .error (.invalidArgument "The modulus p must be prime") :=
  validateElGamalParameters_eq isPrime (by decide)
    (checkFactor_eq_ok (by decide) elGamalP_pos rfl elGamalG_half (by decide))
    (checkFactor_eq_ok (by decide) elGamalP_pos (by decide +kernel) elGamalG_squared (by decide))

/-- Parameters in range, with `q` dividing `p - 1` and the right order, are as valid as their
moduli are prime. -/
theorem validateDsaParameters_eq (isPrime : Int → Bool) {p q g : Int} (hg : 0 ≤ g) (hp : 0 < p)
    (hrange : ¬ (g < 2 ∨ g ≥ p)) (hdivides : rem (p - 1) q = .ok 0) (horder : g ^ q.toNat % p = 1) :
    validateDsaParameters isPrime p q g = .ok (isPrime p && isPrime q) := by
  rw [validateDsaParameters, hdivides, modularPow_eq hg hp, horder]
  cases isPrime p with
  | false => rfl
  | true =>
      cases isPrime q with
      | false => rfl
      | true =>
          simp only [bind, Except.bind, pure, Except.pure, if_neg hrange]
          rfl

theorem validateDsa_eq (isPrime : Int → Bool) :
    validateDsaParameters isPrime dsaP dsaQ dsaG = .ok (isPrime dsaP && isPrime dsaQ) :=
  validateDsaParameters_eq isPrime dsaG_nonneg dsaP_pos
    (not_or.mpr ⟨not_lt.mpr dsaG_range.1, not_le.mpr dsaG_range.2⟩) (by decide +kernel) dsaG_order

/-- The object with the given private keys. -/
def ofKeys (elGamalKey dsaKey : Int) : HybridCryptoSystem where
  aes := none
  elGamal := ⟨elGamalP, elGamalG, ⟨elGamalKey, elGamalG ^ elGamalKey.toNat % elGamalP⟩⟩
  dsa := ⟨dsaP, dsaQ, dsaG, ⟨dsaKey, dsaG ^ dsaKey.toNat % dsaP⟩⟩

/-- The constructor fails only if a primality test does. -/
theorem new_eq_ok_iff {isPrime : Int → Bool} {elGamalKey dsaKey : Int}
    {self : HybridCryptoSystem} :
    new isPrime elGamalKey dsaKey = .ok self ↔
      isPrime elGamalP = true ∧ isPrime dsaP = true ∧ isPrime dsaQ = true ∧
        self = ofKeys elGamalKey dsaKey := by
  have hElGamal : modularPow elGamalG elGamalKey elGamalP =
      .ok (elGamalG ^ elGamalKey.toNat % elGamalP) :=
    modularPow_eq (by decide) elGamalP_pos
  have hDsa : modularPow dsaG dsaKey dsaP = .ok (dsaG ^ dsaKey.toNat % dsaP) :=
    modularPow_eq dsaG_nonneg dsaP_pos
  rw [new, ElGamalEncryption.new, DSA.new, validateElGamal_eq, validateDsa_eq, hElGamal, hDsa]
  cases isPrime elGamalP with
  | false => simp [bind, Except.bind]
  | true =>
      cases isPrime dsaP with
      | false => simp [bind, Except.bind, throw, throwThe, MonadExceptOf.throw, pure, Except.pure]
      | true =>
          cases isPrime dsaQ with
          | false =>
              simp [bind, Except.bind, throw, throwThe, MonadExceptOf.throw, pure, Except.pure]
          | true => simp [bind, Except.bind, pure, Except.pure, ofKeys, eq_comm]

/-! ### The transported key -/

/-- The object with an AES key, as if a constructor had made one. -/
def withKey (self : HybridCryptoSystem) (key : Aes256.Key) : HybridCryptoSystem :=
  { self with aes := some key }

/-- What is encrypted is the number that the bytes of the key denote as hexadecimal
characters. -/
theorem encryptMessage_congr (self : HybridCryptoSystem) {key key' : Aes256.Key}
    (h : hexToCppInt key.toList = hexToCppInt key'.toList) (k : Int) (recipientsPublicKey : Bytes) :
    (self.withKey key).encryptMessage k recipientsPublicKey =
      (self.withKey key').encryptMessage k recipientsPublicKey := by
  simp only [encryptMessage, withKey, h]

/-- No object that the constructor returns can encrypt: its AES part is null. Holding a key
would not be enough either, since keys that do not begin with a character of a number are all
transported as 0. -/
theorem encryptMessage_undefined {isPrime : Int → Bool} {elGamalKey dsaKey : Int}
    {self : HybridCryptoSystem} (h : new isPrime elGamalKey dsaKey = .ok self) :
    (∀ k recipientsPublicKey,
        self.encryptMessage k recipientsPublicKey = .error .nullPointer) ∧
      ∃ key key', key ≠ key' ∧ ∀ k recipientsPublicKey,
        (self.withKey key).encryptMessage k recipientsPublicKey =
          (self.withKey key').encryptMessage k recipientsPublicKey := by
  obtain ⟨-, -, -, rfl⟩ := new_eq_ok_iff.mp h
  refine ⟨fun k recipientsPublicKey => rfl, Vector.replicate 32 0xfe, Vector.replicate 32 0xff,
    by decide, ?_⟩
  exact encryptMessage_congr _ (by decide)

theorem encryptMessage_undefined_ofKeys :
    (∀ k recipientsPublicKey,
        (ofKeys 4 2).encryptMessage k recipientsPublicKey = .error .nullPointer) ∧
      ∃ key key', key ≠ key' ∧ ∀ k recipientsPublicKey,
        ((ofKeys 4 2).withKey key).encryptMessage k recipientsPublicKey =
          ((ofKeys 4 2).withKey key').encryptMessage k recipientsPublicKey := by
  have hnew : new (fun _ => true) 4 2 = .ok (ofKeys 4 2) :=
    new_eq_ok_iff.mpr ⟨rfl, rfl, rfl, rfl⟩
  exact encryptMessage_undefined hnew

/-- The constructor returns an object, and encrypting with it is undefined. -/
theorem new_encryptMessage_nullPointer :
    new (fun _ => true) 4 2 = .ok (ofKeys 4 2) ∧
      (ofKeys 4 2).encryptMessage 5 (bytesOf "3931") = .error .nullPointer :=
  ⟨new_eq_ok_iff.mpr ⟨rfl, rfl, rfl, rfl⟩, rfl⟩

/-- What `verify` finds for a signature in range, by evaluation. -/
theorem verify_ofKeys {x y hash publicKey : Int} (hhash : 0 ≤ hash) (hkey : 0 ≤ publicKey)
    {sig : DSASignature} (hr : 0 < sig.r ∧ sig.r < dsaQ)
    (hs : 0 < sig.signature ∧ sig.signature < dsaQ) {w : Int}
    (hw : (powMod sig.signature.toNat (dsaQ - 2).toNat dsaQ.toNat : Nat) = w) :
    (ofKeys x y).verify hash sig publicKey =
      .ok ((powMod dsaG.toNat (hash * w % dsaQ).toNat dsaP.toNat : Nat) *
        (powMod publicKey.toNat (sig.r * w % dsaQ).toNat dsaP.toNat : Nat) %
        dsaP % dsaQ == sig.r) := by
  have hp := dsaP_pos
  have hq := dsaQ_pos
  have hg := dsaG_nonneg
  rw [verify, @DSA.verify_eq (ofKeys x y).dsa hp hq hg hash publicKey hhash hkey sig hr hs,
    ← pow_emod_eq hg hp.le rfl, ← pow_emod_eq hkey hp.le rfl, ← hw,
    ← pow_emod_eq hs.1.le hq.le rfl]
  rfl

/-! ### The order of the signatures is prime

By Lucas's test. `q1` is the largest prime factor of `q - 1`, `q2` that of `q1 - 1`, and so on
down to a number whose factors are small. -/

theorem lucasTests :
    LucasTest 121208539 3 [2, 3, 11, 17, 59, 1831] ∧
    LucasTest 1157541547451 6 ([2, 5, 5, 191] ++ [121208539]) ∧
    LucasTest 974649982953743 5 ([2, 421] ++ [1157541547451]) ∧
    LucasTest 6720045941968955848691 2 ([2, 5, 61, 89, 127] ++ [974649982953743]) ∧
    LucasTest 2558113668352235187964459153478936417 3
      ([2, 2, 2, 2, 2, 11, 29, 9491, 3929117] ++ [6720045941968955848691]) ∧
    LucasTest 7197303968182380746041765117496057187957841 7
      ([2, 2, 2, 2, 3, 5, 19, 617] ++ [2558113668352235187964459153478936417]) ∧
    LucasTest 0xc773218c737ec8ee993b4f2ded30f48edace915f 5
      ([2, 79103] ++ [7197303968182380746041765117496057187957841]) := by
  decide +kernel

/-- Small primes and one more. -/
theorem forall_prime_append {small : List Nat} {q : Nat} (hsmall : ∀ r ∈ small, r.Prime)
    (hq : q.Prime) : ∀ r ∈ small ++ [q], r.Prime :=
  List.forall_mem_append.mpr ⟨hsmall, List.forall_mem_singleton.mpr hq⟩

theorem prime_dsaQ : dsaQ.toNat.Prime := by
  obtain ⟨h6, h5, h4, h3, h2, h1, h0⟩ := lucasTests
  have q6 : Nat.Prime 121208539 := prime_of_lucas h6 (by decide) (by norm_num)
  have q5 := prime_of_lucas h5 (by decide) (forall_prime_append (by norm_num) q6)
  have q4 := prime_of_lucas h4 (by decide) (forall_prime_append (by norm_num) q5)
  have q3 := prime_of_lucas h3 (by decide) (forall_prime_append (by norm_num) q4)
  have q2 := prime_of_lucas h2 (by decide) (forall_prime_append (by norm_num) q3)
  have q1 := prime_of_lucas h1 (by decide) (forall_prime_append (by norm_num) q2)
  exact prime_of_lucas h0 (by decide) (forall_prime_append (by norm_num) q1)

end HybridCryptoSystem

end Silence.Crypto
