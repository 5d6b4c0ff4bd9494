import Silence.Crypto.CryptoUtils
import Silence.Lib.PrimeField

/-!
# Silence.Crypto.ElGamalEncryption

The class `ElGamalEncryption` of `crypto/src/el_gamal_encryption.cpp`, and that
decryption undoes encryption.

What `generate_random` returns, the private key in the constructor and the
ephemeral key `k` in `encrypt`, is an argument.
-/

namespace Silence.Crypto

open Silence.Lib

structure ElGamalEncryption where
  p : Int
  g : Int
  keys : KeyPair

namespace ElGamalEncryption

/-- The constructor. -/
def new (isPrime : Int → Bool) (primeModulus generator privateKey : Int) :
    Except CryptoError ElGamalEncryption := do
  if !(← validateElGamalParameters isPrime primeModulus generator) then
    throw (.invalidArgument "Invalid parameters")
  let publicKey ← modularPow generator privateKey primeModulus
  return ⟨primeModulus, generator, ⟨privateKey, publicKey⟩⟩

def encrypt (self : ElGamalEncryption) (k message recipientPublicKey : Int) :
    Except CryptoError EncryptedMessage := do
  let c1 ← modularPow self.g k self.p
  let c2 ← rem (message * (← modularPow recipientPublicKey k self.p)) self.p
  return ⟨c1, c2⟩

def decrypt (self : ElGamalEncryption) (encryptedMessage : EncryptedMessage) :
    Except CryptoError Int := do
  let s ← modularPow encryptedMessage.c1 self.keys.privateKey self.p
  let sInverse ← modularPow s (self.p - 2) self.p
  rem (encryptedMessage.c2 * sInverse) self.p

/-! ### Correctness -/

/-- What the constructor returns. -/
theorem new_eq_ok {isPrime : Int → Bool} {p g x : Int} {self : ElGamalEncryption}
    (h : new isPrime p g x = .ok self) :
    2 ≤ g ∧ g < p ∧ self = ⟨p, g, ⟨x, g ^ x.toNat % p⟩⟩ := by
  cases hv : validateElGamalParameters isPrime p g with
  | error e => simp [new, hv, bind, Except.bind] at h
  | ok b =>
      obtain ⟨hg, hlt⟩ := range_of_validateElGamalParameters hv
      have hkey : modularPow g x p = .ok (g ^ x.toNat % p) := modularPow_eq (by omega) (by omega)
      cases b with
      | false => simp [new, hv, bind, Except.bind, throw, throwThe, MonadExceptOf.throw] at h
      | true =>
          simp [new, hv, hkey, bind, Except.bind, pure, Except.pure] at h
          exact ⟨hg, hlt, h.symm⟩

/-- The two parts of a ciphertext. -/
theorem encrypt_eq {self : ElGamalEncryption} (hg : 0 ≤ self.g) (hp : 0 < self.p)
    {message y : Int} (hm : 0 ≤ message) (hy : 0 ≤ y) (k : Int) :
    self.encrypt k message y =
      .ok ⟨self.g ^ k.toNat % self.p, message * (y ^ k.toNat % self.p) % self.p⟩ := by
  have hshared : 0 ≤ y ^ k.toNat % self.p := Int.emod_nonneg _ (Int.ne_of_gt hp)
  rw [encrypt, modularPow_eq hg hp, modularPow_eq hy hp]
  simp only [bind, Except.bind]
  rw [rem_eq_emod (Int.mul_nonneg hm hshared) hp]
  rfl

/-- Decryption multiplies with the Fermat inverse of the shared secret. -/
theorem decrypt_eq {self : ElGamalEncryption} (hp : 0 < self.p) {c : EncryptedMessage}
    (h1 : 0 ≤ c.c1) (h2 : 0 ≤ c.c2) :
    self.decrypt c =
      .ok (c.c2 * ((c.c1 ^ self.keys.privateKey.toNat % self.p) ^ (self.p - 2).toNat % self.p) %
        self.p) := by
  have hne := Int.ne_of_gt hp
  rw [decrypt, modularPow_eq h1 hp]
  simp only [bind, Except.bind]
  rw [modularPow_eq (Int.emod_nonneg _ hne) hp]
  exact rem_eq_emod (Int.mul_nonneg h2 (Int.emod_nonneg _ hne)) hp

/-- The shared secret and its Fermat inverse cancel modulo a prime. -/
theorem cancel_shared {p : Nat} [Fact p.Prime] {g message : Int} (hg : 0 < g) (hlt : g < p)
    (x k : Nat) :
    message * ((g ^ x % p) ^ k % p) % p * (((g ^ k % p) ^ x % p) ^ (p - 2) % p) % p =
      message % p := by
  have hg0 : (g : ZMod p) ≠ 0 := cast_ne_zero_of_lt hg hlt
  apply emod_eq_of_cast_eq
  push_cast [ZMod.intCast_mod]
  rw [pow_right_comm _ x k, mul_assoc, mul_pow_sub_two (pow_ne_zero _ (pow_ne_zero _ hg0)),
    mul_one]

/-- Decryption by the recipient undoes encryption by any party with the same
parameters, up to the residue modulo `p`, whatever the private keys and the
ephemeral key are. -/
theorem elGamal_decrypt_encrypt {isPrime isPrime' : Int → Bool} {p g x x' k message : Int}
    {party recipient : ElGamalEncryption} (hprime : p.toNat.Prime)
    (hrecipient : new isPrime p g x = .ok recipient) (hparty : new isPrime' p g x' = .ok party)
    (hm : 0 ≤ message) :
    ∃ c, party.encrypt k message recipient.keys.publicKey = .ok c ∧
      recipient.decrypt c = .ok (message % p) ∧
      (message < p → recipient.decrypt c = .ok message) := by
  obtain ⟨hg, hlt, rfl⟩ := new_eq_ok hrecipient
  obtain ⟨-, -, rfl⟩ := new_eq_ok hparty
  have hp : 0 < p := by omega
  have hne := Int.ne_of_gt hp
  lift p to Nat using hp.le
  have : Fact p.Prime := ⟨hprime⟩
  have htwo : ((p : Int) - 2).toNat = p - 2 := by omega
  have hdec := @decrypt_eq ⟨p, g, ⟨x, g ^ x.toNat % p⟩⟩ hp
    ⟨g ^ k.toNat % p, message * ((g ^ x.toNat % p) ^ k.toNat % p) % p⟩
    (Int.emod_nonneg _ hne) (Int.emod_nonneg _ hne)
  rw [htwo, cancel_shared (by omega) hlt] at hdec
  refine ⟨_, encrypt_eq (by simp; omega) hp hm (Int.emod_nonneg _ hne) k, hdec, fun hsmall => ?_⟩
  rw [hdec, Int.emod_eq_of_lt hm hsmall]

theorem elGamal_decrypt_encrypt_small_prime :
    ∃ c, (⟨23, 5, ⟨7, 17⟩⟩ : ElGamalEncryption).encrypt 3 100 8 = .ok c ∧
      (⟨23, 5, ⟨6, 8⟩⟩ : ElGamalEncryption).decrypt c = .ok (100 % 23) ∧
      ((100 : Int) < 23 → (⟨23, 5, ⟨6, 8⟩⟩ : ElGamalEncryption).decrypt c = .ok 100) := by
  have hprime : Nat.Prime 23 := by decide
  have hrecipient : new (fun n => decide n.toNat.Prime) 23 5 6 = .ok ⟨23, 5, ⟨6, 8⟩⟩ := by
    simp [new, validateElGamalParameters, checkFactor, modularPow_eq, quot, hprime, bind,
      Except.bind, pure, Except.pure]
  have hparty : new (fun n => decide n.toNat.Prime) 23 5 7 = .ok ⟨23, 5, ⟨7, 17⟩⟩ := by
    simp [new, validateElGamalParameters, checkFactor, modularPow_eq, quot, hprime, bind,
      Except.bind, pure, Except.pure]
  exact elGamal_decrypt_encrypt (p := 23) hprime hrecipient hparty (by decide)

end ElGamalEncryption

end Silence.Crypto
