import Silence.Crypto.CryptoUtils
import Silence.Lib.OrdMap

/-!
# Silence.Crypto.UserCryptoKeys

The keys that a client holds of its peers (`crypto/src/user_crypto_keys.cpp`).

A public key set for a new user comes with the AES key -1, and `set_aes_key` on an
unknown user creates an entry with public keys 0: both numbers stand for a missing
key.
-/

namespace Silence.Crypto

open Silence.Lib

structure UserCryptoKeys where
  dsaPublicKey : Int
  elGamalPublicKey : Int
  aesKey : Int
  deriving DecidableEq, Repr

namespace UserCryptoKeys

/-- The default constructor. -/
def default : UserCryptoKeys := ⟨0, 0, 0⟩

def setDsaPublicKey (keys : UserCryptoKeys) (key : Int) : UserCryptoKeys :=
  { keys with dsaPublicKey := key }

def setElGamalPublicKey (keys : UserCryptoKeys) (key : Int) : UserCryptoKeys :=
  { keys with elGamalPublicKey := key }

def setAesKey (keys : UserCryptoKeys) (key : Int) : UserCryptoKeys := { keys with aesKey := key }

end UserCryptoKeys

/-- The `std::map` of a `UserCryptoKeySet`. -/
abbrev UserCryptoKeySet := OrdMap Int UserCryptoKeys

namespace UserCryptoKeySet

def addUserKeys (keySet : UserCryptoKeySet) (userId : Int) (keys : UserCryptoKeys) :
    UserCryptoKeySet :=
  keySet.insert userId keys

/-- `_key_set[user_id].set_aes_key(aes_key)`. -/
def setAesKey (keySet : UserCryptoKeySet) (userId aesKey : Int) : UserCryptoKeySet :=
  keySet.insert userId (((keySet.find? userId).getD .default).setAesKey aesKey)

def getUserKeys (keySet : UserCryptoKeySet) (userId : Int) : Option UserCryptoKeys :=
  keySet.find? userId

/-- The AES key held for a peer; -1 is no key. -/
def aesKeyOf (keySet : UserCryptoKeySet) (userId : Int) : Int :=
  ((keySet.getUserKeys userId).map (·.aesKey)).getD (-1)

theorem getUserKeys_addUserKeys (keySet : UserCryptoKeySet) (userId : Int)
    (keys : UserCryptoKeys) (other : Int) :
    (keySet.addUserKeys userId keys).getUserKeys other =
      if other = userId then some keys else keySet.getUserKeys other :=
  OrdMap.find?_insert keySet userId other keys

theorem getUserKeys_setAesKey (keySet : UserCryptoKeySet) (userId aesKey other : Int) :
    (keySet.setAesKey userId aesKey).getUserKeys other =
      if other = userId then some (((keySet.getUserKeys userId).getD .default).setAesKey aesKey)
      else keySet.getUserKeys other :=
  getUserKeys_addUserKeys keySet userId _ other

/-- Only the AES key of the peer changes. -/
theorem aesKeyOf_setAesKey (keySet : UserCryptoKeySet) (userId aesKey other : Int) :
    (keySet.setAesKey userId aesKey).aesKeyOf other =
      if other = userId then aesKey else keySet.aesKeyOf other := by
  rw [aesKeyOf, getUserKeys_setAesKey]
  split <;> rfl

/-- New public keys come without an AES key. -/
theorem aesKeyOf_addUserKeys (keySet : UserCryptoKeySet) (userId : Int) (keys : UserCryptoKeys)
    (other : Int) :
    (keySet.addUserKeys userId keys).aesKeyOf other =
      if other = userId then keys.aesKey else keySet.aesKeyOf other := by
  rw [aesKeyOf, getUserKeys_addUserKeys]
  split <;> rfl

/-- Setting the AES key that is held changes nothing. -/
theorem setAesKey_self {keySet : UserCryptoKeySet} {userId : Int} {keys : UserCryptoKeys}
    (h : keySet.getUserKeys userId = some keys) :
    keySet.setAesKey userId keys.aesKey = keySet := by
  have hsame : ((keySet.find? userId).getD .default).setAesKey keys.aesKey = keys := by
    rw [show keySet.find? userId = some keys from h]
    rfl
  rw [setAesKey, hsame, OrdMap.insert_eq_self h]

end UserCryptoKeySet

end Silence.Crypto
