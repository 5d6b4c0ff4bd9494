import Silence.Crypto.UserCryptoKeys
import Silence.Lib.Effect

/-!
# Silence.Crypto.KeySetLogging

The key set in a build with debug messages and in one without.

`DEBUG_MSG` evaluates its text in the debug build only. The texts of the key set contain
keys in hexadecimal, and printing a negative number throws, after the key has been
stored. So both builds hold the same keys (`exec_perform`), but a call with the number -1,
which stands for a missing key, returns in one build and throws in the other.
`makeCalls_agree_iff` says which sequences of calls cannot tell the builds apart.
-/

namespace Silence.Crypto.Logging

open Silence.Lib Silence.Lib.Effect

/-! ### Messages -/

/-- The value of `DEBUG_LEVEL`, 1 or 0. -/
inductive Build where
  | debug
  | release
  deriving DecidableEq, Repr

/-- What printing a negative number in hexadecimal throws. -/
def negativeNumber : CryptoError :=
  .runtimeError "Base 8 or 16 printing of negative numbers is not supported."

/-- A key in a message. -/
def keyText (key : Int) : Except CryptoError Bytes :=
  match cppIntToHex key with
  | some text => .ok text
  | none => .error negativeNumber

/-- `DEBUG_MSG(text)`. -/
def debugMsg {σ : Type} (build : Build) (text : Except CryptoError Bytes) :
    Effect CryptoError σ Unit :=
  match build with
  | .debug => do let _ ← attempt text
  | .release => pure ()

/-! ### The setters of the keys of one user -/

/-- A setter, with the message that it logs before the key. -/
def setKey (set : UserCryptoKeys → Int → UserCryptoKeys) (message : String) (build : Build)
    (key : Int) : Effect CryptoError UserCryptoKeys Unit := do
  modify (set · key)
  debugMsg build do return bytesOf message ++ (← keyText key)

def setDsaPublicKey : Build → Int → Effect CryptoError UserCryptoKeys Unit :=
  setKey .setDsaPublicKey "[UserCryptoKeys::set_dsa_public_key] DSA key set: "

def setElGamalPublicKey : Build → Int → Effect CryptoError UserCryptoKeys Unit :=
  setKey .setElGamalPublicKey "[UserCryptoKeys::set_el_gamal_public_key] El gamal key set: "

def setAesKey : Build → Int → Effect CryptoError UserCryptoKeys Unit :=
  setKey .setAesKey "[UserCryptoKeys::set_aes_key] AES key set: "

/-! ### The calls of the key set -/

/-- The message of `add_user_keys`. -/
def addedText (userId : Int) (keys : UserCryptoKeys) : Except CryptoError Bytes := do
  let elGamal ← keyText keys.elGamalPublicKey
  let dsa ← keyText keys.dsaPublicKey
  let aes ← keyText keys.aesKey
  return bytesOf "[UserCryptoKeys::add_user_keys] User added, with id " ++
    bytesOf (toString userId) ++ bytesOf ", with keys:  el gamal: " ++ elGamal ++
    bytesOf "dsa: " ++ dsa ++ bytesOf "aes: " ++ aes

/-- `_key_set[user_id]`. -/
def keysAt (keySet : UserCryptoKeySet) (userId : Int) : UserCryptoKeys :=
  (keySet.find? userId).getD .default

/-- `UserCryptoKeySet::add_user_keys`. -/
def addUserKeys (build : Build) (userId : Int) (keys : UserCryptoKeys) :
    Effect CryptoError UserCryptoKeySet Unit := do
  modify (·.addUserKeys userId keys)
  debugMsg build (addedText userId (keysAt (← get) userId))

/-- `UserCryptoKeySet::set_aes_key`: the setter works on the entry in the map. -/
def setUserAesKey (build : Build) (userId aesKey : Int) :
    Effect CryptoError UserCryptoKeySet Unit := do
  let (outcome, keys) := exec (setAesKey build aesKey) (keysAt (← get) userId)
  modify (OrdMap.insert · userId keys)
  attempt outcome

/-- A call of the key set. -/
inductive KeyCall where
  | addUserKeys (userId : Int) (keys : UserCryptoKeys)
  | setAesKey (userId aesKey : Int)
  deriving DecidableEq, Repr

def KeyCall.perform (build : Build) : KeyCall → Effect CryptoError UserCryptoKeySet Unit
  | .addUserKeys userId keys => Logging.addUserKeys build userId keys
  | .setAesKey userId aesKey => setUserAesKey build userId aesKey

/-- Make calls one after the other, whatever they throw: how each of them ends, and the key set
after them. -/
def makeCalls (build : Build) :
    UserCryptoKeySet → List KeyCall → List (Except CryptoError Unit) × UserCryptoKeySet
  | keySet, [] => ([], keySet)
  | keySet, call :: calls =>
      let (outcome, keySet) := exec (call.perform build) keySet
      let (outcomes, keySet) := makeCalls build keySet calls
      (outcome :: outcomes, keySet)

/-! ### What a call does -/

/-- The keys in the message of a call, in the order in which they are printed. -/
def KeyCall.loggedKeys : KeyCall → List Int
  | .addUserKeys _ keys => [keys.elGamalPublicKey, keys.dsaPublicKey, keys.aesKey]
  | .setAesKey _ aesKey => [aesKey]

/-- What a call makes of the key set. -/
def KeyCall.apply (keySet : UserCryptoKeySet) : KeyCall → UserCryptoKeySet
  | .addUserKeys userId keys => keySet.addUserKeys userId keys
  | .setAesKey userId aesKey => keySet.setAesKey userId aesKey

/-- How a message with these keys ends. -/
def logging (keys : List Int) : Build → Except CryptoError Unit
  | .debug => if ∀ key ∈ keys, 0 ≤ key then .ok () else .error negativeNumber
  | .release => .ok ()

theorem keyText_eq (key : Int) :
    keyText key = if 0 ≤ key then .ok (Lib.toHex key.toNat) else .error negativeNumber := by
  unfold keyText cppIntToHex
  by_cases h : key < 0
  · rw [if_pos h, if_neg (Int.not_le.mpr h)]
  · rw [if_neg h, if_pos (Int.not_lt.mp h)]

theorem exec_debugMsg {σ : Type} {text : Except CryptoError Bytes} {keys : List Int}
    (htext : text.map (fun _ => ()) = logging keys .debug) (build : Build) (s : σ) :
    exec (debugMsg build text) s = (logging keys build, s) := by
  cases build with
  | release => rfl
  | debug =>
      rw [← htext]
      cases text <;> rfl

/-- A setter sets the key, and then logs it. -/
theorem exec_setKey (set : UserCryptoKeys → Int → UserCryptoKeys) (message : String)
    (build : Build) (key : Int) (keys : UserCryptoKeys) :
    exec (setKey set message build key) keys = (logging [key] build, set keys key) := by
  rw [setKey, exec_bind, exec_modify]
  refine exec_debugMsg ?_ build _
  rw [keyText_eq, logging]
  by_cases h : 0 ≤ key
  · simp [h, bind, Except.bind, pure, Except.pure, Except.map]
  · simp [h, bind, Except.bind, Except.map]

/-- The message of `add_user_keys` is complete if none of the keys is negative. -/
theorem map_addedText (userId : Int) (keys : UserCryptoKeys) :
    (addedText userId keys).map (fun _ => ()) =
      logging [keys.elGamalPublicKey, keys.dsaPublicKey, keys.aesKey] .debug := by
  simp only [addedText, logging, keyText_eq, List.forall_mem_cons]
  by_cases helGamal : 0 ≤ keys.elGamalPublicKey
  · by_cases hdsa : 0 ≤ keys.dsaPublicKey
    · by_cases haes : 0 ≤ keys.aesKey
      · simp [helGamal, hdsa, haes, bind, Except.bind, pure, Except.pure, Except.map]
      · simp [helGamal, hdsa, haes, bind, Except.bind, Except.map]
    · simp [helGamal, hdsa, bind, Except.bind, Except.map]
  · simp [helGamal, bind, Except.bind, Except.map]

theorem keysAt_addUserKeys (keySet : UserCryptoKeySet) (userId : Int) (keys : UserCryptoKeys) :
    keysAt (keySet.addUserKeys userId keys) userId = keys := by
  have hget := keySet.getUserKeys_addUserKeys userId keys userId
  rw [if_pos rfl] at hget
  rw [keysAt, show (keySet.addUserKeys userId keys).find? userId = some keys from hget]
  rfl

/-- Both builds change the key set alike; only the debug build throws, at a negative key. -/
theorem exec_perform (build : Build) (call : KeyCall) (keySet : UserCryptoKeySet) :
    exec (call.perform build) keySet = (logging call.loggedKeys build, call.apply keySet) := by
  cases call with
  | addUserKeys userId keys =>
      show exec (addUserKeys build userId keys) keySet = _
      rw [addUserKeys, exec_bind, exec_modify]
      simp only
      rw [exec_bind, exec_get]
      simp only [keysAt_addUserKeys]
      exact exec_debugMsg (map_addedText userId keys) build _
  | setAesKey userId aesKey =>
      show exec (setUserAesKey build userId aesKey) keySet = _
      rw [setUserAesKey, exec_bind, exec_get]
      simp only [setAesKey, exec_setKey]
      rw [exec_bind, exec_modify]
      rfl

/-- After any calls the key set is the same in both builds, and each call ends by its own keys. -/
theorem makeCalls_eq (build : Build) (keySet : UserCryptoKeySet) (calls : List KeyCall) :
    makeCalls build keySet calls =
      (calls.map fun call => logging call.loggedKeys build, calls.foldl KeyCall.apply keySet) := by
  induction calls generalizing keySet with
  | nil => rfl
  | cons call calls ih =>
      simp only [makeCalls, exec_perform, ih]
      rfl

theorem logging_eq_release_iff (keys : List Int) :
    logging keys .debug = logging keys .release ↔ ∀ key ∈ keys, 0 ≤ key := by
  simp [logging]

/-- For every key set and every sequence of calls: the two builds end in the same key set and the
calls throw the same exceptions exactly if no call has a negative key in its message. -/
theorem makeCalls_agree_iff (keySet : UserCryptoKeySet) (calls : List KeyCall) :
    makeCalls .debug keySet calls = makeCalls .release keySet calls ↔
      ∀ call ∈ calls, ∀ key ∈ call.loggedKeys, 0 ≤ key := by
  rw [makeCalls_eq, makeCalls_eq, Prod.mk.injEq, List.map_inj_left]
  simp only [logging_eq_release_iff, and_true]

/-- The public keys of a peer as they are added, without an AES key: the debug build stores them
and throws. -/
theorem makeCalls_sentinel :
    makeCalls .debug .empty [.addUserKeys 5 ⟨7, 8, -1⟩] =
      ([.error negativeNumber], UserCryptoKeySet.addUserKeys .empty 5 ⟨7, 8, -1⟩) ∧
    makeCalls .release .empty [.addUserKeys 5 ⟨7, 8, -1⟩] =
      ([.ok ()], UserCryptoKeySet.addUserKeys .empty 5 ⟨7, 8, -1⟩) ∧
    makeCalls .debug .empty [.addUserKeys 5 ⟨7, 8, -1⟩] ≠
      makeCalls .release .empty [.addUserKeys 5 ⟨7, 8, -1⟩] := by
  refine ⟨rfl, rfl, fun h => ?_⟩
  cases congrArg Prod.fst h

end Silence.Crypto.Logging
