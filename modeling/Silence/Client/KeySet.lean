import Silence.Client.Client
import Silence.Lib.Run

/-!
# Silence.Client.KeySet

Which AES keys a client holds after any sequence of requests with keys.

`handle_receive_aes_key` sets the key before it checks the signature, so what the
check finds makes no difference (`exec_receiveAesKey`), and new public keys for a
peer replace its AES key by -1. `Tracked` follows a run next to the AES keys that
were really verified; `aesKeys_verified` says under which requests both agree.
-/

namespace Silence.Client

open Silence.Lib Silence.Lib.Effect Silence.Crypto
open Server (Json)

/-! ### The success branches -/

theorem exec_read {α : Type} (x : Except Server.Exn α) (client : State) :
    exec (read x) client = (x.mapError .json, client) := rfl

theorem exec_compute {α : Type} (x : Except CryptoError α) (client : State) :
    exec (compute x) client = (x.mapError .crypto, client) := rfl

/-- The request enters the success branch of its handler. -/
def isSuccess (request : Json) : Bool := (request.member? "type").any (·.isText "success")

theorem exec_ifSuccess {request : Json} (h : isSuccess request = true) (x : Handler Unit)
    (client : State) :
    exec (do if (← read (request.at? "type")).isText "success" then x) client =
      exec x client := by
  obtain ⟨type, htype, hsuccess⟩ := (Option.any_eq_true _ _).mp h
  rw [exec_bind, exec_read, Json.at?_eq_ok_iff.mpr htype]
  simp only [Except.mapError, hsuccess, if_true]

/-- Any other request leaves the client as it is. -/
theorem exec_ifSuccess_else {request : Json} (h : isSuccess request = false) (x : Handler Unit)
    (client : State) :
    (exec (do if (← read (request.at? "type")).isText "success" then x) client).2 = client := by
  rw [exec_bind, exec_read]
  cases request with
  | object members =>
      rw [isSuccess, Json.member?] at h
      rw [Json.at?]
      cases htype : members.lookup "type" with
      | none => rfl
      | some type =>
          rw [htype] at h
          simp only [Except.mapError, show type.isText "success" = false from h]
          rfl
  | _ => rfl

/-! ### What the handlers do to the key set -/

/-- Public keys are added without an AES key. -/
theorem keySet_handleReceiveUserPublicKeys {request : Json} (h : isSuccess request = true)
    (client : State) :
    (exec (handleReceiveUserPublicKeys request) client).2.keySet =
      match readPublicKeys request with
      | .ok (userId, keys) => client.keySet.addUserKeys userId keys
      | .error _ => client.keySet := by
  rw [handleReceiveUserPublicKeys, exec_ifSuccess h, exec_bind, exec_read]
  cases readPublicKeys request with
  | error e => rfl
  | ok p => rfl

theorem aesKey_of_readPublicKeys {request : Json} {userId : Int} {keys : UserCryptoKeys}
    (h : readPublicKeys request = .ok (userId, keys)) : keys.aesKey = -1 := by
  obtain ⟨id, -, h⟩ := bind_eq_ok.mp h
  obtain ⟨dsaKey, -, h⟩ := bind_eq_ok.mp h
  obtain ⟨elGamalKey, -, h⟩ := bind_eq_ok.mp h
  cases h
  rfl

/-- The sender and the AES key of a request, as the receiver decrypts it. -/
def receivedKey (system : HybridCryptoSystem) (request : Json) : Option (Int × Int) :=
  match readEncryptedAesKey request with
  | .error _ => none
  | .ok (senderId, encryptedAesKey) =>
      match system.decryptMessage encryptedAesKey with
      | .error _ => none
      | .ok aesKey => some (senderId, aesKey)

/-- The signature of a request verifies under the stored key of its sender. -/
def signatureVerifies (system : HybridCryptoSystem) (keySet : UserCryptoKeySet) (request : Json)
    (senderId : Int) : Bool :=
  match readSignature request, keySet.getUserKeys senderId with
  | .ok (dsaSignature, messageHash), some userKeys =>
      match system.verify messageHash dsaSignature userKeys.dsaPublicKey with
      | .ok isVerified => isVerified
      | .error _ => false
  | _, _ => false

/-- Setting a key twice is setting it once. -/
theorem setAesKey_setAesKey (client : State) (userId aesKey : Int) :
    (client.setAesKey userId aesKey).setAesKey userId aesKey = client.setAesKey userId aesKey := by
  have hkeys : (client.keySet.setAesKey userId aesKey).getUserKeys userId =
      some (((client.keySet.getUserKeys userId).getD .default).setAesKey aesKey) := by
    rw [UserCryptoKeySet.getUserKeys_setAesKey, if_pos rfl]
  have hsame := UserCryptoKeySet.setAesKey_self hkeys
  rw [State.setAesKey, State.setAesKey]
  exact congrArg (fun keySet => { client with keySet := keySet }) hsame

/-- The decrypted key is held afterwards, whatever becomes of the signature. -/
theorem exec_receiveAesKey (system : HybridCryptoSystem) (request : Json) (client : State) :
    (exec (receiveAesKey system request) client).2 =
      match receivedKey system request with
      | some (senderId, aesKey) => client.setAesKey senderId aesKey
      | none => client := by
  rw [receiveAesKey, receivedKey, exec_bind, exec_read]
  cases readEncryptedAesKey request with
  | error e => rfl
  | ok p =>
      obtain ⟨senderId, encryptedAesKey⟩ := p
      simp only [Except.mapError]
      rw [exec_bind, exec_compute]
      cases system.decryptMessage encryptedAesKey with
      | error e => rfl
      | ok aesKey =>
          simp only [Except.mapError]
          -- the key is stored before the signature is read
          rw [exec_bind, exec_modify]
          simp only
          rw [exec_bind, exec_read]
          cases readSignature request with
          | error e => rfl
          | ok q =>
              obtain ⟨dsaSignature, messageHash⟩ := q
              simp only [Except.mapError]
              rw [exec_bind, exec_get]
              simp only
              cases (client.setAesKey senderId aesKey).keySet.getUserKeys senderId with
              | none => rfl
              | some userKeys =>
                  simp only
                  rw [exec_bind, exec_compute]
                  cases system.verify messageHash dsaSignature userKeys.dsaPublicKey with
                  | error e => rfl
                  | ok isVerified =>
                      cases isVerified with
                      | false => rfl
                      | true => exact setAesKey_setAesKey client senderId aesKey

/-! ### Runs -/

/-- A request with keys. -/
inductive KeyRequest where
  | publicKeys (request : Json)
  | aesKey (request : Json)

/-- The client after a request has been handled. -/
def State.handle (system : HybridCryptoSystem) (client : State) : KeyRequest → State
  | .publicKeys request => (exec (handleReceiveUserPublicKeys request) client).2
  | .aesKey request => (exec (handleReceiveAesKey system request) client).2

/-- The AES key of a request whose signature verifies, with its sender. -/
def verifiedKey (system : HybridCryptoSystem) (keySet : UserCryptoKeySet) :
    KeyRequest → Option (Int × Int)
  | .publicKeys _ => none
  | .aesKey request =>
      if isSuccess request then
        (receivedKey system request).filter fun received =>
          signatureVerifies system keySet request received.1
      else none

/-- A client, with the AES key of each peer that was verified last. -/
structure Tracked where
  client : State
  verified : Int → Int

/-- The keys that are there at the beginning count as verified. -/
def Tracked.start (client : State) : Tracked := ⟨client, client.keySet.aesKeyOf⟩

def Tracked.step (system : HybridCryptoSystem) (t : Tracked) (request : KeyRequest) : Tracked where
  client := t.client.handle system request
  verified :=
    match verifiedKey system t.client.keySet request with
    | some (senderId, aesKey) => Function.update t.verified senderId aesKey
    | none => t.verified

theorem verified_step_of_some {system : HybridCryptoSystem} {t : Tracked} {request : KeyRequest}
    {senderId aesKey : Int}
    (h : verifiedKey system t.client.keySet request = some (senderId, aesKey)) :
    (t.step system request).verified = Function.update t.verified senderId aesKey := by
  unfold Tracked.step
  rw [h]

/-- The condition on a request: public keys are for a peer without an AES key, and an AES key
verifies or is the one that is held for its sender anyway. -/
def KeepsKeys (system : HybridCryptoSystem) (t : Tracked) : KeyRequest → Prop
  | .publicKeys request => isSuccess request = true →
      ∀ userId keys, readPublicKeys request = .ok (userId, keys) →
        t.client.keySet.aesKeyOf userId = -1
  | .aesKey request => isSuccess request = true →
      ∀ senderId aesKey, receivedKey system request = some (senderId, aesKey) →
        signatureVerifies system t.client.keySet request senderId = true ∨
          (t.client.keySet.getUserKeys senderId).map (·.aesKey) = some aesKey

/-- A verified key is set, and nothing else changes. -/
theorem handle_aesKey {system : HybridCryptoSystem} {t : Tracked} {request : Json}
    (h : KeepsKeys system t (.aesKey request)) :
    t.client.handle system (.aesKey request) =
      match verifiedKey system t.client.keySet (.aesKey request) with
      | some (senderId, aesKey) => t.client.setAesKey senderId aesKey
      | none => t.client := by
  rw [State.handle, handleReceiveAesKey, verifiedKey]
  cases hsuccess : isSuccess request with
  | false => exact exec_ifSuccess_else hsuccess _ _
  | true =>
      rw [exec_ifSuccess hsuccess, exec_receiveAesKey, if_pos rfl]
      cases hreceived : receivedKey system request with
      | none => rfl
      | some received =>
          obtain ⟨senderId, aesKey⟩ := received
          rcases h hsuccess senderId aesKey hreceived with hverified | hheld
          · simp only [Option.filter, hverified, if_true]
          · obtain ⟨keys, hkeys, rfl⟩ := Option.map_eq_some_iff.mp hheld
            have hsame : t.client.setAesKey senderId keys.aesKey = t.client := by
              rw [State.setAesKey, UserCryptoKeySet.setAesKey_self hkeys]
            cases hsig : signatureVerifies system t.client.keySet request senderId with
            | false => simpa only [Option.filter, hsig, Bool.false_eq_true, if_false] using hsame
            | true => simp only [Option.filter, hsig, if_true]

/-- Public keys leave the AES keys as they are. -/
theorem aesKeyOf_handle_publicKeys {system : HybridCryptoSystem} {t : Tracked} {request : Json}
    (h : KeepsKeys system t (.publicKeys request)) (userId : Int) :
    (t.client.handle system (.publicKeys request)).keySet.aesKeyOf userId =
      t.client.keySet.aesKeyOf userId := by
  cases hsuccess : isSuccess request with
  | false =>
      have hsame : t.client.handle system (.publicKeys request) = t.client :=
        exec_ifSuccess_else hsuccess _ _
      rw [hsame]
  | true =>
      rw [State.handle, keySet_handleReceiveUserPublicKeys hsuccess]
      cases hread : readPublicKeys request with
      | error e => rfl
      | ok p =>
          obtain ⟨user, keys⟩ := p
          have hnone : keys.aesKey = -1 := aesKey_of_readPublicKeys hread
          simp only [UserCryptoKeySet.aesKeyOf_addUserKeys]
          split
          · rename_i heq
            rw [heq, hnone, h hsuccess user keys hread]
          · rfl

/-- In every run whose requests meet the condition: the AES key held for a peer is the one that
was verified last, a request with an AES key that does not verify changes nothing, and one with
public keys leaves all AES keys as they are. -/
theorem aesKeys_verified {system : HybridCryptoSystem} {client : State}
    {history : List (KeyRequest × Tracked)} {t : Tracked}
    (hrun : Run (Tracked.step system) (KeepsKeys system) (Tracked.start client) history t) :
    (∀ userId, t.client.keySet.aesKeyOf userId = t.verified userId) ∧
      ∀ request, KeepsKeys system t request → verifiedKey system t.client.keySet request = none →
        match request with
        | .aesKey _ => (t.step system request).client = t.client
        | .publicKeys _ => ∀ userId,
            (t.step system request).client.keySet.aesKeyOf userId =
              t.client.keySet.aesKeyOf userId := by
  constructor
  · refine hrun.invariant (I := fun _ t => ∀ userId, t.client.keySet.aesKeyOf userId =
      t.verified userId) (fun _ => rfl) ?_
    intro history t request ih hkeeps userId
    cases request with
    | publicKeys request =>
        exact (aesKeyOf_handle_publicKeys hkeeps userId).trans (ih userId)
    | aesKey request =>
        rw [Tracked.step, handle_aesKey hkeeps]
        cases verifiedKey system t.client.keySet (.aesKey request) with
        | none => exact ih userId
        | some received =>
            simp only [State.setAesKey, UserCryptoKeySet.aesKeyOf_setAesKey, Function.update_apply,
              ih userId]
  · intro request hkeeps hnone
    cases request with
    | publicKeys request => exact aesKeyOf_handle_publicKeys hkeeps
    | aesKey request =>
        rw [Tracked.step, handle_aesKey hkeeps, hnone]

/-! ### Two requests -/

/-- A client that holds the given keys and has no files. -/
def State.withKeys (keySet : UserCryptoKeySet) : State where
  keySet := keySet
  chunkAcknowledged := false
  userFilesDir := bytesOf "user_files"
  files _ := none
  incomingFiles := .empty
  written := []

/-- A client that has the AES key 42 of user 5. -/
def clientWithKey : State := .withKeys (OrdMap.empty.insert 5 ⟨7, 8, 42⟩)

/-- The public keys of user 5, once more. -/
def sameKeys : Json := .object [("dsa_public_key", .string "7"),
  ("el_gamal_public_key", .string "8"), ("sender_id", .number 5), ("type", .string "success")]

/-- An AES key in the name of user 5, with a signature that is out of range. -/
def unsignedKey : Json := .object [("dsa_r", .string "0"), ("dsa_signature", .string "0"),
  ("encrypted_aes_key_c1", .string "0"), ("encrypted_aes_key_c2", .string "0"),
  ("sender_id", .number 5), ("type", .string "success")]

theorem decryptMessage_zero :
    (HybridCryptoSystem.ofKeys 4 2).decryptMessage ⟨0, 0⟩ = .ok 0 := by
  have hp := HybridCryptoSystem.elGamalP_pos
  rw [HybridCryptoSystem.decryptMessage, HybridCryptoSystem.ofKeys,
    ElGamalEncryption.decrypt_eq hp (Int.le_refl 0) (Int.le_refl 0), Int.zero_mul, Int.zero_emod]

/-- The key 42 is lost by new public keys, and replaced by a key that does not verify. -/
theorem aesKey_lost :
    (clientWithKey.handle (.ofKeys 4 2) (.publicKeys sameKeys)).keySet.aesKeyOf 5 = -1 ∧
      verifiedKey (.ofKeys 4 2) clientWithKey.keySet (.aesKey unsignedKey) = none ∧
      (clientWithKey.handle (.ofKeys 4 2) (.aesKey unsignedKey)).keySet.aesKeyOf 5 = 0 ∧
      clientWithKey.keySet.aesKeyOf 5 = 42 := by
  have hreceived : receivedKey (.ofKeys 4 2) unsignedKey = some (5, 0) := by
    have hread : readEncryptedAesKey unsignedKey = .ok (5, ⟨0, 0⟩) := by rfl
    simp only [receivedKey, hread, decryptMessage_zero]
  refine ⟨rfl, ?_, ?_, rfl⟩
  · simp only [verifiedKey, hreceived]
    rfl
  · rw [State.handle, handleReceiveAesKey, exec_ifSuccess rfl, exec_receiveAesKey, hreceived]
    rfl

/-- A client that has the DSA key of user 5, and no AES key. -/
def knowsSigner : State :=
  .withKeys (OrdMap.empty.insert 5 ⟨(HybridCryptoSystem.ofKeys 4 2).getDsaPublicKey, 0, -1⟩)

/-- An AES key of user 5 with equal halves, which decrypts to 1. -/
def keyWithSignature (r signature : String) : Json := .object [("dsa_r", .string r),
  ("dsa_signature", .string signature), ("encrypted_aes_key_c1", .string "1"),
  ("encrypted_aes_key_c2", .string "1"), ("sender_id", .number 5), ("type", .string "success")]

def signedKey : Json := keyWithSignature "3233eda3ddca92b9d7f85bd8387b9cb7a1b8d2b3"
  "af0ef120cd8e1e3b0ea4ea12485187050ed543d8"

theorem decryptMessage_one :
    (HybridCryptoSystem.ofKeys 6 7).decryptMessage ⟨1, 1⟩ = .ok 1 := by
  have hp := HybridCryptoSystem.elGamalP_pos
  have hone : (1 : Int) % HybridCryptoSystem.elGamalP = 1 := by decide
  rw [HybridCryptoSystem.decryptMessage, HybridCryptoSystem.ofKeys,
    ElGamalEncryption.decrypt_eq hp (by decide) (by decide)]
  dsimp only
  rw [Int.one_pow, hone, Int.one_pow, hone, Int.one_mul, hone]

theorem receivedKey_keyWithSignature (r signature : String) :
    receivedKey (.ofKeys 6 7) (keyWithSignature r signature) = some (5, 1) := by
  have hread : readEncryptedAesKey (keyWithSignature r signature) = .ok (5, ⟨1, 1⟩) := by rfl
  simp only [receivedKey, hread, decryptMessage_one]

theorem verifiedKey_keyWithSignature (keySet : UserCryptoKeySet) (r signature : String) :
    verifiedKey (.ofKeys 6 7) keySet (.aesKey (keyWithSignature r signature)) =
      if signatureVerifies (.ofKeys 6 7) keySet (keyWithSignature r signature) 5 then some (5, 1)
      else none := by
  unfold verifiedKey
  dsimp only
  rw [if_pos (show isSuccess (keyWithSignature r signature) = true from rfl),
    receivedKey_keyWithSignature]
  rfl

/-- The hash of the text that is checked, by evaluation. -/
theorem hashOf_ones : hashOf "11" =
    0x4fc82b26aecb47d2868c4efbe3581732a3e7cbcc6c2efb32062c08170a05eeb8 := by
  decide +kernel

theorem signatureVerifies_signedKey :
    signatureVerifies (.ofKeys 6 7) knowsSigner.keySet signedKey 5 = true := by
  have hread : readSignature signedKey = .ok (⟨0x3233eda3ddca92b9d7f85bd8387b9cb7a1b8d2b3,
      0xaf0ef120cd8e1e3b0ea4ea12485187050ed543d8⟩, hashOf "11") := by rfl
  have hkeys : knowsSigner.keySet.getUserKeys 5 =
      some ⟨(HybridCryptoSystem.ofKeys 4 2).getDsaPublicKey, 0, -1⟩ := rfl
  have hkey : 0 ≤ (HybridCryptoSystem.ofKeys 4 2).getDsaPublicKey :=
    Int.emod_nonneg _ HybridCryptoSystem.dsaP_pos.ne'
  have hverify : (HybridCryptoSystem.ofKeys 6 7).verify (hashOf "11")
      ⟨0x3233eda3ddca92b9d7f85bd8387b9cb7a1b8d2b3, 0xaf0ef120cd8e1e3b0ea4ea12485187050ed543d8⟩
      (HybridCryptoSystem.ofKeys 4 2).getDsaPublicKey = .ok true := by
    rw [hashOf_ones, HybridCryptoSystem.verify_ofKeys (by decide) hkey (by decide) (by decide) rfl]
    decide +kernel
  simp only [signatureVerifies, hread, hkeys, hverify]

theorem signatureVerifies_unsigned (keySet : UserCryptoKeySet) :
    signatureVerifies (.ofKeys 6 7) keySet (keyWithSignature "0" "0") 5 = false := by
  have hread : readSignature (keyWithSignature "0" "0") = .ok (⟨0, 0⟩, hashOf "11") := by rfl
  unfold signatureVerifies
  rw [hread]
  cases keySet.getUserKeys 5 with
  | none => rfl
  | some userKeys => rfl

/-- The key verifies and is held then, and the same key without a signature changes nothing. -/
theorem aesKeys_verified_signedKey :
    let t := (Tracked.start knowsSigner).step (.ofKeys 6 7) (.aesKey signedKey)
    t.verified 5 = 1 ∧ t.client.keySet.aesKeyOf 5 = 1 ∧
      (t.step (.ofKeys 6 7) (.aesKey (keyWithSignature "0" "0"))).client = t.client := by
  intro t
  have hreads : ∀ {r signature senderId aesKey},
      receivedKey (.ofKeys 6 7) (keyWithSignature r signature) = some (senderId, aesKey) →
        senderId = 5 ∧ aesKey = 1 := by
    intro r signature senderId aesKey h
    rw [receivedKey_keyWithSignature, Option.some.injEq, Prod.mk.injEq] at h
    exact ⟨h.1.symm, h.2.symm⟩
  have hkeeps : KeepsKeys (.ofKeys 6 7) (.start knowsSigner) (.aesKey signedKey) := by
    intro _ senderId aesKey h
    rw [(hreads h).1]
    exact .inl signatureVerifies_signedKey
  have hverified : verifiedKey (.ofKeys 6 7) knowsSigner.keySet (.aesKey signedKey) =
      some (5, 1) := by
    rw [signedKey, verifiedKey_keyWithSignature]
    exact if_pos signatureVerifies_signedKey
  have hkey : t.verified 5 = 1 :=
    (congrFun (verified_step_of_some hverified) 5).trans (Function.update_self ..)
  obtain ⟨hheld, hnext⟩ := aesKeys_verified (Run.nil.snoc (.aesKey signedKey) hkeeps)
  have hholds : t.client.keySet.aesKeyOf 5 = 1 := (hheld 5).trans hkey
  refine ⟨hkey, hholds, hnext (.aesKey (keyWithSignature "0" "0")) ?_ ?_⟩
  · -- the key that it brings is held already
    intro _ senderId aesKey h
    obtain ⟨rfl, rfl⟩ := hreads h
    right
    unfold UserCryptoKeySet.aesKeyOf at hholds
    revert hholds
    show (((t.client.keySet.getUserKeys 5).map (·.aesKey)).getD (-1) = 1) → _
    cases (t.client.keySet.getUserKeys 5).map (·.aesKey) with
    | none => nofun
    | some aesKey => exact congrArg some
  · rw [verifiedKey_keyWithSignature, signatureVerifies_unsigned]
    rfl

end Silence.Client
