import Silence.Client.KeyExchange

/-!
# Silence.Client.AesKeyDelivery

The way of a request of `send_aes_key` over the server to the receiver.

It ends twice. The server asks for a field `dsa_signrature` that no client writes
(`exec_dispatch_aesKeyRequest`), and `handle_receive_aes_key` wants the type
`success` in a frame that it only gets because its type is `receive_aes_key`
(`exec_processServerMessage_aesKey`).
-/

namespace Silence.Client

open Silence.Lib Silence.Lib.Effect Silence.Crypto
open Server (Json JsonParser World Environment Socket Observation)

/-! ### The server -/

/-- The server looks for the signature under another name. -/
theorem Sends.exec_handleSendAesKey {system : HybridCryptoSystem} {senderId : Int}
    {receiverNickname : String} {encryptedAesKey : EncryptedMessage} {nonces : List Int}
    {request : Json.Members} {c1 c2 r s : String} {sig : DSASignature}
    (h : Sends system senderId receiverNickname encryptedAesKey nonces request c1 c2 r s sig)
    (env : Environment) (socket : Socket) (w : World) :
    exec (Server.handleSendAesKey env socket (.object request)) w =
      (.error (.absentKey "dsa_signrature"), w) := by
  have hread : ∀ key text, request.lookup key = some (.string text) →
      Json.readString (.object request) key = .ok text :=
    fun _ _ hkey => Json.readString_of_member? hkey
  have hsender : Json.readInt (.object request) "sender_id" = .ok (senderId.bmod (2 ^ 32)) := by
    have hmember : Json.member? (.object request) "sender_id" = some (.number senderId) := by
      simp [Json.member?, h.request_eq]
    exact Json.read_of_member? hmember
  have habsent : Json.readString (.object request) "dsa_signrature" =
      .error (.absentKey "dsa_signrature") := by
    have hlookup : request.lookup "dsa_signrature" = none := by simp [h.request_eq]
    rw [Json.readString, Json.at?, hlookup]
    rfl
  simp only [Server.handleSendAesKey, exec_bind, exec_attempt, hsender, habsent,
    hread "receiver_nickname" receiverNickname (by simp [h.request_eq]),
    hread "encrypted_aes_key_c1" c1 (by simp [h.request_eq]),
    hread "encrypted_aes_key_c2" c2 (by simp [h.request_eq]),
    hread "dsa_r" r (by simp [h.request_eq])]

/-- Every request of `send_aes_key` violates an assertion of the server, before anything is
written. -/
theorem exec_dispatch_aesKeyRequest {system : HybridCryptoSystem} {senderId : Int}
    {receiverNickname : String} {encryptedAesKey : EncryptedMessage} {nonces : List Int}
    {request : Json.Members}
    (h : aesKeyRequest system senderId receiverNickname encryptedAesKey nonces =
      .ok (some request)) (env : Environment) (socket : Socket) (w : World) :
    exec (Server.dispatch env socket (.object request)) w =
      (.error (.absentKey "dsa_signrature"), w) := by
  obtain ⟨c1, c2, r, s, sig, hsends⟩ := sends_of_aesKeyRequest h
  have htype : Json.member? (.object request) "type" = some (.string "send_aes_key") := by
    simp [Json.member?, hsends.request_eq]
  rw [← hsends.exec_handleSendAesKey env socket w, Server.dispatch, htype]
  rfl

/-! ### The receiver -/

/-- A frame for `handle_receive_aes_key` leaves the client as it is. -/
theorem exec_processServerMessage_aesKey {parse : JsonParser} {message : Bytes}
    {frame : Json} (hparse : parse message = .ok frame) (h : frame.HasType "receive_aes_key")
    (system : HybridCryptoSystem) (client : State) :
    exec (processServerMessage parse system message) client = (.ok (), client) := by
  rw [processServerMessage, hparse]
  change exec (dispatchMessage system frame) client = _
  rw [dispatchMessage, exec_bind, exec_read, typeOf_eq_ok_iff.mpr h]
  change exec (handleReceiveAesKey system frame) client = _
  rw [handleReceiveAesKey, exec_bind, exec_read, Json.at?_eq_ok_iff.mpr h]
  rfl

/-! ### The exchange -/

/-- The frames with an AES key that an observation puts on a socket. -/
def relayed (receiverSocket : Socket) : Observation → Option Json.Members
  | .wrote socket _ frame true =>
      if socket = receiverSocket ∧ (frame.lookup "type").any (·.isText "receive_aes_key") then
        some frame
      else none
  | _ => none

/-- What a request with an AES key should do: the server returns and relays its fields in one
frame, and the receiver of that frame decrypts and verifies them. -/
def Exchanged (env : Environment) (socket receiverSocket : Socket) (w : World)
    (request : Json.Members) (receiver : HybridCryptoSystem) : Prop :=
  ∃ w' frame, exec (Server.dispatch env socket (.object request)) w = (.ok (), w') ∧
    (w'.log.drop w.log.length).filterMap (relayed receiverSocket) = [frame] ∧
    (∀ key ∈ "sender_id" :: carriedFields, frame.lookup key = request.lookup key) ∧
    ∀ parse message, parse message = .ok (.object frame) → ∀ client,
      exec (processServerMessage parse receiver message) client =
        exec (receiveAesKey receiver (.object frame)) client

/-- The request that `send_aes_key` writes is that of an encrypted key. -/
theorem aesKeyRequest_of_sendAesKey {system : HybridCryptoSystem} {senderId k : Int}
    {nonces : List Int} {receiverNickname : String} {receiverPublicKey : Bytes}
    {request : Json.Members}
    (h : sendAesKey system senderId k nonces receiverNickname receiverPublicKey =
      .ok (some request)) :
    ∃ encryptedAesKey, aesKeyRequest system senderId receiverNickname encryptedAesKey nonces =
      .ok (some request) := by
  rw [sendAesKey] at h
  cases hencrypt : system.encryptMessage k receiverPublicKey with
  | error e => simp [hencrypt, Except.mapError, bind, Except.bind] at h
  | ok encryptedAesKey =>
      simp only [hencrypt, Except.mapError, bind, Except.bind] at h
      exact ⟨encryptedAesKey, h⟩

theorem sendAesKey_of_aesKeyRequest {system : HybridCryptoSystem} {senderId k : Int}
    {nonces : List Int} {receiverNickname : String} {receiverPublicKey : Bytes}
    {encryptedAesKey : EncryptedMessage} {request : Json.Members}
    (hencrypt : system.encryptMessage k receiverPublicKey = .ok encryptedAesKey)
    (h : aesKeyRequest system senderId receiverNickname encryptedAesKey nonces =
      .ok (some request)) :
    sendAesKey system senderId k nonces receiverNickname receiverPublicKey =
      .ok (some request) := by
  rw [sendAesKey, hencrypt]
  exact h

/-- No request that `send_aes_key` writes gets an AES key to its receiver: the server writes
nothing at all, and no frame of the type makes a client decrypt. -/
theorem aesKey_not_exchanged {system : HybridCryptoSystem} {senderId k : Int}
    {nonces : List Int} {receiverNickname : String} {receiverPublicKey : Bytes}
    {request : Json.Members}
    (h : sendAesKey system senderId k nonces receiverNickname receiverPublicKey =
      .ok (some request)) (env : Environment) (socket receiverSocket : Socket) (w : World)
    (receiver : HybridCryptoSystem) :
    ¬ Exchanged env socket receiverSocket w request receiver ∧
      exec (Server.dispatch env socket (.object request)) w =
        (.error (.absentKey "dsa_signrature"), w) ∧
      ∀ parse message (frame : Json), parse message = .ok frame →
        frame.HasType "receive_aes_key" → ∀ client,
          exec (processServerMessage parse receiver message) client = (.ok (), client) := by
  obtain ⟨encryptedAesKey, hrequest⟩ := aesKeyRequest_of_sendAesKey h
  have hdispatch := exec_dispatch_aesKeyRequest hrequest env socket w
  refine ⟨?_, hdispatch, fun parse message frame hparse htype =>
    exec_processServerMessage_aesKey hparse htype receiver⟩
  rintro ⟨w', frame, hreturns, -⟩
  rw [hdispatch] at hreturns
  cases hreturns

/-! ### A request -/

/-- A system with a key whose number is 0. -/
def keyedSystem : HybridCryptoSystem :=
  (HybridCryptoSystem.ofKeys 4 2).withKey (Vector.replicate 32 0xff)

/-- The key is encrypted to the halves 121 and 0. -/
theorem encryptMessage_keyedSystem :
    keyedSystem.encryptMessage 2 (bytesOf "3931") = .ok ⟨121, 0⟩ := by
  have hkey : hexToCppInt (Vector.replicate 32 (0xff : UInt8)).toList = .ok 0 := by
    decide +kernel
  have hrecipient : hexToCppInt (bytesOf "3931") = .ok 0x3931 := by decide +kernel
  have hp := HybridCryptoSystem.elGamalP_pos
  have hencrypt : (HybridCryptoSystem.ofKeys 4 2).elGamal.encrypt 2 0 0x3931 = .ok ⟨121, 0⟩ := by
    rw [@ElGamalEncryption.encrypt_eq (HybridCryptoSystem.ofKeys 4 2).elGamal (by decide) hp 0 _
      (Int.le_refl 0) (by decide), Int.zero_mul, Int.zero_emod]
    have hc1 : (HybridCryptoSystem.ofKeys 4 2).elGamal.g ^ (2 : Int).toNat %
        (HybridCryptoSystem.ofKeys 4 2).elGamal.p = 121 := HybridCryptoSystem.elGamalG_squared
    rw [hc1]
  have hsame : keyedSystem.elGamal = (HybridCryptoSystem.ofKeys 4 2).elGamal := rfl
  have haes : keyedSystem.aes = some (Vector.replicate 32 0xff) := rfl
  rw [HybridCryptoSystem.encryptMessage, haes]
  simp only [hkey, hrecipient, Except.mapError, bind, Except.bind, hsame, hencrypt]

theorem sign_keyedSystem (messageHash : Int) (nonces : List Int) :
    keyedSystem.sign messageHash nonces = (HybridCryptoSystem.ofKeys 4 2).sign messageHash nonces :=
  rfl

/-- What it writes for bob. -/
theorem exists_sendAesKey :
    ∃ request, sendAesKey keyedSystem 5 2 [3] "bob" (bytesOf "3931") = .ok (some request) := by
  obtain ⟨request, hrequest⟩ : ∃ request,
      aesKeyRequest keyedSystem 5 "bob" ⟨121, 0⟩ [3] = .ok (some request) :=
    exists_aesKeyRequest rfl rfl ((sign_keyedSystem _ _).trans sign_790) (by decide) (by decide) 5
      "bob"
  exact ⟨request, sendAesKey_of_aesKeyRequest encryptMessage_keyedSystem hrequest⟩

/-- A server with bob, who is user 1, on socket 7. -/
def bobConnected : World :=
  { World.start .fresh with connectedClients := Server.ConnectedClients.addClient .empty 1 7 }

/-- Bob does not get it. -/
theorem aesKey_not_exchanged_bob :
    ∃ request, sendAesKey keyedSystem 5 2 [3] "bob" (bytesOf "3931") = .ok (some request) ∧
      ¬ Exchanged .working 3 7 bobConnected request (.ofKeys 6 7) ∧
      exec (Server.dispatch .working 3 (.object request)) bobConnected =
        (.error (.absentKey "dsa_signrature"), bobConnected) ∧
      ∀ parse message (frame : Json), parse message = .ok frame →
        frame.HasType "receive_aes_key" → ∀ client,
          exec (processServerMessage parse (.ofKeys 6 7) message) client = (.ok (), client) := by
  obtain ⟨request, hrequest⟩ := exists_sendAesKey
  exact ⟨request, hrequest, aesKey_not_exchanged hrequest .working 3 7 bobConnected (.ofKeys 6 7)⟩

/-- The server fails on the request for bob, although he is connected. -/
theorem aesKey_lost_bob :
    Environment.working.getUserId "bob" = 1 ∧
      bobConnected.connectedClients.getClientSocket 1 = some 7 ∧
      ∃ request, sendAesKey keyedSystem 5 2 [3] "bob" (bytesOf "3931") = .ok (some request) ∧
        ¬ Exchanged .working 3 7 bobConnected request (.ofKeys 6 7) := by
  obtain ⟨request, hrequest⟩ := exists_sendAesKey
  obtain ⟨encryptedAesKey, haesKey⟩ := aesKeyRequest_of_sendAesKey hrequest
  refine ⟨rfl, rfl, request, hrequest, ?_⟩
  rintro ⟨w', frame, hreturns, -⟩
  rw [exec_dispatch_aesKeyRequest haesKey] at hreturns
  cases hreturns

end Silence.Client
