import Silence.Client.KeySet

/-!
# Silence.Client.KeyExchange

A signature of `send_aes_key` in front of the check in `handle_receive_aes_key`.

The sender hashes the two texts of the encrypted key and the receiver hashes the
second one twice, so they hash the same text for the keys with two equal halves and
for no other (`aesKey_accepted_iff`).
-/

namespace Silence.Client

open Silence.Lib Silence.Crypto
open Silence.Lib.Effect (bind_eq_ok mapError_eq_ok)
open Server (Json hexText)

/-! ### The two texts -/

/-- The text that the sender hashes for an encrypted key. -/
def sentText (encryptedAesKey : EncryptedMessage) : Except Server.Exn String := do
  let encryptedAesKeyC1 ← hexText encryptedAesKey.c1
  let encryptedAesKeyC2 ← hexText encryptedAesKey.c2
  return senderText encryptedAesKeyC1 encryptedAesKeyC2

/-- A digest consists of hexadecimal digits. -/
theorem isHexDigit_of_mem_digestOf {m : Bytes} {c : UInt8} (h : c ∈ Sha256.digestOf m) :
    isHexDigit c = true := by
  simp only [Sha256.digestOf, Sha256.Object.digest, List.mem_flatMap] at h
  obtain ⟨w, -, hc⟩ := h
  rcases List.mem_append.mp hc with hfill | hdigit
  · rw [(List.mem_replicate.mp hfill).2]
    rfl
  · exact isHexDigit_of_mem_toHex hdigit

theorem digestOf_ne_nil (m : Bytes) : Sha256.digestOf m ≠ [] := by
  simp only [Sha256.digestOf, Sha256.Object.digest, ne_eq, List.flatMap_eq_nil_iff, not_forall]
  refine ⟨_, Vector.mem_toList_iff.mpr (Vector.getElem_mem (Nat.zero_lt_succ 7)), ?_⟩
  rw [setw, List.append_eq_nil_iff, not_and]
  exact fun _ => toHex_ne_nil _

/-- The digest is read as a number. -/
theorem exists_hexToCppInt_digestOf (text : String) :
    ∃ hash : Nat, hexToCppInt (Sha256.digestOf (bytesOf text)) = .ok (hash : Int) :=
  ⟨_, hexToCppInt_of_digits (digestOf_ne_nil (bytesOf text)) fun _ => isHexDigit_of_mem_digestOf⟩

theorem hashOf_nonneg (text : String) : 0 ≤ hashOf text := by
  obtain ⟨hash, hread⟩ := exists_hexToCppInt_digestOf text
  rw [hashOf, hread]
  exact Int.natCast_nonneg hash

/-- The text that the receiver hashes for a request. -/
def checkedText (request : Json) : Except Server.Exn String := do
  let encryptedAesKeyC1 ← request.readString "encrypted_aes_key_c1"
  let encryptedAesKeyC2 ← request.readString "encrypted_aes_key_c2"
  return receiverText encryptedAesKeyC1 encryptedAesKeyC2

/-- Different numbers have different texts. -/
theorem hexText_inj {a b : Int} {text : String} (ha : hexText a = .ok text)
    (hb : hexText b = .ok text) : a = b := by
  have hread := Server.hexNumber_hexText ha
  rw [Server.hexNumber_hexText hb] at hread
  exact (Except.ok.inj hread).symm

/-- The two texts agree when the first halves do. -/
theorem senderText_eq_iff {c1 c2 : Int} {t1 t2 : String} (h1 : hexText c1 = .ok t1)
    (h2 : hexText c2 = .ok t2) : senderText t1 t2 = receiverText t1 t2 ↔ c1 = c2 := by
  rw [senderText, receiverText, String.append_left_inj]
  constructor
  · rintro rfl
    exact hexText_inj h1 h2
  · rintro rfl
    rw [h1] at h2
    exact Except.ok.inj h2

/-! ### The request on its way -/

/-- The fields of an encrypted key and of its signature. -/
def carriedFields : List String :=
  ["encrypted_aes_key_c1", "encrypted_aes_key_c2", "dsa_r", "dsa_signature"]

/-- The receiver gets the fields as the sender wrote them. -/
def Carries (request : Json.Members) (received : Json) : Prop :=
  ∀ key ∈ carriedFields, received.member? key = request.lookup key

/-- What is in a request of `send_aes_key`. -/
structure Sends (system : HybridCryptoSystem) (senderId : Int) (receiverNickname : String)
    (encryptedAesKey : EncryptedMessage) (nonces : List Int) (request : Json.Members)
    (c1 c2 r s : String) (sig : DSASignature) : Prop where
  c1_text : hexText encryptedAesKey.c1 = .ok c1
  c2_text : hexText encryptedAesKey.c2 = .ok c2
  signed : system.sign (hashOf (senderText c1 c2)) nonces = .ok (some sig)
  r_text : hexText sig.r = .ok r
  s_text : hexText sig.signature = .ok s
  request_eq : request = Json.Members.ofList [("type", .string "send_aes_key"),
    ("sender_id", .number senderId), ("receiver_nickname", .string receiverNickname),
    ("encrypted_aes_key_c1", .string c1), ("encrypted_aes_key_c2", .string c2),
    ("dsa_r", .string r), ("dsa_signature", .string s)]

theorem sends_of_aesKeyRequest {system : HybridCryptoSystem} {senderId : Int}
    {receiverNickname : String} {encryptedAesKey : EncryptedMessage} {nonces : List Int}
    {request : Json.Members}
    (h : aesKeyRequest system senderId receiverNickname encryptedAesKey nonces =
      .ok (some request)) :
    ∃ c1 c2 r s sig, Sends system senderId receiverNickname encryptedAesKey nonces request c1 c2 r
      s sig := by
  obtain ⟨c1, hc1, h⟩ := bind_eq_ok.mp h
  obtain ⟨c2, hc2, h⟩ := bind_eq_ok.mp h
  obtain ⟨result, hsign, h⟩ := bind_eq_ok.mp h
  cases result with
  | none => cases h
  | some sig =>
      obtain ⟨r, hr, h⟩ := bind_eq_ok.mp h
      obtain ⟨s, hs, h⟩ := bind_eq_ok.mp h
      cases h
      exact ⟨c1, c2, r, s, sig, mapError_eq_ok.mp hc1, mapError_eq_ok.mp hc2,
        mapError_eq_ok.mp hsign, mapError_eq_ok.mp hr, mapError_eq_ok.mp hs, rfl⟩

section Received

variable {system : HybridCryptoSystem} {senderId : Int} {receiverNickname : String}
  {encryptedAesKey : EncryptedMessage} {nonces : List Int} {request : Json.Members}
  {c1 c2 r s : String} {sig : DSASignature} {received : Json}

theorem Sends.sentText_eq
    (h : Sends system senderId receiverNickname encryptedAesKey nonces request c1 c2 r s sig) :
    sentText encryptedAesKey = .ok (senderText c1 c2) := by
  rw [sentText, h.c1_text, h.c2_text]
  rfl

theorem Sends.read_c1
    (h : Sends system senderId receiverNickname encryptedAesKey nonces request c1 c2 r s sig)
    (hcarries : Carries request received) : received.readString "encrypted_aes_key_c1" = .ok c1 :=
  Json.readString_of_member? ((hcarries _ (by simp [carriedFields])).trans (by simp [h.request_eq]))

theorem Sends.read_c2
    (h : Sends system senderId receiverNickname encryptedAesKey nonces request c1 c2 r s sig)
    (hcarries : Carries request received) : received.readString "encrypted_aes_key_c2" = .ok c2 :=
  Json.readString_of_member? ((hcarries _ (by simp [carriedFields])).trans (by simp [h.request_eq]))

theorem Sends.checkedText_eq
    (h : Sends system senderId receiverNickname encryptedAesKey nonces request c1 c2 r s sig)
    (hcarries : Carries request received) : checkedText received = .ok (receiverText c1 c2) := by
  rw [checkedText, h.read_c1 hcarries, h.read_c2 hcarries]
  rfl

/-- The receiver reads the signature that was made. -/
theorem Sends.readSignature_eq
    (h : Sends system senderId receiverNickname encryptedAesKey nonces request c1 c2 r s sig)
    (hcarries : Carries request received) :
    readSignature received = .ok (sig, hashOf (receiverText c1 c2)) := by
  have hr : received.readString "dsa_r" = .ok r :=
    Json.readString_of_member?
      ((hcarries _ (by simp [carriedFields])).trans (by simp [h.request_eq]))
  have hs : received.readString "dsa_signature" = .ok s :=
    Json.readString_of_member?
      ((hcarries _ (by simp [carriedFields])).trans (by simp [h.request_eq]))
  simp only [readSignature, readHex, hr, hs, h.read_c1 hcarries, h.read_c2 hcarries, bind,
    Except.bind, pure, Except.pure, Server.hexNumber_hexText h.r_text,
    Server.hexNumber_hexText h.s_text]

end Received

/-- The signature of one object is accepted by every other. -/
theorem accepts_sign_ofKeys {x y x' y' hash : Int} (hy : 1 ≤ y ∧ y ≤ HybridCryptoSystem.dsaQ - 1)
    (hhash : 0 ≤ hash) {nonces : List Int}
    (hnonces : ∀ k ∈ nonces, 1 ≤ k ∧ k ≤ HybridCryptoSystem.dsaQ - 1) {sig : DSASignature}
    (hsign : (HybridCryptoSystem.ofKeys x y).sign hash nonces = .ok (some sig)) :
    (HybridCryptoSystem.ofKeys x' y').verify hash sig
      (HybridCryptoSystem.ofKeys x y).getDsaPublicKey = .ok true :=
  (DSA.accepts_sign HybridCryptoSystem.prime_dsaQ HybridCryptoSystem.dsaG_range.1
    HybridCryptoSystem.dsaG_range.2 HybridCryptoSystem.dsaG_order _ hy hhash hnonces hsign).2.2

/-- A signed key is checked for the text that was signed, and accepted, if and only if its two
halves are the same number. -/
theorem aesKey_accepted_iff {isPrime isPrime' : Int → Bool} {x y x' y' : Int}
    {sender receiver : HybridCryptoSystem}
    (hsender : HybridCryptoSystem.new isPrime x y = .ok sender)
    (hreceiver : HybridCryptoSystem.new isPrime' x' y' = .ok receiver)
    (hy : 1 ≤ y ∧ y ≤ HybridCryptoSystem.dsaQ - 1) {senderId : Int} {receiverNickname : String}
    {encryptedAesKey : EncryptedMessage} {nonces : List Int}
    (hnonces : ∀ k ∈ nonces, 1 ≤ k ∧ k ≤ HybridCryptoSystem.dsaQ - 1) {request : Json.Members}
    (hrequest : aesKeyRequest sender senderId receiverNickname encryptedAesKey nonces =
      .ok (some request)) {received : Json} (hcarries : Carries request received)
    {keySet : UserCryptoKeySet} {keys : UserCryptoKeys}
    (hkeys : keySet.getUserKeys senderId = some keys)
    (hheld : keys.dsaPublicKey = sender.getDsaPublicKey) :
    (checkedText received = sentText encryptedAesKey ∧
      signatureVerifies receiver keySet received senderId = true) ↔
        encryptedAesKey.c1 = encryptedAesKey.c2 := by
  obtain ⟨c1, c2, r, s, sig, hsends⟩ := sends_of_aesKeyRequest hrequest
  have htexts : checkedText received = sentText encryptedAesKey ↔
      encryptedAesKey.c1 = encryptedAesKey.c2 := by
    rw [hsends.checkedText_eq hcarries, hsends.sentText_eq, Except.ok.injEq, eq_comm]
    exact senderText_eq_iff hsends.c1_text hsends.c2_text
  constructor
  · rintro ⟨hsame, -⟩
    exact htexts.mp hsame
  · intro heq
    refine ⟨htexts.mpr heq, ?_⟩
    obtain ⟨-, -, -, rfl⟩ := HybridCryptoSystem.new_eq_ok_iff.mp hsender
    obtain ⟨-, -, -, rfl⟩ := HybridCryptoSystem.new_eq_ok_iff.mp hreceiver
    have hsame := (senderText_eq_iff hsends.c1_text hsends.c2_text).mpr heq
    have hverify : (HybridCryptoSystem.ofKeys x' y').verify (hashOf (receiverText c1 c2)) sig
        (HybridCryptoSystem.ofKeys x y).getDsaPublicKey = .ok true :=
      accepts_sign_ofKeys hy (hashOf_nonneg _) hnonces (hsame ▸ hsends.signed)
    simp only [signatureVerifies, hsends.readSignature_eq hcarries, hkeys, hheld, hverify]

/-! ### Two keys -/

/-- What the first nonce of a signature gives, by evaluation. -/
theorem sign_ofKeys_cons {x y hash k : Int} (hy : 0 ≤ y) (hhash : 0 ≤ hash) (hk : 0 ≤ k)
    (nonces : List Int) {r s : Int}
    (hr : (powMod HybridCryptoSystem.dsaG.toNat k.toNat HybridCryptoSystem.dsaP.toNat : Nat) %
      HybridCryptoSystem.dsaQ = r)
    (hs : (powMod k.toNat (HybridCryptoSystem.dsaQ - 2).toNat HybridCryptoSystem.dsaQ.toNat : Nat) *
      (hash + y * r) % HybridCryptoSystem.dsaQ = s) (hr0 : r ≠ 0) (hs0 : s ≠ 0) :
    (HybridCryptoSystem.ofKeys x y).sign hash (k :: nonces) = .ok (some ⟨r, s⟩) := by
  have hp := HybridCryptoSystem.dsaP_pos
  have hq := HybridCryptoSystem.dsaQ_pos
  have hg := HybridCryptoSystem.dsaG_nonneg
  have hcommit : (HybridCryptoSystem.ofKeys x y).dsa.commitment k = r := by
    rw [← hr, ← HybridCryptoSystem.pow_emod_eq hg hp.le rfl]
    rfl
  have hresponse : (HybridCryptoSystem.ofKeys x y).dsa.response hash k = s := by
    rw [DSA.response, hcommit, ← hs, ← HybridCryptoSystem.pow_emod_eq hk hq.le rfl]
    rfl
  rw [HybridCryptoSystem.sign, @DSA.sign_cons (HybridCryptoSystem.ofKeys x y).dsa hp hq hg hy hash
    k hhash hk, hcommit, hresponse, if_neg (not_or.mpr ⟨hr0, hs0⟩)]

/-- The request for an encrypted key that is signed. -/
theorem exists_aesKeyRequest {system : HybridCryptoSystem} {encryptedAesKey : EncryptedMessage}
    {nonces : List Int} {c1 c2 : String} {sig : DSASignature}
    (h1 : hexText encryptedAesKey.c1 = .ok c1) (h2 : hexText encryptedAesKey.c2 = .ok c2)
    (hsign : system.sign (hashOf (senderText c1 c2)) nonces = .ok (some sig)) (hr : 0 ≤ sig.r)
    (hs : 0 ≤ sig.signature) (senderId : Int) (receiverNickname : String) :
    ∃ request, aesKeyRequest system senderId receiverNickname encryptedAesKey nonces =
      .ok (some request) := by
  simp only [aesKeyRequest, h1, h2, hsign, Server.hexText_of_nonneg hr,
    Server.hexText_of_nonneg hs, bind, Except.bind, Except.mapError, pure, Except.pure,
    Except.ok.injEq, Option.some.injEq, exists_eq']

/-- The key set of a receiver that knows user 5. -/
def knowsSender : UserCryptoKeySet :=
  OrdMap.empty.insert 5 ⟨(HybridCryptoSystem.ofKeys 4 2).getDsaPublicKey, 0, -1⟩

/-- The hashes of the two texts, by evaluation. -/
theorem hashOf_texts :
    hashOf "790" = 0x1a6d9c97798d8997f85ed9228296d533be6b47f97217709d7e2b628e21800220 ∧
    hashOf "00" = 0xf1534392279bddbf9d43dde8701cb5be14b82f76ec6607bf8d6ad557f60f304e := by
  decide +kernel

/-- The key with the halves 1 and 1 is accepted. -/
theorem aesKey_accepted_ones :
    ∃ request, aesKeyRequest (.ofKeys 4 2) 5 "bob" ⟨1, 1⟩ [3] = .ok (some request) ∧
      checkedText (.object request) = sentText ⟨1, 1⟩ ∧
        signatureVerifies (.ofKeys 6 7) knowsSender (.object request) 5 = true := by
  have hsign : (HybridCryptoSystem.ofKeys 4 2).sign (hashOf (senderText "1" "1")) [3] =
      .ok (some ⟨0x3233eda3ddca92b9d7f85bd8387b9cb7a1b8d2b3,
        0xaf0ef120cd8e1e3b0ea4ea12485187050ed543d8⟩) := by
    rw [show senderText "1" "1" = "11" from rfl, hashOf_ones]
    exact sign_ofKeys_cons (by decide) (by decide) (by decide) [] (by decide +kernel)
      (by decide +kernel) (by decide) (by decide)
  obtain ⟨request, hrequest⟩ : ∃ request,
      aesKeyRequest (.ofKeys 4 2) 5 "bob" ⟨1, 1⟩ [3] = .ok (some request) :=
    exists_aesKeyRequest rfl rfl hsign (by decide) (by decide) 5 "bob"
  have hnew : ∀ x y, HybridCryptoSystem.new (fun _ => true) x y = .ok (.ofKeys x y) :=
    fun _ _ => HybridCryptoSystem.new_eq_ok_iff.mpr ⟨rfl, rfl, rfl, rfl⟩
  exact ⟨request, hrequest, (aesKey_accepted_iff (hnew 4 2) (hnew 6 7) (by decide) (by decide)
    hrequest (fun _ _ => rfl) rfl rfl).mpr rfl⟩

/-- The signature of the key with the halves 121 and 0. -/
theorem sign_790 : (HybridCryptoSystem.ofKeys 4 2).sign (hashOf (senderText "79" "0")) [3] =
    .ok (some ⟨0x3233eda3ddca92b9d7f85bd8387b9cb7a1b8d2b3,
      0x9686bbcf80418a60d73bf4abc5fb49e96b2e9e4e⟩) := by
  rw [show senderText "79" "0" = "790" from rfl, hashOf_texts.1]
  exact sign_ofKeys_cons (by decide) (by decide) (by decide) [] (by decide +kernel)
    (by decide +kernel) (by decide) (by decide)

/-- The key with the halves 121 and 0 is refused: the sender hashes 790 and the receiver 00. -/
theorem aesKey_refused :
    ∃ request, aesKeyRequest (.ofKeys 4 2) 5 "bob" ⟨121, 0⟩ [3] = .ok (some request) ∧
      sentText ⟨121, 0⟩ = .ok "790" ∧ checkedText (.object request) = .ok "00" ∧
      signatureVerifies (.ofKeys 6 7) knowsSender (.object request) 5 = false := by
  obtain ⟨request, hrequest⟩ : ∃ request,
      aesKeyRequest (.ofKeys 4 2) 5 "bob" ⟨121, 0⟩ [3] = .ok (some request) :=
    exists_aesKeyRequest rfl rfl sign_790 (by decide) (by decide) 5 "bob"
  obtain ⟨c1, c2, r, s, sig, hsends⟩ := sends_of_aesKeyRequest hrequest
  have hc1 : "79" = c1 := Except.ok.inj hsends.c1_text
  have hc2 : "0" = c2 := Except.ok.inj hsends.c2_text
  subst hc1 hc2
  have hsig := Option.some.inj (Except.ok.inj (sign_790.symm.trans hsends.signed))
  have hcarries : Carries request (.object request) := fun _ _ => rfl
  refine ⟨request, hrequest, rfl, hsends.checkedText_eq hcarries, ?_⟩
  have hkey : 0 ≤ (HybridCryptoSystem.ofKeys 4 2).getDsaPublicKey :=
    Int.emod_nonneg _ HybridCryptoSystem.dsaP_pos.ne'
  have hverify : (HybridCryptoSystem.ofKeys 6 7).verify (hashOf "00") sig
      (HybridCryptoSystem.ofKeys 4 2).getDsaPublicKey = .ok false := by
    rw [← hsig, hashOf_texts.2, HybridCryptoSystem.verify_ofKeys (by decide) hkey
      (by decide +kernel) (by decide +kernel) rfl]
    decide +kernel
  have hkeys : knowsSender.getUserKeys 5 =
      some ⟨(HybridCryptoSystem.ofKeys 4 2).getDsaPublicKey, 0, -1⟩ := rfl
  simp only [signatureVerifies, hsends.readSignature_eq hcarries, hkeys]
  rw [show receiverText "79" "0" = "00" from rfl, hverify]

end Silence.Client
