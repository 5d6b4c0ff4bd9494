import Silence.Crypto.HybridCryptoSystem
import Silence.Crypto.Sha256
import Silence.Crypto.UserCryptoKeys
import Silence.Server.RequestHandler

/-!
# Silence.Client.Client

The messages that a client sends for the exchange of keys, and what it does with
the frames that it gets (`client/src/client.cpp`), in a build without debug messages.

`process_server_message` only catches a failing parse: whatever a handler throws
leaves it. The handlers read the frames with the functions of `Silence.Server.Json`,
which both programs use.
-/

namespace Silence.Client

open Silence.Lib Silence.Lib.Effect Silence.Crypto
open Server (Json JsonParser)

/-! ### State -/

/-- How a function of the client ends when it does not return. -/
inductive Failure where
  | json (e : Server.Exn)
  | crypto (e : CryptoError)
  /-- A null pointer is dereferenced. -/
  | nullPointer
  /-- `->` on a `std::optional` without a value. -/
  | emptyOptional
  deriving DecidableEq, Repr

structure State where
  keySet : UserCryptoKeySet
  chunkAcknowledged : Bool
  userFilesDir : Bytes
  /-- The files on the disk, by their paths. -/
  files : Bytes → Option Bytes
  /-- The paths of the open files, by their names. -/
  incomingFiles : OrdMap String Bytes
  /-- The messages handed to `async_write`. -/
  written : List Json.Members

abbrev Handler := Effect Failure State

/-- Read a field of a frame. -/
def read {α : Type} (x : Except Server.Exn α) : Handler α := attempt (x.mapError .json)

def compute {α : Type} (x : Except CryptoError α) : Handler α := attempt (x.mapError .crypto)

/-- `hex_to_cpp_int(json[key])`. -/
def readHex (json : Json) (key : String) : Except Server.Exn Int :=
  do Server.hexNumber (← json.readString key)

def State.addUserKeys (client : State) (userId : Int) (keys : UserCryptoKeys) : State :=
  { client with keySet := client.keySet.addUserKeys userId keys }

def State.setAesKey (client : State) (userId aesKey : Int) : State :=
  { client with keySet := client.keySet.setAesKey userId aesKey }

/-! ### Sending -/

/-- The hash of a text, as a number: `hex_to_cpp_int` of the digest, which is a numeral. -/
def hashOf (text : String) : Int :=
  (hexToCppInt (Sha256.digestOf (bytesOf text))).toOption.getD 0

/-- What `send_aes_key` hashes. -/
def senderText (encryptedAesKeyC1 encryptedAesKeyC2 : String) : String :=
  encryptedAesKeyC1 ++ encryptedAesKeyC2

/-- The request that `send_aes_key` makes for an encrypted key, with the nonces that the
signature draws; none while it needs more of them. -/
def aesKeyRequest (system : HybridCryptoSystem) (senderId : Int) (receiverNickname : String)
    (encryptedAesKey : EncryptedMessage) (nonces : List Int) :
    Except Failure (Option Json.Members) := do
  let encryptedAesKeyC1 ← (Server.hexText encryptedAesKey.c1).mapError .json
  let encryptedAesKeyC2 ← (Server.hexText encryptedAesKey.c2).mapError .json
  match ← (system.sign (hashOf (senderText encryptedAesKeyC1 encryptedAesKeyC2)) nonces).mapError
      .crypto with
  | none => return none
  | some dsaSignature =>
      let dsaR ← (Server.hexText dsaSignature.r).mapError .json
      let signature ← (Server.hexText dsaSignature.signature).mapError .json
      return some (Json.Members.ofList [("type", .string "send_aes_key"),
        ("sender_id", .number senderId), ("receiver_nickname", .string receiverNickname),
        ("encrypted_aes_key_c1", .string encryptedAesKeyC1),
        ("encrypted_aes_key_c2", .string encryptedAesKeyC2), ("dsa_r", .string dsaR),
        ("dsa_signature", .string signature)])

/-- The request that `send_aes_key` writes, with the ephemeral key that is drawn. -/
def sendAesKey (system : HybridCryptoSystem) (senderId k : Int) (nonces : List Int)
    (receiverNickname : String) (receiverPublicKey : Bytes) :
    Except Failure (Option Json.Members) := do
  let encryptedAesKey ← (system.encryptMessage k receiverPublicKey).mapError fun
    | .nullPointer => .nullPointer
    | .crypto e => .crypto e
  aesKeyRequest system senderId receiverNickname encryptedAesKey nonces

/-- The request of `register_user`. -/
def registerRequest (nickname password : String) (elGamalPublicKey dsaPublicKey : Int) :
    Except Server.Exn Json.Members := do
  let elGamalPublicKey ← Server.hexText elGamalPublicKey
  let dsaPublicKey ← Server.hexText dsaPublicKey
  return Json.Members.ofList [("type", .string "register"), ("nickname", .string nickname),
    ("password", .string password), ("el_gamal_public_key", .string elGamalPublicKey),
    ("dsa_public_key", .string dsaPublicKey)]

/-- The request of `get_receiver_public_keys`. -/
def userKeysRequest (receiverNickname : String) : Json.Members :=
  Json.Members.ofList [("type", .string "get_user_keys"), ("nickname", .string receiverNickname)]

/-! ### Receiving -/

def handleChunkAcknowledgment (response : Json) : Handler Unit := do
  if (← read (response.at? "status")).isText "success" then
    modify fun client => { client with chunkAcknowledged := true }
  else
    -- the text of the error is logged
    let _ ← read (response.readString "error")

/-- Open a file for writing, which empties it. -/
def State.openFile (client : State) (filename : String) : State :=
  let path := client.userFilesDir ++ bytesOf "/" ++ bytesOf filename
  { client with
    files := Function.update client.files path (some [])
    incomingFiles := client.incomingFiles.insert filename path }

def handleIncomingFile (notification : Json) : Handler Unit := do
  let filename ← read (notification.readString "filename")
  let _ ← read (notification.readInt "sender_id")
  modify (·.openFile filename)

/-- Append to a file, and acknowledge the chunk. -/
def State.writeChunk (client : State) (path : Bytes) (filename chunkData : String)
    (chunkNumber : UInt64) : State :=
  { client with
    files := Function.update client.files path
      (some ((client.files path).getD [] ++ bytesOf chunkData))
    written := client.written ++ [Json.Members.ofList [("type", .string "chunk_received"),
      ("filename", .string filename), ("chunk_number", .number chunkNumber.toNat)]] }

/-- Close the stream of a file. -/
def State.closeFile (client : State) (filename : String) : State :=
  { client with incomingFiles := client.incomingFiles.eraseFirst fun entry => entry.1 = filename }

def handleIncomingFileChunk (chunkMessage : Json) : Handler Unit := do
  let filename ← read (chunkMessage.readString "filename")
  let chunkData ← read (chunkMessage.readString "chunk_data")
  let chunkNumber ← read (chunkMessage.readSize "chunk_number")
  let isLast ← read (chunkMessage.readBool "is_last")
  match (← get).incomingFiles.find? filename with
  | none => pure ()
  | some path =>
      modify (·.writeChunk path filename chunkData chunkNumber)
      if isLast then modify (·.closeFile filename)

/-- The user and the keys of a request with public keys. -/
def readPublicKeys (request : Json) : Except Server.Exn (Int × UserCryptoKeys) := do
  let userId ← request.readInt "sender_id"
  let dsaPublicKey ← readHex request "dsa_public_key"
  let elGamalPublicKey ← readHex request "el_gamal_public_key"
  return (userId, ⟨dsaPublicKey, elGamalPublicKey, -1⟩)

def handleReceiveUserPublicKeys (request : Json) : Handler Unit := do
  if (← read (request.at? "type")).isText "success" then
    let (userId, userCryptoKeys) ← read (readPublicKeys request)
    modify (·.addUserKeys userId userCryptoKeys)

/-- The sender and the encrypted key of a request with an AES key. -/
def readEncryptedAesKey (request : Json) : Except Server.Exn (Int × EncryptedMessage) := do
  let senderId ← request.readInt "sender_id"
  let c1 ← readHex request "encrypted_aes_key_c1"
  let c2 ← readHex request "encrypted_aes_key_c2"
  return (senderId, ⟨c1, c2⟩)

/-- What `handle_receive_aes_key` hashes: the second text twice. -/
def receiverText (_encryptedAesKeyC1 encryptedAesKeyC2 : String) : String :=
  encryptedAesKeyC2 ++ encryptedAesKeyC2

/-- The signature of a request with an AES key, and the hash that it is checked for. -/
def readSignature (request : Json) : Except Server.Exn (DSASignature × Int) := do
  let r ← readHex request "dsa_r"
  let signature ← readHex request "dsa_signature"
  let encryptedAesKeyC1 ← request.readString "encrypted_aes_key_c1"
  let encryptedAesKeyC2 ← request.readString "encrypted_aes_key_c2"
  return (⟨r, signature⟩, hashOf (receiverText encryptedAesKeyC1 encryptedAesKeyC2))

/-- The success branch of `handle_receive_aes_key`. -/
def receiveAesKey (system : HybridCryptoSystem) (request : Json) : Handler Unit := do
  let (senderId, encryptedAesKey) ← read (readEncryptedAesKey request)
  let aesKey ← compute (system.decryptMessage encryptedAesKey)
  -- the key is set before its signature is checked
  modify (·.setAesKey senderId aesKey)
  let (dsaSignature, messageHash) ← read (readSignature request)
  match (← get).keySet.getUserKeys senderId with
  | none => throw .emptyOptional
  | some userKeys =>
      if ← compute (system.verify messageHash dsaSignature userKeys.dsaPublicKey) then
        modify (·.setAesKey senderId aesKey)

def handleReceiveAesKey (system : HybridCryptoSystem) (request : Json) : Handler Unit := do
  if (← read (request.at? "type")).isText "success" then receiveAesKey system request

/-- `json[key]` on a value that is not constant: a missing key is created with the value
null. -/
def fieldOf (key : String) : Json → Except Server.Exn Json
  | .object members => .ok ((members.lookup key).getD .null)
  | .null => .ok .null
  | _ => .error .typeError

/-- `json_message["type"]`. -/
abbrev typeOf : Json → Except Server.Exn Json := fieldOf "type"

theorem typeOf_eq_ok_iff {message : Json} {type : String} :
    typeOf message = .ok (.string type) ↔ message.member? "type" = some (.string type) := by
  cases message with
  | object members =>
      rw [typeOf, fieldOf, Json.member?]
      cases members.lookup "type" with
      | none => simp
      | some found => simp
  | _ => simp [fieldOf, Json.member?]

/-- The dispatch on the type of a frame. -/
def dispatchMessage (system : HybridCryptoSystem) (message : Json) : Handler Unit := do
  let type ← read (typeOf message)
  if type.isText "chunk_acknowledgment" then handleChunkAcknowledgment message
  else if type.isText "incoming_file" then handleIncomingFile message
  else if type.isText "file_chunk" then handleIncomingFileChunk message
  else if type.isText "receive_user_public_keys" then handleReceiveUserPublicKeys message
  else if type.isText "receive_aes_key" then handleReceiveAesKey system message

/-- Only a `parse_error` is caught. -/
def processServerMessage (parse : JsonParser) (system : HybridCryptoSystem)
    (message : Bytes) : Handler Unit :=
  match parse message with
  | .ok jsonMessage => dispatchMessage system jsonMessage
  | .error .parseError => pure ()
  | .error .outOfRange => throw (.json .jsonOutOfRange)

/-! ### What the keys do not change -/

section

variable {I : State → Prop}

/-- Receiving public keys only adds them. -/
theorem preserves_receiveUserPublicKeys (request : Json)
    (hkeys : ∀ client userId keys, I client → I (client.addUserKeys userId keys)) :
    Preserves I (handleReceiveUserPublicKeys request) := by
  refine preserves_attempt_bind fun type _ => ?_
  split
  · exact preserves_attempt_bind fun _ _ => preserves_modify fun _ h => hkeys _ _ _ h
  · exact preserves_pure _

/-- Receiving an AES key only sets it. -/
theorem preserves_receiveAesKey (system : HybridCryptoSystem) (request : Json)
    (haesKey : ∀ client userId aesKey, I client → I (client.setAesKey userId aesKey)) :
    Preserves I (handleReceiveAesKey system request) := by
  refine preserves_attempt_bind fun type _ => ?_
  split
  · refine preserves_attempt_bind fun _ _ => preserves_attempt_bind fun _ _ =>
      preserves_bind (preserves_modify fun _ h => haesKey _ _ _ h) fun _ =>
        preserves_attempt_bind fun _ _ => ?_
    refine triple_get_bind fun client h => ?_
    cases client.keySet.getUserKeys _ with
    | none => exact triple_throw fun s hs => hs ▸ h
    | some userKeys =>
        refine triple_attempt_bind (fun s hs => hs ▸ h) fun isVerified _ => ?_
        cases isVerified with
        | true => exact triple_modify fun s hs => hs ▸ haesKey _ _ _ h
        | false => exact triple_pure fun s hs => hs ▸ h
  · exact preserves_pure _

end

end Silence.Client
