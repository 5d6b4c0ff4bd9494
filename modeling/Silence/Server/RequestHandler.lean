import Silence.Crypto.CryptoUtils
import Silence.Server.State

/-!
# Silence.Server.RequestHandler

The handlers of `server/src/request_handler.cpp`, as they run in a build without
debug messages.

`handleRequestLine` is the body of the loop of `handle_request` behind the reading
of the line. Only a `parse_error` is caught there: whatever a handler throws, what the
parser throws for a number that is too large, and a violated assertion leave
`handle_request`.
-/

namespace Silence.Server

open Silence.Lib.Effect (attempt)
open Json.Members (ofList)

/-! ### Registration and authorization -/

def handleRegister (env : Environment) (socket : Socket) (request : Json) : Handler Unit := do
  let nickname ← attempt (request.readString "nickname")
  let password ← attempt (request.readString "password")
  let elGamalPublicKey ← attempt (request.readString "el_gamal_public_key")
  let dsaPublicKey ← attempt (request.readString "dsa_public_key")
  let userId := env.createUser nickname password
  observe (.createdUser userId nickname password)
  -- a failure is only logged
  observe (.setPublicKeys userId elGamalPublicKey dsaPublicKey
    (env.setPublicKeys userId elGamalPublicKey dsaPublicKey))
  if userId ≠ 0 then
    write env socket none (ofList [("status", .string "success"),
      ("response", .string "User registered successfully"), ("user_id", .number userId)])
  else
    write env socket none (ofList [("status", .string "error"),
      ("response", .string "Failed to register user")])

/-- `add_client`, and that it happens. -/
def World.authorize (w : World) (userId : Int) (socket : Socket) : World :=
  { w.observe (.authorized userId) with
    connectedClients := w.connectedClients.addClient userId socket }

@[simp] theorem World.authorize_writes (w : World) (userId : Int) (socket : Socket) :
    (w.authorize userId socket).writes = w.writes := rfl

def handleAuthorize (env : Environment) (socket : Socket) (request : Json) : Handler Unit := do
  let nickname ← attempt (request.readString "nickname")
  let password ← attempt (request.readString "password")
  let userId ← attempt (request.readInt "user_id")
  if env.authorizeUser userId nickname password then
    modify (·.authorize userId socket)
    write env socket none (ofList [("status", .string "success"),
      ("response", .string "Authorization successful")])
  else
    write env socket none (ofList [("status", .string "error"),
      ("response", .string "Authorization failed: Invalid credentials")])

/-! ### Messages -/

/-- Write to a client if it is connected. -/
def writeToClient (env : Environment) (clientSocket : Option Socket) (userId : Int)
    (frame : Json.Members) : Handler Unit :=
  match clientSocket with
  | some clientSocket => write env clientSocket (some userId) frame
  | none => pure ()

/-- `_file_uploads[filename] = uploadState`. -/
def World.setUpload (w : World) (filename : String) (uploadState : UploadState) : World :=
  { w with fileUploads := w.fileUploads.insert filename uploadState }

/-- `_pending_file_transfers.push_back(transfer)` and `_file_uploads[filename] = {0, false}`. -/
def World.announce (w : World) (transfer : PendingFileTransfer) : World :=
  { (w.observe (.announced transfer)).setUpload transfer.filename ⟨0, false⟩ with
    pendingFileTransfers := w.pendingFileTransfers ++ [transfer] }

/-- The file part of `handle_send_message`: the name of the announced file. -/
def announceFile (request : Json) (senderId receiverId : Int) : Handler (Option String) :=
  match request.member? "file_name" with
  | none => pure none
  | some fileName =>
      if fileName.isText "none" then pure none
      else do
        let filename ← attempt fileName.getString
        modify (·.announce ⟨filename, senderId, receiverId⟩)
        return some filename

/-- `response["file_name"] = filename`, if there is one. -/
def setFileName (response : Json.Members) : Option String → Json.Members
  | some filename => response.set "file_name" (.string filename)
  | none => response

@[simp] theorem lookup_setFileName (response : Json.Members) (filename : Option String)
    {key : String} (h : key ≠ "file_name") :
    (setFileName response filename).lookup key = response.lookup key := by
  cases filename with
  | none => rfl
  | some filename => simp [setFileName, h]

/-- What `handle_send_message` does with a message that is stored. -/
def deliverMessage (env : Environment) (socket : Socket) (request : Json) (newMsg : Message) :
    Handler Unit := do
  let senderResponse := (ofList [("status", .string "success"),
    ("response", .string "Message sent successfully")]).update newMsg.toJson
  write env socket none senderResponse
  let receiverSocket := (← get).connectedClients.getClientSocket newMsg.receiverId
  let receiverResponse := newMsg.toJson.set "type" (.string "receive_msg")
  writeToClient env receiverSocket newMsg.receiverId receiverResponse
  let filename ← announceFile request newMsg.senderId newMsg.receiverId
  -- both are answered once more, now with the name of the file
  write env socket none ((((setFileName senderResponse filename).set
    "status" (.string "success")).set
    "response" (.string "Message sent successfully")).update newMsg.toJson)
  writeToClient env receiverSocket newMsg.receiverId (setFileName
    ((receiverResponse.update newMsg.toJson).set "type" (.string "receive_msg")) filename)

def handleSendMessage (env : Environment) (socket : Socket) (request : Json) : Handler Unit := do
  let senderId ← attempt (request.readInt "sender_id")
  let receiverNickname ← attempt (request.readString "receiver_nickname")
  let requestText ← attempt (request.readString "message_text")
  let receiverId := env.getUserId receiverNickname
  if receiverId = 0 then
    write env socket none (ofList [("status", .string "error"),
      ("response", .string "Receiver not found")])
  else
    let newMsg := Message.create env.now senderId receiverId requestText
    let msgMetadataId := env.createMessage newMsg
    if msgMetadataId = 0 then
      write env socket none (ofList [("status", .string "error"),
        ("response", .string "Failed to correctly save messages in database")])
    else
      let newMsg := newMsg.setId msgMetadataId
      observe (.stored newMsg)
      deliverMessage env socket request newMsg

/-! ### Files -/

/-- The text that `dump` makes of a string value. -/
def dumpedText (bytes : Bytes) : Except Exn String :=
  match String.fromUTF8? ⟨bytes.toArray⟩ with
  | some text => .ok text
  | none => .error .typeError

/-- Send one chunk of a file to a client; the result is whether the loop goes on. -/
def sendChunk (env : Environment) (clientSocket : Socket) (userId : Int) (filename : String)
    (i : Nat) (chunk : Bytes) (isLast : Bool) : Handler Bool :=
  catchException
    (do
      let text ← attempt (dumpedText chunk)
      write env clientSocket (some userId) (ofList [("type", .string "file_chunk"),
        ("filename", .string filename), ("chunk_number", .number i),
        ("chunk_data", .string text), ("is_last", .boolean isLast)])
      return true)
    (pure false)

/-- The loop of `send_file_to_client` from the chunk with the number `i`. -/
def sendChunks (env : Environment) (clientSocket : Socket) (userId : Int) (filename : String) :
    Nat → List Bytes → Handler Unit
  | _, [] => pure ()
  | i, chunk :: chunks => do
      if ← sendChunk env clientSocket userId filename i chunk chunks.isEmpty then
        sendChunks env clientSocket userId filename (i + 1) chunks

def sendFileToClient (env : Environment) (clientSocket : Socket) (userId : Int)
    (filename : String) : Handler Unit :=
  sendChunks env clientSocket userId filename 0 (env.downloadFileChunks filename)

/-- `_pending_file_transfers.erase(pending_it)`. -/
def World.eraseTransfer (w : World) (filename : String) : World :=
  { w with pendingFileTransfers := w.pendingFileTransfers.eraseP (·.filename = filename) }

/-- Deliver a completed file to the receiver of the first pending transfer of its
name. The transfer is erased also when sending the chunks was cut short. -/
def completeTransfer (env : Environment) (filename : String) : Handler Unit := do
  let w ← get
  match w.pendingFileTransfers.find? (·.filename = filename) with
  | none => pure ()
  | some transfer =>
      match w.connectedClients.getClientSocket transfer.receiverId with
      | none => pure ()
      | some receiverSocket =>
          catchException
            (do
              write env receiverSocket (some transfer.receiverId) (ofList [
                ("type", .string "incoming_file"), ("filename", .string filename),
                ("sender_id", .number transfer.senderId)])
              sendFileToClient env receiverSocket transfer.receiverId filename
              modify (·.eraseTransfer filename))
            (pure ())

/-- Create the state of an upload if there is none. -/
def World.openUpload (w : World) (filename : String) : World :=
  match w.fileUploads.find? filename with
  | some _ => w
  | none => w.setUpload filename ⟨0, false⟩

/-- `_file_uploads[filename]`. -/
def World.uploadState (w : World) (filename : String) : UploadState :=
  (w.fileUploads.find? filename).getD ⟨0, false⟩

/-- `RepositoryManager::upload_file_chunk`: its result, and the file server after it. -/
def World.upload (w : World) (env : Environment) (filename chunkData : String) :
    Bool × FileServer.State :=
  FileServer.uploadChunk w.fileServer (bytesOf chunkData) (env.uploadExchange filename)

def uploadFileChunk (env : Environment) (filename chunkData : String) : Handler Bool := do
  let w ← get
  let (success, fileServer) := w.upload env filename chunkData
  set { w with fileServer := fileServer }
  return success

/-- A chunk is uploaded: `last_chunk_received` and `completed` are set. -/
def World.accept (w : World) (filename chunkData : String) (uploadState : UploadState) : World :=
  (w.observe (.accepted filename chunkData)).setUpload filename uploadState

/-- The acknowledgement of a chunk. -/
def acknowledge (env : Environment) (socket : Socket) (response : Json.Members) : Handler Unit :=
  catchException (write env socket none response) (pure ())

/-- `handle_file_chunk` behind the reading of the fields. -/
def processChunk (env : Environment) (socket : Socket) (filename chunkData : String)
    (chunkNumber : UInt64) (isLast : Bool) : Handler Unit := do
  modify (·.openUpload filename)
  let uploadState := (← get).uploadState filename
  let response := ofList [("type", .string "chunk_acknowledgment"),
    ("filename", .string filename), ("chunk_number", .number chunkNumber.toNat)]
  if chunkNumber ≠ uploadState.lastChunkReceived + 1 then
    acknowledge env socket ((response.set "status" (.string "error")).set
      "error" (.string "wrong_chunk_order"))
  else if ← uploadFileChunk env filename chunkData then
    modify (·.accept filename chunkData ⟨chunkNumber, uploadState.completed || isLast⟩)
    if isLast then completeTransfer env filename
    acknowledge env socket (response.set "status" (.string "success"))
  else
    acknowledge env socket ((response.set "status" (.string "error")).set
      "error" (.string "upload_failed"))

def handleFileChunk (env : Environment) (socket : Socket) (request : Json) : Handler Unit := do
  let filename ← attempt (request.readString "filename")
  let chunkData ← attempt (request.readString "chunk_data")
  let chunkNumber ← attempt (request.readSize "chunk_number")
  let isLast ← attempt (request.readBool "is_last")
  processChunk env socket filename chunkData chunkNumber isLast

/-! ### Keys -/

/-- `response[key] = cpp_int_to_hex(num)`: the text of the number. -/
def hexText (num : Int) : Except Exn String :=
  match Crypto.cppIntToHex num with
  | some digits => .ok (String.ofList (digits.map fun d => Char.ofNat d.toNat))
  | none => .error .runtimeError

theorem hexText_of_nonneg {num : Int} (h : 0 ≤ num) :
    hexText num = .ok (String.ofList ((Lib.toHex num.toNat).map fun d => Char.ofNat d.toNat)) := by
  rw [hexText, Crypto.cppIntToHex_of_nonneg h]

/-- The text of a number is its numeral. -/
theorem hexText_spec {num : Int} {text : String} (h : hexText num = .ok text) :
    0 ≤ num ∧ bytesOf text = Lib.toHex num.toNat := by
  by_cases hnum : 0 ≤ num
  · rw [hexText_of_nonneg hnum, Except.ok.injEq] at h
    rw [← h]
    exact ⟨hnum, bytesOf_ofList fun b hb => Lib.lt_of_mem_toHex hb⟩
  · rw [hexText, Crypto.cppIntToHex, if_pos (not_le.mp hnum)] at h
    cases h

/-- `hex_to_cpp_int(text)`. -/
def hexNumber (text : String) : Except Exn Int :=
  match Crypto.hexToCppInt (bytesOf text) with
  | .ok num => .ok num
  | .error .outOfRange => .error .outOfRange
  | .error _ => .error .runtimeError

/-- The number can be read back from its text. -/
theorem hexNumber_hexText {num : Int} {text : String} (h : hexText num = .ok text) :
    hexNumber text = .ok num := by
  obtain ⟨hnum, hbytes⟩ := hexText_spec h
  rw [hexNumber, hbytes, Crypto.hexToCppInt_toHex, Int.toNat_of_nonneg hnum]

def handleGetUserKeys (env : Environment) (socket : Socket) (request : Json) : Handler Unit := do
  let nickname ← attempt (request.readString "nickname")
  let receiverId := env.getUserId nickname
  if receiverId = 0 then
    write env socket none (ofList [("status", .string "error"),
      ("response", .string "Receiver not found")])
  else
    match env.getPublicKeys receiverId with
    | none =>
        write env socket none (ofList [("status", .string "error"),
          ("response", .string "Failed to retrieve keys")])
    | some keys =>
        let dsaPublicKey ← attempt (hexText keys.dsaPublicKey)
        let elGamalPublicKey ← attempt (hexText keys.elGamalPublicKey)
        write env socket none (ofList [("status", .string "success"),
          ("user_id", .number receiverId), ("dsa_public_key", .string dsaPublicKey),
          ("el_gamal_public_key", .string elGamalPublicKey)])

def handleSendAesKey (env : Environment) (socket : Socket) (request : Json) : Handler Unit := do
  let senderId ← attempt (request.readInt "sender_id")
  let receiverNickname ← attempt (request.readString "receiver_nickname")
  let encryptedAesKeyC1 ← attempt (request.readString "encrypted_aes_key_c1")
  let encryptedAesKeyC2 ← attempt (request.readString "encrypted_aes_key_c2")
  let dsaR ← attempt (request.readString "dsa_r")
  let dsaSignature ← attempt (request.readString "dsa_signrature")
  let receiverId := env.getUserId receiverNickname
  if receiverId = 0 then
    write env socket none (ofList [("status", .string "error"),
      ("response", .string "Receiver not found")])
  else
    write env socket none (ofList [("status", .string "success"),
      ("response", .string "AES key sent successfully")])
    let receiverSocket := (← get).connectedClients.getClientSocket receiverId
    writeToClient env receiverSocket receiverId (ofList [("type", .string "receive_aes_key"),
      ("sender_id", .number senderId), ("encrypted_aes_key_c1", .string encryptedAesKeyC1),
      ("encrypted_aes_key_c2", .string encryptedAesKeyC2), ("dsa_r", .string dsaR),
      ("dsa_signature", .string dsaSignature)])

/-! ### Dispatch -/

/-- `boost::asio::write` with an error code, which is only logged. -/
def reply (env : Environment) (socket : Socket) (response : String) : Handler Unit := do
  let _ ← send env socket none (ofList [("status", .string "error"),
    ("response", .string response)])

/-- The request has the given type. -/
def Json.HasType (request : Json) (type : String) : Prop :=
  request.member? "type" = some (.string type)

/-- The dispatch on the type of a request. -/
def dispatch (env : Environment) (socket : Socket) (request : Json) : Handler Unit :=
  match request.member? "type" with
  | none => reply env socket "Missing request type"
  | some type =>
      if type.isText "register" then handleRegister env socket request
      else if type.isText "authorize" then handleAuthorize env socket request
      else if type.isText "send_message" then handleSendMessage env socket request
      else if type.isText "file_chunk" then handleFileChunk env socket request
      else if type.isText "get_user_keys" then handleGetUserKeys env socket request
      else if type.isText "send_aes_key" then handleSendAesKey env socket request
      else reply env socket "Unknown request type"

/-- What the loop does with a request line, given what `parse` makes of it. -/
def processRequest (env : Environment) (socket : Socket) :
    Except ParseFailure Json → Handler Unit
  | .ok request => dispatch env socket request
  | .error .parseError => reply env socket "Invalid JSON format"
  | .error .outOfRange => throw .jsonOutOfRange

def handleRequestLine (parse : JsonParser) (env : Environment) (socket : Socket)
    (line : Bytes) : Handler Unit := do
  modify World.beginRequest
  processRequest env socket (parse line)

end Silence.Server
