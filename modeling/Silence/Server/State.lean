import Silence.FileServer.FileServer
import Silence.Lib.Effect
import Silence.Server.Json

/-!
# Silence.Server.State

What the request handlers work on: the connected clients, the pending file
transfers, the states of the uploads and the file server.

A request also meets an `Environment`: the answers of the databases, the results
of its writes to sockets and what happens to its exchanges with the file server.
Every request brings its own, so nothing is assumed about how the answers of
different requests fit together. What a request does to the outside is recorded
as a list of observations.
-/

namespace Silence.Server

open Silence.Lib Silence.Lib.Effect

/-- A connection. -/
abbrev Socket := Nat

/-! ### Connected clients -/

/-- The map of `ConnectedClientsManager`. -/
abbrev ConnectedClients := OrdMap Int Socket

def ConnectedClients.addClient (clients : ConnectedClients) (userId : Int) (socket : Socket) :
    ConnectedClients :=
  clients.insert userId socket

/-- Only the first entry with the socket is removed. -/
def ConnectedClients.removeClientBySocket (clients : ConnectedClients) (socket : Socket) :
    ConnectedClients :=
  clients.eraseFirst fun entry => entry.2 = socket

def ConnectedClients.getClientSocket (clients : ConnectedClients) (userId : Int) : Option Socket :=
  clients.find? userId

/-! ### Messages and keys -/

/-- A `common::Message` of the server, which never edits or deletes it. -/
structure Message where
  id : Int
  senderId : Int
  receiverId : Int
  chatId : Int
  deleted : Bool
  createdTimestamp : Int
  text : String
  deriving DecidableEq, Repr

/-- The constructor of `common::Message`, at the time `now`. -/
def Message.create (now senderId receiverId : Int) (text : String) : Message where
  id := 0
  senderId := senderId
  receiverId := receiverId
  chatId := 0
  deleted := false
  createdTimestamp := now
  text := text

/-- `Message::set_id`. -/
def Message.setId (message : Message) (id : Int) : Message := { message with id := id }

/-- `Message::to_json`: the metadata, updated by the text with its id. -/
def Message.toJson (message : Message) : Json.Members :=
  (Json.Members.ofList [
    ("id", .number message.id),
    ("sender_id", .number message.senderId),
    ("receiver_id", .number message.receiverId),
    ("chat_id", .number message.chatId),
    ("deleted", .boolean message.deleted),
    ("created_timestamp", .number message.createdTimestamp)]).update
  (Json.Members.ofList [("id", .number message.id), ("text", .string message.text)])

@[simp] theorem Message.lookup_toJson_type (message : Message) :
    message.toJson.lookup "type" = none := by
  simp [Message.toJson]

@[simp] theorem Message.lookup_toJson_senderId (message : Message) :
    message.toJson.lookup "sender_id" = some (.number message.senderId) := by
  simp [Message.toJson]

/-- The stored keys of a user that the server hands out. -/
structure UserCryptoKeys where
  dsaPublicKey : Int
  elGamalPublicKey : Int
  deriving DecidableEq, Repr

/-! ### State -/

structure UploadState where
  lastChunkReceived : UInt64
  completed : Bool
  deriving DecidableEq, Repr

structure PendingFileTransfer where
  filename : String
  senderId : Int
  receiverId : Int
  deriving DecidableEq, Repr

/-- What a request does. -/
inductive Observation where
  /-- A frame is written to a socket, or the write fails. The recipient is the user
  whose socket was looked up for it; a reply to the requester has none. -/
  | wrote (socket : Socket) (recipient : Option Int) (frame : Json.Members) (ok : Bool)
  | createdUser (userId : Int) (nickname password : String)
  | setPublicKeys (userId : Int) (elGamalPublicKey dsaPublicKey : String) (ok : Bool)
  | authorized (userId : Int)
  | stored (message : Message)
  /-- A pending transfer is created and the upload of its file reset. -/
  | announced (transfer : PendingFileTransfer)
  /-- A chunk is acknowledged with success. -/
  | accepted (filename chunkData : String)
  deriving Repr

/-- The state of the server, with the number of writes of the current request and
what it has done so far. -/
structure World where
  connectedClients : ConnectedClients
  pendingFileTransfers : List PendingFileTransfer
  fileUploads : OrdMap String UploadState
  fileServer : FileServer.State
  writes : Nat
  log : List Observation

/-- A server that has just been started. -/
def World.start (fileServer : FileServer.State) : World where
  connectedClients := .empty
  pendingFileTransfers := []
  fileUploads := .empty
  fileServer := fileServer
  writes := 0
  log := []

/-- The state at the beginning of a request. -/
def World.beginRequest (w : World) : World := { w with writes := 0, log := [] }

/-- What one request meets outside of the server. -/
structure Environment where
  /-- The result of each write to a socket, in order. -/
  writeOk : Nat → Bool
  now : Int
  createUser : (nickname password : String) → Int
  setPublicKeys : (userId : Int) → (elGamalPublicKey dsaPublicKey : String) → Bool
  authorizeUser : (userId : Int) → (nickname password : String) → Bool
  getUserId : (nickname : String) → Int
  getPublicKeys : (userId : Int) → Option UserCryptoKeys
  createMessage : Message → Int
  /-- What happens to the request to `/upload/` and the name of the file. -/
  uploadExchange : (filename : String) → FileServer.Exchange
  downloadFileChunks : (filename : String) → List Bytes

/-- An environment in which everything succeeds. Users and messages have the id 1. -/
def Environment.working : Environment where
  writeOk _ := true
  now := 0
  createUser _ _ := 1
  setPublicKeys _ _ _ := true
  authorizeUser _ _ _ := true
  getUserId _ := 1
  getPublicKeys _ := none
  createMessage _ := 1
  uploadExchange filename := FileServer.Exchange.delivered (bytesOf filename)
  downloadFileChunks _ := []

/-! ### Handlers -/

/-- The programs that requests run. -/
abbrev Handler := Effect Exn World

/-- Record what the request does. -/
def World.observe (w : World) (o : Observation) : World := { w with log := w.log ++ [o] }

def World.recordWrite (w : World) (o : Observation) : World :=
  { w.observe o with writes := w.writes + 1 }

@[simp] theorem World.observe_writes (w : World) (o : Observation) :
    (w.observe o).writes = w.writes := rfl

@[simp] theorem World.observe_connectedClients (w : World) (o : Observation) :
    (w.observe o).connectedClients = w.connectedClients := rfl

@[simp] theorem World.recordWrite_writes (w : World) (o : Observation) :
    (w.recordWrite o).writes = w.writes + 1 := rfl

@[simp] theorem World.recordWrite_connectedClients (w : World) (o : Observation) :
    (w.recordWrite o).connectedClients = w.connectedClients := rfl

@[simp] theorem World.recordWrite_log (w : World) (o : Observation) :
    (w.recordWrite o).log = w.log ++ [o] := rfl

def observe (o : Observation) : Handler Unit := modify (·.observe o)

/-- Write a frame to a socket; the result is whether that succeeds. -/
def send (env : Environment) (socket : Socket) (recipient : Option Int) (frame : Json.Members) :
    Handler Bool := do
  let w ← get
  let ok := env.writeOk w.writes
  set (w.recordWrite (.wrote socket recipient frame ok))
  return ok

/-- `boost::asio::write` without an error code. -/
def write (env : Environment) (socket : Socket) (recipient : Option Int) (frame : Json.Members) :
    Handler Unit := do
  if !(← send env socket recipient frame) then throw .systemError

/-- `catch (const std::exception&)`. A violated assertion is no exception. -/
def catchException {α : Type} (x : Handler α) (handler : Handler α) : Handler α :=
  tryCatch x fun
    | .absentKey key => throw (.absentKey key)
    | _ => handler

theorem exec_send (env : Environment) (socket : Socket) (recipient : Option Int)
    (frame : Json.Members) (w : World) :
    exec (send env socket recipient frame) w =
      (.ok (env.writeOk w.writes),
        w.recordWrite (.wrote socket recipient frame (env.writeOk w.writes))) := rfl

theorem exec_write (env : Environment) (socket : Socket) (recipient : Option Int)
    (frame : Json.Members) (w : World) :
    exec (write env socket recipient frame) w =
      (if env.writeOk w.writes then .ok () else .error .systemError,
        w.recordWrite (.wrote socket recipient frame (env.writeOk w.writes))) := by
  rw [write, exec_bind, exec_send]
  cases env.writeOk w.writes <;> rfl

end Silence.Server
