import Silence.Server.RequestHandler

/-!
# Silence.Server.HandlerSpecs

What one request can do to the state of the server.

The handlers change the state in a few ways only: they write frames, authorize a
client, announce a file, take a chunk and erase a pending transfer. `Closed` lists
these ways, each with what is known when it happens; a property of the state that
is closed under them is kept by every request (`exec_dispatch`), so that an
invariant is proved from `Closed` without opening a handler.
-/

namespace Silence.Server

open Silence.Lib.Effect
open Json.Members (ofList)

/-! ### What requests do -/

/-- A frame by which a user gets a message or a key of another one. -/
def CarriesFrom (frame : Json.Members) (senderId : Int) : Prop :=
  (frame.lookup "type" = some (.string "receive_msg") ∨
      frame.lookup "type" = some (.string "receive_aes_key")) ∧
    frame.lookup "sender_id" = some (.number senderId)

/-- A frame by which a client gets a file or is told of one. -/
def CarriesFile (frame : Json.Members) (filename : String) : Prop :=
  (frame.lookup "type" = some (.string "incoming_file") ∨
      frame.lookup "type" = some (.string "file_chunk")) ∧
    frame.lookup "filename" = some (.string filename)

/-- A frame of one of the types that only its receiver may get. -/
def IsPrivate (frame : Json.Members) : Prop :=
  frame.lookup "type" = some (.string "receive_msg") ∨
    frame.lookup "type" = some (.string "receive_aes_key") ∨
    frame.lookup "type" = some (.string "incoming_file") ∨
    frame.lookup "type" = some (.string "file_chunk")

/-- A frame that carries neither a message, nor a key, nor a file. -/
structure Plain (frame : Json.Members) : Prop where
  noSender : ∀ senderId, ¬ CarriesFrom frame senderId
  noFile : ∀ filename, ¬ CarriesFile frame filename
  notPrivate : ¬ IsPrivate frame

theorem plain_of_type {frame : Json.Members}
    (h : frame.lookup "type" = none ∨ ∃ type, frame.lookup "type" = some (.string type) ∧
      type ≠ "receive_msg" ∧ type ≠ "receive_aes_key" ∧ type ≠ "incoming_file" ∧
      type ≠ "file_chunk") : Plain frame := by
  rcases h with h | ⟨type, h, h1, h2, h3, h4⟩
  · exact ⟨by simp [CarriesFrom, h], by simp [CarriesFile, h], by simp [IsPrivate, h]⟩
  · exact ⟨by simp [CarriesFrom, h, h1, h2], by simp [CarriesFile, h, h3, h4],
      by simp [IsPrivate, h, h1, h2, h3, h4]⟩

/-- The request is one to send a message or a key, and names the user as its sender. -/
def NamesSender (request : Json) (senderId : Int) : Prop :=
  (request.HasType "send_message" ∨ request.HasType "send_aes_key") ∧
    request.readInt "sender_id" = .ok senderId

/-- Frames go to the requester, or to the socket of the client they are for. -/
def Addressed (clients : ConnectedClients) (requester socket : Socket) : Option Int → Prop
  | none => socket = requester
  | some userId => clients.getClientSocket userId = some socket

/-- The fields of a request with a chunk. -/
structure Chunk where
  filename : String
  chunkData : String
  chunkNumber : UInt64
  isLast : Bool

/-- The request brings the chunk. -/
structure Brings (request : Json) (chunk : Chunk) : Prop where
  type : request.HasType "file_chunk"
  filename : request.readString "filename" = .ok chunk.filename
  chunkData : request.readString "chunk_data" = .ok chunk.chunkData
  chunkNumber : request.readSize "chunk_number" = .ok chunk.chunkNumber
  isLast : request.readBool "is_last" = .ok chunk.isLast

/-- The request brings a chunk of the file, which goes to the receiver of the first pending
transfer of its name. -/
def DeliversFile (w₀ : World) (request : Json) (recipient : Option Int) (filename : String) :
    Prop :=
  (∃ chunk, Brings request chunk ∧ chunk.filename = filename) ∧
    ∃ transfer, w₀.pendingFileTransfers.find? (·.filename = filename) = some transfer ∧
      recipient = some transfer.receiverId

/-- The frame is meant for the user: for the receiver of a message or a key that the request names,
or for the receiver of the first pending transfer of a file. -/
def MeantFor (env : Environment) (w₀ : World) (request : Json) (frame : Json.Members)
    (userId : Int) : Prop :=
  ((frame.lookup "type" = some (.string "receive_msg") ∨
      frame.lookup "type" = some (.string "receive_aes_key")) ∧
    ∃ nickname, request.readString "receiver_nickname" = .ok nickname ∧
      env.getUserId nickname = userId) ∨
  ∃ filename, CarriesFile frame filename ∧
    ∃ transfer, w₀.pendingFileTransfers.find? (·.filename = filename) = some transfer ∧
      transfer.receiverId = userId

/-- What a request, started in `w₀`, records apart from announcements and accepted chunks. -/
def Makes (env : Environment) (w₀ : World) (requester : Socket) (request : Json) :
    Observation → Prop
  | .wrote socket recipient frame _ => Addressed w₀.connectedClients requester socket recipient ∧
      (∀ senderId, CarriesFrom frame senderId → NamesSender request senderId) ∧
      (∀ filename, CarriesFile frame filename → DeliversFile w₀ request recipient filename) ∧
      (IsPrivate frame → ∃ userId, recipient = some userId ∧
        MeantFor env w₀ request frame userId)
  | .createdUser _ _ _ => request.HasType "register"
  | .setPublicKeys _ _ _ _ => request.HasType "register"
  | .authorized userId => request.HasType "authorize" ∧
      request.readInt "user_id" = .ok userId ∧
      ∃ nickname password, request.readString "nickname" = .ok nickname ∧
        request.readString "password" = .ok password ∧
        env.authorizeUser userId nickname password = true
  | .stored message => request.HasType "send_message" ∧
      request.readInt "sender_id" = .ok message.senderId
  | .announced _ => False
  | .accepted _ _ => False

/-- The request announces a file: its message is stored, and the writes before the
file part succeed. -/
structure Announces (env : Environment) (clients : ConnectedClients) (request : Json)
    (transfer : PendingFileTransfer) : Prop where
  type : request.HasType "send_message"
  sender : request.readInt "sender_id" = .ok transfer.senderId
  receiver : ∃ nickname, request.readString "receiver_nickname" = .ok nickname ∧
    env.getUserId nickname = transfer.receiverId
  found : transfer.receiverId ≠ 0
  saved : ∃ text, request.readString "message_text" = .ok text ∧
    env.createMessage (.create env.now transfer.senderId transfer.receiverId text) ≠ 0
  file : request.member? "file_name" = some (.string transfer.filename)
  named : transfer.filename ≠ "none"
  replied : env.writeOk 0 = true
  delivered : (clients.getClientSocket transfer.receiverId).isSome → env.writeOk 1 = true

/-- What `handle_file_chunk` does to the state before it answers. -/
def World.takeChunk (w : World) (env : Environment) (chunk : Chunk) : World :=
  let w := w.openUpload chunk.filename
  let uploadState := w.uploadState chunk.filename
  if chunk.chunkNumber ≠ uploadState.lastChunkReceived + 1 then w
  else
    let (success, fileServer) := w.upload env chunk.filename chunk.chunkData
    let w := { w with fileServer := fileServer }
    if success then
      w.accept chunk.filename chunk.chunkData
        ⟨chunk.chunkNumber, uploadState.completed || chunk.isLast⟩
    else w

/-- A state that a request reaches from `w₀` by writing frames and recording. -/
structure World.Grows (env : Environment) (requester : Socket) (request : Json)
    (w₀ w : World) : Prop where
  connectedClients : w.connectedClients = w₀.connectedClients
  pendingFileTransfers : w.pendingFileTransfers = w₀.pendingFileTransfers
  fileUploads : w.fileUploads = w₀.fileUploads
  fileServer : w.fileServer = w₀.fileServer
  log : ∀ o ∈ w.log, Makes env w₀ requester request o

/-- The property holds of a state that grew from `w₀`, is established by each of the
changes that a request can make then, and is kept by what follows. -/
structure Closed (env : Environment) (w₀ : World) (requester : Socket) (request : Json)
    (J : World → Prop) : Prop where
  unchanged : ∀ w, w₀.Grows env requester request w → J w
  authorize : ∀ w userId, w₀.Grows env requester request w →
    Makes env w₀ requester request (.authorized userId) →
    J (w.authorize userId requester)
  announce : ∀ w transfer, w₀.Grows env requester request w →
    Announces env w₀.connectedClients request transfer → J (w.announce transfer)
  takeChunk : ∀ w chunk, w₀.Grows env requester request w → Brings request chunk →
    J (w.takeChunk env chunk)
  recordWrite : ∀ w o, Makes env w₀ requester request o → J w →
    J (w.recordWrite o)
  eraseTransfer : ∀ w chunk, Brings request chunk →
    w.pendingFileTransfers = w₀.pendingFileTransfers → J w → J (w.eraseTransfer chunk.filename)

/-! ### Growing -/

section Grows

variable {env : Environment} {requester : Socket} {request : Json} {w₀ w : World}

/-- What holds of all observations still does after one more. -/
theorem forall_mem_log {P : Observation → Prop} {w w' : World} {o : Observation}
    (hlog : w'.log = w.log ++ [o]) (hw : ∀ o' ∈ w.log, P o') (ho : P o) : ∀ o' ∈ w'.log, P o' := by
  rw [hlog]
  exact List.forall_mem_append.mpr ⟨hw, List.forall_mem_singleton.mpr ho⟩

theorem grows_refl (hlog : w₀.log = []) : w₀.Grows env requester request w₀ where
  connectedClients := rfl
  pendingFileTransfers := rfl
  fileUploads := rfl
  fileServer := rfl
  log := by simp [hlog]

theorem World.Grows.observe (h : w₀.Grows env requester request w) {o : Observation}
    (ho : Makes env w₀ requester request o) :
    w₀.Grows env requester request (w.observe o) where
  connectedClients := h.connectedClients
  pendingFileTransfers := h.pendingFileTransfers
  fileUploads := h.fileUploads
  fileServer := h.fileServer
  log := forall_mem_log rfl h.log ho

theorem World.Grows.recordWrite (h : w₀.Grows env requester request w) {o : Observation}
    (ho : Makes env w₀ requester request o) :
    w₀.Grows env requester request (w.recordWrite o) :=
  { h.observe ho with }

end Grows

/-! ### Taking a chunk -/

@[simp] theorem openUpload_fileServer (w : World) (filename : String) :
    (w.openUpload filename).fileServer = w.fileServer := by
  rw [World.openUpload]
  split <;> rfl

@[simp] theorem openUpload_connectedClients (w : World) (filename : String) :
    (w.openUpload filename).connectedClients = w.connectedClients := by
  rw [World.openUpload]
  split <;> rfl

@[simp] theorem openUpload_log (w : World) (filename : String) :
    (w.openUpload filename).log = w.log := by
  rw [World.openUpload]
  split <;> rfl

/-- Opening an upload does not change what is known of it. -/
@[simp] theorem uploadState_openUpload (w : World) (filename : String) :
    (w.openUpload filename).uploadState filename = w.uploadState filename := by
  rw [World.openUpload]
  cases h : w.fileUploads.find? filename with
  | some uploadState => rfl
  | none =>
      simp [World.uploadState, World.setUpload, h, Lib.OrdMap.find?_insert_self]

/-- The chunk is out of order, or its upload fails, or it is accepted. -/
theorem takeChunk_cases (w : World) (env : Environment) (chunk : Chunk) :
    let w' := w.openUpload chunk.filename
    let uploadState := w.uploadState chunk.filename
    (chunk.chunkNumber ≠ uploadState.lastChunkReceived + 1 ∧ w.takeChunk env chunk = w') ∨
    (chunk.chunkNumber = uploadState.lastChunkReceived + 1 ∧
      ∃ success fileServer,
        w.upload env chunk.filename chunk.chunkData = (success, fileServer) ∧
        w.takeChunk env chunk =
          if success then
            { w' with fileServer := fileServer }.accept chunk.filename chunk.chunkData
              ⟨chunk.chunkNumber, uploadState.completed || chunk.isLast⟩
          else { w' with fileServer := fileServer }) := by
  intro w' uploadState
  have hstate : w'.uploadState chunk.filename = uploadState := uploadState_openUpload w _
  have hupload : w'.upload env chunk.filename chunk.chunkData =
      w.upload env chunk.filename chunk.chunkData := by
    rw [World.upload, World.upload, openUpload_fileServer]
  by_cases horder : chunk.chunkNumber = uploadState.lastChunkReceived + 1
  · rcases hresult : w.upload env chunk.filename chunk.chunkData with ⟨success, fileServer⟩
    refine Or.inr ⟨horder, success, fileServer, rfl, ?_⟩
    rw [World.takeChunk, hstate, if_neg (not_not_intro horder), hupload, hresult]
  · refine Or.inl ⟨horder, ?_⟩
    rw [World.takeChunk, hstate, if_pos horder]

theorem takeChunk_connectedClients (w : World) (env : Environment) (chunk : Chunk) :
    (w.takeChunk env chunk).connectedClients = w.connectedClients := by
  rcases takeChunk_cases w env chunk with ⟨-, heq⟩ | ⟨-, success, fileServer, -, heq⟩
  · rw [heq, openUpload_connectedClients]
  · rw [heq]
    cases success <;> exact openUpload_connectedClients w _

@[simp] theorem openUpload_pendingFileTransfers (w : World) (filename : String) :
    (w.openUpload filename).pendingFileTransfers = w.pendingFileTransfers := by
  rw [World.openUpload]
  split <;> rfl

theorem takeChunk_pendingFileTransfers (w : World) (env : Environment) (chunk : Chunk) :
    (w.takeChunk env chunk).pendingFileTransfers = w.pendingFileTransfers := by
  rcases takeChunk_cases w env chunk with ⟨-, heq⟩ | ⟨-, success, fileServer, -, heq⟩
  · rw [heq, openUpload_pendingFileTransfers]
  · rw [heq]
    cases success <;> exact openUpload_pendingFileTransfers w _

/-- A chunk is recorded when it is accepted. -/
theorem takeChunk_log (w : World) (env : Environment) (chunk : Chunk) :
    (w.takeChunk env chunk).log = w.log ∨
      (w.takeChunk env chunk).log = w.log ++ [.accepted chunk.filename chunk.chunkData] := by
  rcases takeChunk_cases w env chunk with ⟨-, heq⟩ | ⟨-, success, fileServer, -, heq⟩
  · exact Or.inl (by rw [heq, openUpload_log])
  · rw [heq]
    cases success with
    | false => exact Or.inl (openUpload_log w _)
    | true => exact Or.inr (congrArg (· ++ _) (openUpload_log w _))

/-! ### Writing -/

theorem triple_write {P E : World → Prop} {Q : Unit → World → Prop} {env : Environment}
    {socket : Socket} {recipient : Option Int} {frame : Json.Members}
    (hok : ∀ w, P w → env.writeOk w.writes = true →
      Q () (w.recordWrite (.wrote socket recipient frame true)))
    (hfail : ∀ w, P w → env.writeOk w.writes = false →
      E (w.recordWrite (.wrote socket recipient frame false))) :
    Triple P (write env socket recipient frame) Q E := by
  intro w hw
  rw [exec_write]
  cases hwrite : env.writeOk w.writes with
  | true => exact hok w hw hwrite
  | false => exact hfail w hw hwrite

section Specs

variable {env : Environment} {requester : Socket} {request : Json} {w₀ : World} {J : World → Prop}

/-- A plain frame may be sent to the requester by every request. -/
theorem makes_reply {frame : Json.Members} (hframe : Plain frame) (ok : Bool) :
    Makes env w₀ requester request (.wrote requester none frame ok) :=
  ⟨rfl, fun senderId h => absurd h (hframe.noSender senderId),
    fun filename h => absurd h (hframe.noFile filename), fun h => absurd h hframe.notPrivate⟩

theorem triple_observe {o : Observation}
    (ho : Makes env w₀ requester request o) :
    Triple (w₀.Grows env requester request) (observe o)
      (fun _ => w₀.Grows env requester request) J :=
  triple_modify fun _ hw => hw.observe ho

theorem preserves_write (h : Closed env w₀ requester request J) {socket : Socket}
    {recipient : Option Int} {frame : Json.Members}
    (hmakes : ∀ ok, Makes env w₀ requester request
      (.wrote socket recipient frame ok)) :
    Preserves J (write env socket recipient frame) :=
  triple_write (fun w hw _ => h.recordWrite w _ (hmakes true) hw)
    fun w hw _ => h.recordWrite w _ (hmakes false) hw

/-- A write that is not the last step: once it returns, it has succeeded. -/
theorem triple_writeCounted (h : Closed env w₀ requester request J) {socket : Socket}
    {recipient : Option Int} {frame : Json.Members}
    (hmakes : ∀ ok, Makes env w₀ requester request
      (.wrote socket recipient frame ok)) (n : Nat) :
    Triple (fun w => w₀.Grows env requester request w ∧ w.writes = n)
      (write env socket recipient frame)
      (fun _ w => (w₀.Grows env requester request w ∧ w.writes = n + 1) ∧ env.writeOk n = true)
      J := by
  refine triple_write (fun w hw hok => ?_)
    fun w hw _ => h.unchanged _ (hw.1.recordWrite (hmakes false))
  exact ⟨⟨hw.1.recordWrite (hmakes true), congrArg (· + 1) hw.2⟩, hw.2 ▸ hok⟩

/-- A reply that is not the last step. -/
theorem triple_replyFirst (h : Closed env w₀ requester request J) {frame : Json.Members}
    (hframe : Plain frame) (n : Nat) :
    Triple (fun w => w₀.Grows env requester request w ∧ w.writes = n)
      (write env requester none frame)
      (fun _ w => (w₀.Grows env requester request w ∧ w.writes = n + 1) ∧ env.writeOk n = true)
      J :=
  triple_writeCounted h (makes_reply hframe) n

/-- The reply to the requester as the last step. -/
theorem triple_reply (h : Closed env w₀ requester request J) {frame : Json.Members}
    (hframe : Plain frame) :
    Triple (w₀.Grows env requester request) (write env requester none frame) (fun _ => J) J :=
  fun w hw => triple_weaken (triple_replyFirst h hframe w.writes) (fun _ hw => hw)
    (fun _ w' hw' => h.unchanged w' hw'.1.1) w ⟨hw, rfl⟩

/-- A frame for a client, if it is connected. -/
theorem triple_writeToClient (h : Closed env w₀ requester request J)
    {clientSocket : Option Socket} {userId : Int} {frame : Json.Members}
    (hclient : w₀.connectedClients.getClientSocket userId = clientSocket)
    (hframe : ∀ senderId, CarriesFrom frame senderId → NamesSender request senderId)
    (hfile : ∀ filename, ¬ CarriesFile frame filename)
    (hmeant : MeantFor env w₀ request frame userId) (n : Nat) :
    Triple (fun w => w₀.Grows env requester request w ∧ w.writes = n)
      (writeToClient env clientSocket userId frame)
      (fun _ w => w₀.Grows env requester request w ∧
        (clientSocket.isSome → env.writeOk n = true)) J := by
  cases clientSocket with
  | none => exact triple_pure fun w hw => ⟨hw.1, by simp⟩
  | some socket =>
      have hmakes : ∀ ok, Makes env w₀ requester request
          (.wrote socket (some userId) frame ok) := fun _ =>
        ⟨hclient, hframe, fun filename hf => absurd hf (hfile filename),
          fun _ => ⟨userId, rfl, hmeant⟩⟩
      exact triple_weaken (triple_writeCounted h hmakes n) (fun _ hw => hw)
        fun _ w hw => ⟨hw.1.1, fun _ => hw.2⟩

/-- A reply after the state has been changed. -/
theorem preserves_reply (h : Closed env w₀ requester request J) {frame : Json.Members}
    (hframe : Plain frame) :
    Preserves J (write env requester none frame) :=
  preserves_write h (makes_reply hframe)

theorem triple_handleRegister (h : Closed env w₀ requester request J)
    (htype : request.HasType "register") :
    Triple (w₀.Grows env requester request) (handleRegister env requester request)
      (fun _ => J) J := by
  refine triple_attempt_bind h.unchanged fun nickname _ => ?_
  refine triple_attempt_bind h.unchanged fun password _ => ?_
  refine triple_attempt_bind h.unchanged fun elGamalPublicKey _ => ?_
  refine triple_attempt_bind h.unchanged fun dsaPublicKey _ => ?_
  refine triple_bind (triple_observe htype) fun _ => ?_
  refine triple_bind (triple_observe htype) fun _ => ?_
  exact triple_ite (fun _ => triple_reply h (plain_of_type (by simp)))
    fun _ => triple_reply h (plain_of_type (by simp))

theorem triple_handleAuthorize (h : Closed env w₀ requester request J)
    (htype : request.HasType "authorize") :
    Triple (w₀.Grows env requester request) (handleAuthorize env requester request)
      (fun _ => J) J := by
  refine triple_attempt_bind h.unchanged fun nickname hnickname => ?_
  refine triple_attempt_bind h.unchanged fun password hpassword => ?_
  refine triple_attempt_bind h.unchanged fun userId huserId => ?_
  refine triple_ite (fun hauth => ?_) fun _ => triple_reply h (plain_of_type (by simp))
  refine triple_bind (R := fun _ => J) (triple_modify fun w hw => ?_) fun _ =>
    preserves_reply h (plain_of_type (by simp))
  exact h.authorize w userId hw
    ⟨htype, huserId, nickname, password, hnickname, hpassword, hauth⟩

theorem triple_handleGetUserKeys (h : Closed env w₀ requester request J) :
    Triple (w₀.Grows env requester request) (handleGetUserKeys env requester request)
      (fun _ => J) J := by
  refine triple_attempt_bind h.unchanged fun nickname _ => ?_
  refine triple_ite (fun _ => triple_reply h (plain_of_type (by simp))) fun _ => ?_
  split
  · exact triple_reply h (plain_of_type (by simp))
  · refine triple_attempt_bind h.unchanged fun dsaPublicKey _ => ?_
    refine triple_attempt_bind h.unchanged fun elGamalPublicKey _ => ?_
    exact triple_reply h (plain_of_type (by simp))

theorem triple_handleSendAesKey (h : Closed env w₀ requester request J)
    (htype : request.HasType "send_aes_key") :
    Triple (w₀.Grows env requester request) (handleSendAesKey env requester request)
      (fun _ => J) J := by
  refine triple_attempt_bind h.unchanged fun senderId hsender => ?_
  refine triple_attempt_bind h.unchanged fun receiverNickname hreceiver => ?_
  refine triple_attempt_bind h.unchanged fun encryptedAesKeyC1 _ => ?_
  refine triple_attempt_bind h.unchanged fun encryptedAesKeyC2 _ => ?_
  refine triple_attempt_bind h.unchanged fun dsaR _ => ?_
  refine triple_attempt_bind h.unchanged fun dsaSignature _ => ?_
  refine triple_ite (fun _ => triple_reply h (plain_of_type (by simp))) fun _ => ?_
  intro w hw
  refine triple_bind (triple_replyFirst h (plain_of_type (by simp)) w.writes) (fun _ => ?_) w
    ⟨hw, rfl⟩
  refine triple_assume fun _ => triple_get_bind fun w' hw' => ?_
  refine triple_weaken (triple_writeToClient h (by rw [hw'.1.connectedClients])
    (fun senderId' hc => ?_) (by simp [CarriesFile])
    (Or.inl ⟨Or.inr (by simp), receiverNickname, hreceiver, rfl⟩) w'.writes)
    (fun s hs => by rw [hs]; exact ⟨hw'.1, rfl⟩) fun _ s hs => h.unchanged s hs.1
  obtain rfl : senderId' = senderId := by simpa using hc.2.symm
  exact ⟨Or.inr htype, hsender⟩

/-! ### Messages -/

/-- The file part announces the file of the request, if it has one. -/
theorem triple_announceFile (h : Closed env w₀ requester request J) {senderId receiverId : Int}
    (hannounces : ∀ filename, request.member? "file_name" = some (.string filename) →
      filename ≠ "none" → Announces env w₀.connectedClients request
        ⟨filename, senderId, receiverId⟩) :
    Triple (w₀.Grows env requester request) (announceFile request senderId receiverId)
      (fun _ => J) J := by
  rw [announceFile]
  cases hmember : request.member? "file_name" with
  | none => exact triple_pure h.unchanged
  | some fileName =>
      refine triple_ite (fun _ => triple_pure h.unchanged) fun hnone => ?_
      refine triple_attempt_bind h.unchanged fun filename hfilename => ?_
      obtain rfl : fileName = .string filename := by
        cases fileName <;> simp_all [Json.getString]
      have hne : filename ≠ "none" := by simpa [Json.isText] using hnone
      refine triple_bind (R := fun _ => J) (triple_modify fun w hw => ?_) fun _ =>
        triple_pure fun _ hw => hw
      exact h.announce w _ hw (hannounces filename hmember hne)

theorem preserves_writeToClient (h : Closed env w₀ requester request J)
    {clientSocket : Option Socket} {userId : Int} {frame : Json.Members}
    (hclient : w₀.connectedClients.getClientSocket userId = clientSocket)
    (hframe : ∀ senderId, CarriesFrom frame senderId → NamesSender request senderId)
    (hfile : ∀ filename, ¬ CarriesFile frame filename)
    (hmeant : MeantFor env w₀ request frame userId) :
    Preserves J (writeToClient env clientSocket userId frame) := by
  cases clientSocket with
  | none => exact preserves_pure _
  | some socket =>
      have hmakes : ∀ ok, Makes env w₀ requester request
          (.wrote socket (some userId) frame ok) := fun _ =>
        ⟨hclient, hframe, fun filename hf => absurd hf (hfile filename),
          fun _ => ⟨userId, rfl, hmeant⟩⟩
      exact preserves_write h hmakes

theorem triple_deliverMessage (h : Closed env w₀ requester request J) {newMsg : Message}
    (hsender : NamesSender request newMsg.senderId)
    (hreceiver : ∃ nickname, request.readString "receiver_nickname" = .ok nickname ∧
      env.getUserId nickname = newMsg.receiverId)
    (hannounces : ∀ filename, request.member? "file_name" = some (.string filename) →
      filename ≠ "none" → env.writeOk 0 = true →
      ((w₀.connectedClients.getClientSocket newMsg.receiverId).isSome → env.writeOk 1 = true) →
      Announces env w₀.connectedClients request
        ⟨filename, newMsg.senderId, newMsg.receiverId⟩) :
    Triple (fun w => w₀.Grows env requester request w ∧ w.writes = 0)
      (deliverMessage env requester request newMsg) (fun _ => J) J := by
  -- both frames for the receiver name the sender of the message
  have hframe : ∀ {frame : Json.Members},
      frame.lookup "sender_id" = some (.number newMsg.senderId) →
      ∀ senderId, CarriesFrom frame senderId → NamesSender request senderId := by
    intro frame hlookup senderId hc
    obtain rfl : senderId = newMsg.senderId := by simpa using hc.2.symm.trans hlookup
    exact hsender
  refine triple_bind (triple_replyFirst h (plain_of_type (by simp)) 0) fun _ => ?_
  refine triple_assume fun hreplied => triple_get_bind fun w hw => ?_
  have hclient : w₀.connectedClients.getClientSocket newMsg.receiverId =
      w.connectedClients.getClientSocket newMsg.receiverId := by rw [hw.1.connectedClients]
  refine triple_bind (triple_weaken (triple_writeToClient h hclient (hframe (by simp))
    (by simp [CarriesFile]) (Or.inl ⟨Or.inl (by simp), hreceiver⟩) 1)
    (fun s hs => hs ▸ hw) fun _ _ hs => hs) fun _ => ?_
  refine triple_assume fun hdelivered => ?_
  refine triple_bind (triple_announceFile h fun filename hfile hnamed =>
    hannounces filename hfile hnamed hreplied (hclient ▸ hdelivered)) fun filename => ?_
  refine preserves_bind (preserves_reply h (plain_of_type (by simp))) fun _ => ?_
  exact preserves_writeToClient h hclient (hframe (by simp)) (by simp [CarriesFile])
    (Or.inl ⟨Or.inl (by simp), hreceiver⟩)

theorem triple_handleSendMessage (h : Closed env w₀ requester request J)
    (htype : request.HasType "send_message") :
    Triple (fun w => w₀.Grows env requester request w ∧ w.writes = 0)
      (handleSendMessage env requester request) (fun _ => J) J := by
  have hunchanged : ∀ w, w₀.Grows env requester request w ∧ w.writes = 0 → J w :=
    fun w hw => h.unchanged w hw.1
  refine triple_attempt_bind hunchanged fun senderId hsender => ?_
  refine triple_attempt_bind hunchanged fun receiverNickname hreceiver => ?_
  refine triple_attempt_bind hunchanged fun text htext => ?_
  refine triple_ite (fun _ => ?_) fun hfound => triple_ite (fun _ => ?_) fun hsaved => ?_
  · exact triple_weaken (triple_reply h (plain_of_type (by simp))) (fun _ hw => hw.1)
      fun _ _ hw => hw
  · exact triple_weaken (triple_reply h (plain_of_type (by simp))) (fun _ hw => hw.1)
      fun _ _ hw => hw
  · refine triple_bind (R := fun _ w => w₀.Grows env requester request w ∧ w.writes = 0)
      (triple_modify fun w hw => ⟨hw.1.observe ⟨htype, hsender⟩, hw.2⟩) fun _ => ?_
    refine triple_deliverMessage h ⟨Or.inl htype, hsender⟩ ⟨receiverNickname, hreceiver, rfl⟩
      fun filename hfile hnamed h0 h1 => ?_
    exact ⟨htype, hsender, ⟨receiverNickname, hreceiver, rfl⟩, hfound, ⟨text, htext, hsaved⟩,
      hfile, hnamed, h0, h1⟩

/-! ### Chunks -/

/-- `J`, while clients and pending transfers are those of the beginning of the request. -/
structure World.Kept (w₀ : World) (J : World → Prop) (w : World) : Prop where
  holds : J w
  connectedClients : w.connectedClients = w₀.connectedClients
  pendingFileTransfers : w.pendingFileTransfers = w₀.pendingFileTransfers

/-- Writing a frame of a file to its receiver. -/
theorem preserves_writeFile (h : Closed env w₀ requester request J) {chunk : Chunk}
    (hbrings : Brings request chunk) {transfer : PendingFileTransfer} {receiverSocket : Socket}
    (htransfer : w₀.pendingFileTransfers.find? (·.filename = chunk.filename) = some transfer)
    (hclient : w₀.connectedClients.getClientSocket transfer.receiverId = some receiverSocket)
    {frame : Json.Members} (hframe : ∀ senderId, ¬ CarriesFrom frame senderId)
    (hfile : CarriesFile frame chunk.filename) :
    Preserves (w₀.Kept J) (write env receiverSocket (some transfer.receiverId) frame) := by
  have hmakes : ∀ ok, Makes env w₀ requester request
      (.wrote receiverSocket (some transfer.receiverId) frame ok) := by
    refine fun _ => ⟨hclient, fun senderId hc => absurd hc (hframe senderId), fun filename hc => ?_,
      fun _ => ⟨_, rfl, Or.inr ⟨_, hfile, transfer, htransfer, rfl⟩⟩⟩
    obtain rfl : chunk.filename = filename := by simpa using hfile.2.symm.trans hc.2
    exact ⟨⟨chunk, hbrings, rfl⟩, transfer, htransfer, rfl⟩
  exact triple_write
    (fun w hw _ => ⟨h.recordWrite w _ (hmakes true) hw.1, hw.2, hw.3⟩)
    fun w hw _ => ⟨h.recordWrite w _ (hmakes false) hw.1, hw.2, hw.3⟩

theorem preserves_catchException {α : Type} {I : World → Prop} {x handler : Handler α}
    (hx : Preserves I x) (hh : Preserves I handler) : Preserves I (catchException x handler) := by
  refine triple_tryCatch hx fun e => ?_
  cases e with
  | absentKey key => exact preserves_throw _
  | _ => exact hh

theorem preserves_acknowledge (h : Closed env w₀ requester request J) {response : Json.Members}
    (hframe : Plain response) : Preserves J (acknowledge env requester response) :=
  preserves_catchException (preserves_reply h hframe) (preserves_pure _)

/-- By induction on the chunks that are left. -/
theorem preserves_sendChunks (h : Closed env w₀ requester request J) {chunk : Chunk}
    (hbrings : Brings request chunk) {transfer : PendingFileTransfer} {receiverSocket : Socket}
    (htransfer : w₀.pendingFileTransfers.find? (·.filename = chunk.filename) = some transfer)
    (hclient : w₀.connectedClients.getClientSocket transfer.receiverId = some receiverSocket)
    (i : Nat) (chunks : List Bytes) :
    Preserves (w₀.Kept J)
      (sendChunks env receiverSocket transfer.receiverId chunk.filename i chunks) := by
  induction chunks generalizing i with
  | nil => exact preserves_pure _
  | cons data chunks ih =>
      have hsend : ∀ isLast, Preserves (w₀.Kept J)
          (sendChunk env receiverSocket transfer.receiverId chunk.filename i data isLast) := by
        intro isLast
        refine preserves_catchException ?_ (preserves_pure _)
        refine preserves_attempt_bind fun text _ => preserves_bind ?_ fun _ => preserves_pure _
        exact preserves_writeFile h hbrings htransfer hclient (by simp [CarriesFrom])
          (by simp [CarriesFile])
      refine preserves_bind (hsend _) fun goOn => ?_
      cases goOn with
      | true => exact ih (i + 1)
      | false => exact preserves_pure _

/-- The transfer that is erased is the first one of the name at the beginning of the request. -/
theorem triple_completeTransfer (h : Closed env w₀ requester request J) {chunk : Chunk}
    (hbrings : Brings request chunk) :
    Triple (w₀.Kept J) (completeTransfer env chunk.filename) (fun _ => J) J := by
  have hkept : ∀ w, w₀.Kept J w → J w := fun _ hw => hw.holds
  refine triple_get_bind fun w hw => ?_
  refine triple_weaken (P := w₀.Kept J) (Q := fun _ => J) ?_ (fun s hs => by rwa [hs])
    fun _ _ hs => hs
  split
  · exact triple_pure hkept
  · rename_i transfer hfind
    have htransfer : w₀.pendingFileTransfers.find? (·.filename = chunk.filename) =
        some transfer := by rw [← hw.pendingFileTransfers, hfind]
    split
    · exact triple_pure hkept
    · rename_i receiverSocket hsocket
      have hclient : w₀.connectedClients.getClientSocket transfer.receiverId =
          some receiverSocket := by rw [← hw.connectedClients, hsocket]
      refine triple_tryCatch (F := J) ?_ fun e => ?_
      · refine triple_bind (R := fun _ => w₀.Kept J) ?_ fun _ => ?_
        · exact triple_throwWeaken (preserves_writeFile h hbrings htransfer hclient
            (by simp [CarriesFrom]) (by simp [CarriesFile])) hkept
        refine triple_bind (R := fun _ => w₀.Kept J) ?_ fun _ => ?_
        · exact triple_throwWeaken (preserves_sendChunks h hbrings htransfer hclient 0 _) hkept
        exact triple_modify fun w hw =>
          h.eraseTransfer w chunk hbrings hw.pendingFileTransfers hw.holds
      · cases e with
        | absentKey key => exact preserves_throw _
        | _ => exact preserves_pure _

theorem triple_uploadFileChunk (w : World) (filename chunkData : String) {E : World → Prop} :
    Triple (fun s => s = w) (uploadFileChunk env filename chunkData)
      (fun success s => s = { w with fileServer := (w.upload env filename chunkData).2 } ∧
        success = (w.upload env filename chunkData).1) E := by
  rintro s rfl
  exact ⟨rfl, rfl⟩

/-- The state that `processChunk` answers in is that of `takeChunk`. -/
theorem triple_processChunk (h : Closed env w₀ requester request J) {chunk : Chunk}
    (hbrings : Brings request chunk) {w : World} (hw : w₀.Grows env requester request w) :
    Triple (fun s => s = w)
      (processChunk env requester chunk.filename chunk.chunkData chunk.chunkNumber chunk.isLast)
      (fun _ => J) J := by
  have hkept : w₀.Kept J (w.takeChunk env chunk) := {
    holds := h.takeChunk w chunk hw hbrings
    connectedClients := by rw [takeChunk_connectedClients, hw.connectedClients]
    pendingFileTransfers := by rw [takeChunk_pendingFileTransfers, hw.pendingFileTransfers] }
  have hack : ∀ response, Plain response → Preserves J (acknowledge env requester response) :=
    fun _ hframe => preserves_acknowledge h hframe
  refine triple_bind (R := fun _ s => s = w.openUpload chunk.filename)
    (triple_modify fun s hs => by rw [hs]) fun _ => ?_
  refine triple_get_bind fun w₁ hw₁ => ?_
  rw [World.takeChunk, ← hw₁] at hkept
  simp only at hkept ⊢
  split
  · rename_i hne
    rw [if_pos hne] at hkept
    exact triple_weaken (hack _ (plain_of_type (by simp))) (fun s hs => hs ▸ hkept.holds)
      fun _ _ hs => hs
  · rename_i heq
    rw [if_neg heq] at hkept
    -- the chunk has the number that is expected
    refine triple_bind (triple_uploadFileChunk w₁ chunk.filename chunk.chunkData) fun success => ?_
    refine triple_assume fun hsuccess => ?_
    rw [← hsuccess] at hkept
    split
    · rename_i hok
      rw [if_pos hok] at hkept
      refine triple_bind (R := fun _ => w₀.Kept J) (triple_modify fun s hs => hs ▸ hkept)
        fun _ => ?_
      split
      · exact triple_bind (triple_completeTransfer h hbrings) fun _ =>
          hack _ (plain_of_type (by simp))
      · exact triple_weaken (hack _ (plain_of_type (by simp))) (fun _ hs => hs.holds)
          fun _ _ hs => hs
    · rename_i hfail
      rw [if_neg hfail] at hkept
      exact triple_weaken (hack _ (plain_of_type (by simp))) (fun s hs => hs ▸ hkept.holds)
        fun _ _ hs => hs

/-- The fields are read before anything is done. -/
theorem triple_handleFileChunk (h : Closed env w₀ requester request J)
    (htype : request.HasType "file_chunk") :
    Triple (w₀.Grows env requester request) (handleFileChunk env requester request)
      (fun _ => J) J := by
  refine triple_attempt_bind h.unchanged fun filename hfilename => ?_
  refine triple_attempt_bind h.unchanged fun chunkData hchunkData => ?_
  refine triple_attempt_bind h.unchanged fun chunkNumber hchunkNumber => ?_
  refine triple_attempt_bind h.unchanged fun isLast hisLast => ?_
  have hbrings : Brings request ⟨filename, chunkData, chunkNumber, isLast⟩ :=
    ⟨htype, hfilename, hchunkData, hchunkNumber, hisLast⟩
  intro w hw
  have hprocess := triple_processChunk h hbrings hw w rfl
  exact hprocess

/-! ### Requests -/

theorem exec_reply (env : Environment) (socket : Socket) (response : String) (w : World) :
    (exec (reply env socket response) w).2 = w.recordWrite (.wrote socket none
      (ofList [("status", .string "error"), ("response", .string response)])
      (env.writeOk w.writes)) := rfl

theorem dispatch_reply (h : Closed env w₀ requester request J) (hlog : w₀.log = [])
    (response : String) : J (exec (reply env requester response) w₀).2 := by
  rw [exec_reply]
  exact h.unchanged _ ((grows_refl hlog).recordWrite (makes_reply (plain_of_type (by simp)) _))

/-- Whatever a request is, it leaves a state with `J`. -/
theorem exec_dispatch (h : Closed env w₀ requester request J) (hlog : w₀.log = [])
    (hwrites : w₀.writes = 0) : J (exec (dispatch env requester request) w₀).2 := by
  have hgrows : w₀.Grows env requester request w₀ := grows_refl hlog
  rw [dispatch]
  cases htype : request.member? "type" with
  | none => exact dispatch_reply h hlog _
  | some type =>
      -- one case for each type of request, in the order of the source
      have hhas : ∀ {text : String}, type.isText text = true → request.HasType text := by
        intro text htext
        rw [Json.HasType, htype, Json.isText_iff.mp htext]
      dsimp only
      split
      · rename_i htext
        exact (triple_handleRegister h (hhas htext)).exec_snd hgrows
      split
      · rename_i htext
        exact (triple_handleAuthorize h (hhas htext)).exec_snd hgrows
      split
      · rename_i htext
        exact (triple_handleSendMessage h (hhas htext)).exec_snd ⟨hgrows, hwrites⟩
      split
      · rename_i htext
        exact (triple_handleFileChunk h (hhas htext)).exec_snd hgrows
      split
      · exact (triple_handleGetUserKeys h).exec_snd hgrows
      split
      · rename_i htext
        exact (triple_handleSendAesKey h (hhas htext)).exec_snd hgrows
      · exact dispatch_reply h hlog _

/-- Whatever a request line is, the loop leaves a state with `J` behind it. A line that does
not parse counts as `null`, a request without a type. -/
theorem exec_processRequest {parse : JsonParser} {line : Bytes}
    (h : Closed env w₀ requester (parse.value line) J) (hlog : w₀.log = [])
    (hwrites : w₀.writes = 0) : J (exec (processRequest env requester (parse line)) w₀).2 := by
  unfold JsonParser.value at h
  cases hparse : parse line with
  | ok request =>
      rw [hparse] at h
      exact exec_dispatch h hlog hwrites
  | error failure =>
      rw [hparse] at h
      cases failure with
      | parseError => exact dispatch_reply h hlog _
      | outOfRange => exact h.unchanged w₀ (grows_refl hlog)

end Specs

end Silence.Server
