import Silence.Client.FileChunks
import Silence.Client.IncomingFiles
import Silence.Server.Acknowledgments
import Silence.Server.Handover

/-!
# Silence.System.Link

A client that sends files, the server and the file server, in one system.

A `Link` is one connection: the requests that the client has written and the server has
not handled yet, and the frames that the server has written and the client has not
handled yet, both in order. The server also handles the requests of other connections.
`Link.Guard` says what may happen in the runs of `Silence.System.FileUpload`: the client
takes any success for that of its chunk, and the file server appends to what is there.
-/

namespace Silence.System

open Silence.Lib Silence.Lib.Effect
open Silence.Client (Sender Transfer Action Call latestCall chunkOf chunkSize chunkCount
  fileChunkRequest IsSuccessAck)
open Silence.Server (Json JsonParser World Environment Event Socket Chunk Brings IsAck)

/-! ### The system -/

structure Link where
  sender : Sender
  /-- How many of its requests the server has handled. -/
  handled : Nat
  world : World
  /-- The frames on their way to the client. -/
  frames : List Json.Members

/-- The requests on their way to the server. -/
def Link.pending (l : Link) : List Json.Members := l.sender.client.written.drop l.handled

def Link.start (client : Client.State) (world : World) : Link where
  sender := .start client
  handled := client.written.length
  world := world
  frames := []

inductive LinkEvent where
  /-- The user has a request written that is no chunk. -/
  | request (message : Json.Members)
  | sendFileChunks (filename : Bytes) (content : Option Bytes)
  | wake
  | timeout
  /-- The server handles the next request, which it gets as a line. -/
  | serve (env : Environment) (line : Bytes)
  /-- The server handles something of another connection. -/
  | other (event : Event)
  /-- The client handles the next frame. -/
  | deliver

def Link.serverStep (parse : JsonParser) (socket : Socket) (l : Link) (event : Event) :
    Link :=
  { l with
    world := l.world.step parse event
    frames := l.frames ++ (l.world.step parse event).framesTo socket }

/-- A client that has ended reads no more frames. -/
def Link.deliver (system : Crypto.HybridCryptoSystem) (l : Link) : Link :=
  match l.frames with
  | [] => l
  | frame :: frames =>
      if l.sender.running then
        { l with sender := l.sender.step system (.message (.object frame)), frames := frames }
      else l

def Link.step (parse : JsonParser) (system : Crypto.HybridCryptoSystem) (socket : Socket)
    (l : Link) : LinkEvent → Link
  | .request message =>
      { l with sender := { l.sender with client := l.sender.client.asyncWrite message } }
  | .sendFileChunks filename content =>
      { l with sender := l.sender.step system (.sendFileChunks filename content) }
  | .wake => { l with sender := l.sender.step system .wake }
  | .timeout => { l with sender := l.sender.step system .timeout }
  | .serve env line =>
      { l.serverStep parse socket (.request socket env line) with handled := l.handled + 1 }
  | .other event => l.serverStep parse socket event
  | .deliver => l.deliver system

/-! ### What may happen -/

/-- The request brings no chunk. -/
def NoChunk (request : Json.Members) : Prop := ∀ chunk, ¬ Brings (.object request) chunk

/-- No frame reports a success. -/
def NoSuccess (frames : List Json.Members) : Prop :=
  ∀ frame ∈ frames, ¬ IsSuccessAck (.object frame)

/-- Neither a chunk nor a success is on its way. -/
structure Link.Quiet (l : Link) : Prop where
  pending : ∀ request ∈ l.pending, NoChunk request
  frames : NoSuccess l.frames

/-- If the upload of a chunk of the file is handled, it is under the name of the file. -/
def HandledByName (env : Environment) (chunk : Chunk) : Prop :=
  ∀ param, (env.uploadExchange chunk.filename).handledAs = some param →
    param.name = bytesOf chunk.filename

/-- The event uploads nothing under the name. -/
def LeavesFile (parse : JsonParser) (filename : Bytes) : Event → Prop
  | .disconnect _ => True
  | .request _ env line => ∀ chunk, Brings (parse.value line) chunk →
      ∀ param, (env.uploadExchange chunk.filename).handledAs = some param → param.name ≠ filename

/-- The condition: a file is sent while nothing is stored under its name, no wait is given up while
its answer may still come, and the other connections leave the file of the latest call alone. -/
def Link.Guard (parse : JsonParser) (socket : Socket) (l : Link) : LinkEvent → Prop
  | .request message => l.sender.running = true ∧ l.sender.transfer = none ∧ NoChunk message
  | .sendFileChunks filename _ => l.world.fileServer.stored filename = []
  | .wake => True
  | .timeout => l.Quiet
  | .serve env line => ∃ request rest, l.pending = request :: rest ∧
      parse line = .ok (.object request) ∧
        ∀ chunk, Brings (.object request) chunk → HandledByName env chunk
  | .other event => event.socket ≠ socket ∧
      ∀ call, latestCall l.sender.trace = some call → LeavesFile parse call.filename event
  | .deliver => True

/-! ### The client -/

/-- The flag stays set, and only answers to chunks are written. -/
structure Grew (client client' : Client.State) : Prop where
  flag : client.chunkAcknowledged = true → client'.chunkAcknowledged = true
  written : ∃ more, client'.written = client.written ++ more ∧ ∀ request ∈ more, NoChunk request

theorem grew_refl (client : Client.State) : Grew client client where
  flag := id
  written := ⟨[], (List.append_nil _).symm, nofun⟩

/-- A change of neither the flag nor what is written. -/
theorem Grew.congr {client client₁ client₂ : Client.State} (h : Grew client client₁)
    (hflag : client₂.chunkAcknowledged = client₁.chunkAcknowledged)
    (hwritten : client₂.written = client₁.written) : Grew client client₂ where
  flag := by
    rw [hflag]
    exact h.flag
  written := by
    rw [hwritten]
    exact h.written

theorem noChunk_chunkReceived (chunk : Chunk) : NoChunk (Client.chunkReceived chunk) := by
  intro chunk' hb
  have htype := hb.type
  simp [Json.HasType, Json.member?, Client.chunkReceived] at htype

theorem Grew.writeChunk {client client₁ : Client.State} (h : Grew client client₁) (path : Bytes)
    (filename chunkData : String) (chunkNumber : UInt64) :
    Grew client (client₁.writeChunk path filename chunkData chunkNumber) where
  flag := h.flag
  written := by
    obtain ⟨more, hmore, hnone⟩ := h.written
    refine ⟨more ++ [Client.chunkReceived ⟨filename, chunkData, chunkNumber, false⟩], ?_, ?_⟩
    · rw [← List.append_assoc, ← hmore]
      rfl
    · exact List.forall_mem_append.mpr ⟨hnone,
        List.forall_mem_singleton.mpr (noChunk_chunkReceived _)⟩

theorem preserves_grew_incomingFileChunk (client : Client.State) (message : Json) :
    Preserves (Grew client) (Client.handleIncomingFileChunk message) := by
  refine preserves_attempt_bind fun filename _ => preserves_attempt_bind fun chunkData _ =>
    preserves_attempt_bind fun chunkNumber _ => preserves_attempt_bind fun isLast _ => ?_
  refine triple_get_bind fun client₁ h => ?_
  cases client₁.incomingFiles.find? filename with
  | none => exact triple_pure fun s hs => hs ▸ h
  | some path =>
      refine triple_bind (R := fun _ => Grew client) (triple_modify fun s hs => ?_) fun _ => ?_
      · rw [hs]
        exact h.writeChunk path filename chunkData chunkNumber
      · cases isLast with
        | true => exact preserves_modify fun _ h => h.congr rfl rfl
        | false => exact preserves_pure _

theorem preserves_grew_chunkAcknowledgment (client : Client.State) (message : Json) :
    Preserves (Grew client) (Client.handleChunkAcknowledgment message) := by
  refine preserves_attempt_bind fun status _ => triple_ite (fun _ => ?_) fun _ => ?_
  · exact preserves_modify fun client₁ h => ⟨fun _ => rfl, h.written⟩
  · exact preserves_attempt_bind fun _ _ => preserves_pure _

/-- Whatever a message is, the client neither clears the flag nor sends a chunk. -/
theorem grew_dispatchMessage (system : Crypto.HybridCryptoSystem) (message : Json)
    (client : Client.State) :
    Grew client (exec (Client.dispatchMessage system message) client).2 := by
  refine Triple.exec_snd (P := Grew client) ?_ (grew_refl client)
  refine preserves_attempt_bind fun type _ => ?_
  refine triple_ite (fun _ => preserves_grew_chunkAcknowledgment client message) fun _ => ?_
  refine triple_ite (fun _ => ?_) fun _ => ?_
  · exact preserves_attempt_bind fun _ _ => preserves_attempt_bind fun _ _ =>
      preserves_modify fun _ h => h.congr rfl rfl
  refine triple_ite (fun _ => preserves_grew_incomingFileChunk client message) fun _ => ?_
  refine triple_ite (fun _ => Client.preserves_receiveUserPublicKeys message
    fun _ _ _ h => h.congr rfl rfl) fun _ => ?_
  exact triple_ite (fun _ => Client.preserves_receiveAesKey system message
    fun _ _ _ h => h.congr rfl rfl) fun _ => preserves_pure _

/-- A success sets the flag. -/
theorem exec_dispatchMessage_success (system : Crypto.HybridCryptoSystem) {message : Json}
    (h : IsSuccessAck message) (client : Client.State) :
    exec (Client.dispatchMessage system message) client =
      (.ok (), { client with chunkAcknowledged := true }) := by
  have htype : Client.typeOf message = .ok (.string "chunk_acknowledgment") :=
    Client.typeOf_eq_ok_iff.mpr h.type
  have hstatus : message.at? "status" = .ok (.string "success") := Json.at?_eq_ok_iff.mpr h.status
  unfold Client.dispatchMessage Client.read
  rw [htype, exec_bind, exec_attempt]
  show exec (Client.handleChunkAcknowledgment message) client = _
  unfold Client.handleChunkAcknowledgment Client.read
  rw [hstatus, exec_bind, exec_attempt]
  rfl

/-! ### The server -/

section Server

variable {parse : JsonParser} {world : World} {filename : Bytes}

/-- An event that uploads nothing under a name leaves what is stored under it. -/
theorem stored_step {event : Event} (h : LeavesFile parse filename event) :
    (world.step parse event).fileServer.stored filename = world.fileServer.stored filename := by
  cases event with
  | disconnect socket => rfl
  | request socket env line =>
      refine Server.step_request (J := fun w =>
        w.fileServer.stored filename = world.fileServer.stored filename) {
          unchanged := fun w hw => by
            rw [hw.fileServer]
            rfl
          authorize := fun w userId hw _ => congrArg (·.stored filename) hw.fileServer
          announce := fun w transfer hw _ => congrArg (·.stored filename) hw.fileServer
          takeChunk := fun w chunk hw hb => ?_
          recordWrite := fun w o _ hw => hw
          eraseTransfer := fun w chunk _ _ hw => hw }
      have hserver : w.fileServer = world.fileServer := hw.fileServer
      rcases Server.takeChunk_cases w env chunk with ⟨-, htake⟩ | ⟨-, success, server, hup, htake⟩
      · rw [htake, Server.openUpload_fileServer, hserver]
      · have hkept : server.stored filename = world.fileServer.stored filename := by
          unfold World.upload at hup
          rw [hserver] at hup
          cases hparam : (env.uploadExchange chunk.filename).handledAs with
          | none =>
              unfold FileServer.uploadChunk at hup
              rw [hparam] at hup
              cases hup
              rfl
          | some param =>
              obtain ⟨-, -, hframe⟩ := FileServer.uploadChunk_spec hparam hup
              exact hframe filename (h chunk hb param hparam).symm
        rw [htake]
        cases success with
        | false => exact hkept
        | true => exact hkept

theorem fileServer_handleChunk {env : Environment} {chunk : Chunk}
    (haccepts : world.Accepts env chunk) :
    (world.handleChunk env chunk).fileServer =
      (world.upload env chunk.filename chunk.chunkData).2 := by
  have htake := Server.fileServer_takeChunk_of_accepts haccepts
  unfold World.handleChunk
  split
  · rw [← htake]
    exact Server.fileServer_completeTransfer ..
  · exact htake

/-- An accepted chunk is appended to its file. -/
theorem stored_handleChunk {env : Environment} {chunk : Chunk} (haccepts : world.Accepts env chunk)
    (hname : HandledByName env chunk) :
    (world.handleChunk env chunk).fileServer.stored (bytesOf chunk.filename) =
      world.fileServer.stored (bytesOf chunk.filename) ++ bytesOf chunk.chunkData := by
  have hsucceeds := (FileServer.uploadChunk_success_iff ..).mp haccepts.uploaded
  obtain ⟨param, hparam, haccepted⟩ := hsucceeds.accepted
  obtain ⟨-, hstored, -⟩ := FileServer.uploadChunk_spec hparam
    (show FileServer.uploadChunk _ _ _ = (_, _) from rfl)
  rw [hname param hparam] at hstored haccepted
  rw [fileServer_handleChunk haccepts]
  refine hstored.trans ?_
  unfold FileServer.State.accepts at haccepted
  rw [Bool.and_eq_true] at haccepted
  unfold FileServer.State.storedAfter FileServer.State.contentAfter
  rw [if_pos haccepted.1, if_pos haccepted.2, hsucceeds.written]

end Server

/-! ### Sending -/

/-- The request brings the chunk with the number `n + 1` of the file. -/
def BringsChunk (request : Json.Members) (filename content : Bytes) (n : Nat) : Prop :=
  ∃ chunk, Brings (.object request) chunk ∧ bytesOf chunk.filename = filename ∧
    bytesOf chunk.chunkData = (chunkOf content n).data ∧
      chunk.isLast = (chunkOf content n).isLast

theorem bringsChunk_of_fileChunkRequest {filename content : Bytes} {n : Nat}
    {request : Json.Members} (h : fileChunkRequest filename (chunkOf content n).data (n + 1)
      (chunkOf content n).isLast = .ok request) :
    BringsChunk request filename content n := by
  unfold fileChunkRequest at h
  cases hfilename : Server.dumpedText filename with
  | error e =>
      rw [hfilename] at h
      cases h
  | ok name =>
      cases hdata : Server.dumpedText (chunkOf content n).data with
      | error e =>
          rw [hfilename, hdata] at h
          cases h
      | ok chunkData =>
          rw [hfilename, hdata] at h
          obtain rfl := Except.ok.inj h
          refine ⟨⟨name, chunkData, UInt64.ofInt (n + 1 : Nat), (chunkOf content n).isLast⟩,
            ⟨?_, ?_, ?_, ?_, ?_⟩, Server.bytesOf_of_dumpedText hfilename,
            Server.bytesOf_of_dumpedText hdata, rfl⟩
          · simp [Json.HasType, Json.member?]
          · exact Server.Json.readString_of_member? (by simp [Json.member?])
          · exact Server.Json.readString_of_member? (by simp [Json.member?])
          · exact @Server.Json.read_of_member? _ _ _ (.number (n + 1 : Nat)) _
              (by simp [Json.member?])
          · exact @Server.Json.read_of_member? _ _ _ (.boolean (chunkOf content n).isLast) _
              (by simp [Json.member?])

/-- From the head of the loop the call sends the next chunk, comes to its end, or ends the client
because of a text that is not valid. -/
theorem sendNext_cases (s : Sender) {transfer : Transfer} {n : Nat}
    (hnumber : transfer.chunkNumber = n + 1) (hfile : transfer.file.AfterChunks n) :
    (∃ request transfer' chunkData isLast,
      fileChunkRequest transfer.filename (chunkOf transfer.file.content n).data (n + 1)
        (chunkOf transfer.file.content n).isLast = .ok request ∧
      transfer'.filename = transfer.filename ∧ transfer'.file.content = transfer.file.content ∧
      transfer'.chunkNumber = n + 1 ∧ transfer'.file.AfterChunks (n + 1) ∧
      s.sendNext transfer =
        { s with client := s.client.asyncWrite request, transfer := some transfer' }.act
          (.sent transfer.filename (n + 1) chunkData isLast)) ∨
    (chunkCount transfer.file.content = n ∧ s.sendNext transfer = s.complete transfer) ∨
    (¬ Client.Sendable transfer.filename transfer.file.content n ∧
      s.sendNext transfer = { s with transfer := none, running := false }) := by
  unfold Sender.sendNext
  split
  · rename_i heof
    exact .inr (.inl ⟨hfile.chunkCount_eq (.inl heof), rfl⟩)
  · dsimp only
    split
    · rename_i hnone
      exact .inr (.inl ⟨hfile.chunkCount_eq (.inr hnone), rfl⟩)
    · rename_i hsome
      have hdata := Client.data_read hfile
      have hlast := Client.isLast_read hfile hsome
      split
      · rename_i e herror
        refine .inr (.inr ⟨fun hsendable => ?_, rfl⟩)
        unfold Client.Sendable at hsendable
        rw [← hdata] at hsendable
        obtain ⟨request, hok⟩ := Client.fileChunkRequest_ok_iff.mpr hsendable
        rw [herror] at hok
        cases hok
      · rename_i request hok
        rw [hlast, hdata, hnumber] at hok
        rw [hnumber]
        exact .inl ⟨request, { transfer with
            file := (transfer.file.read chunkSize).2
            chunkNumber := n + 1
            totalBytesSent := transfer.totalBytesSent + (transfer.file.read chunkSize).1.length },
          _, _, hok, rfl, rfl, rfl, hfile.read hsome, rfl⟩

/-! ### The latest call -/

/-- The call for the file is going on. -/
def Ongoing (trace : List Action) (filename content : Bytes) : Prop :=
  ∃ actions, latestCall trace = some ⟨filename, content, actions⟩ ∧
    ∀ name total chunks, .completed name total chunks ∉ actions

/-- The file has been reported as completed since its call started. -/
def Completed (call : Call) : Prop :=
  ∃ name total chunks, .completed name total chunks ∈ call.actions

theorem Ongoing.not_completed {trace : List Action} {filename content : Bytes}
    (h : Ongoing trace filename content) {call : Call} (hcall : latestCall trace = some call) :
    ¬ Completed call := by
  obtain ⟨actions, hlatest, hnone⟩ := h
  obtain rfl := Option.some.inj (hlatest.symm.trans hcall)
  intro hcompleted
  obtain ⟨name, total, chunks, hmem⟩ := hcompleted
  exact hnone name total chunks hmem

theorem Ongoing.snoc {trace : List Action} {filename content : Bytes}
    (h : Ongoing trace filename content) (action : Action)
    (hstart : ∀ filename content, action ≠ .started filename content)
    (hcompleted : ∀ name total chunks, action ≠ .completed name total chunks) :
    Ongoing (trace ++ [action]) filename content := by
  obtain ⟨actions, hlatest, hnone⟩ := h
  refine ⟨actions ++ [action], Client.latestCall_snoc hlatest hstart, ?_⟩
  intro name total chunks hmem
  rcases List.mem_append.mp hmem with hold | hnew
  · exact hnone name total chunks hold
  · exact hcompleted name total chunks (List.mem_singleton.mp hnew).symm

/-- An action that neither starts nor completes a call leaves what is completed. -/
theorem exists_call_of_snoc {trace : List Action} (action : Action) {call' : Call}
    (h : latestCall (trace ++ [action]) = some call')
    (hstart : ∀ filename content, action ≠ .started filename content)
    (hcompleted : ∀ name total chunks, action ≠ .completed name total chunks) :
    ∃ call, latestCall trace = some call ∧ call'.filename = call.filename ∧
      call'.content = call.content ∧ (Completed call' → Completed call) := by
  cases hlatest : latestCall trace with
  | none =>
      unfold latestCall at h hlatest
      rw [List.foldl_append, hlatest] at h
      cases action with
      | started filename content => exact absurd rfl (hstart filename content)
      | _ => cases h
  | some call =>
      rw [Client.latestCall_snoc hlatest hstart] at h
      obtain rfl := Option.some.inj h
      refine ⟨call, rfl, rfl, rfl, ?_⟩
      intro h
      obtain ⟨name, total, chunks, hmem⟩ := h
      rcases List.mem_append.mp hmem with hold | hnew
      · exact ⟨name, total, chunks, hold⟩
      · exact absurd (List.mem_singleton.mp hnew).symm (hcompleted name total chunks)

/-- All chunks of a file make up the file. -/
theorem take_chunkCount (content : Bytes) :
    content.take (chunkSize * chunkCount content) = content := by
  refine List.take_of_length_le ?_
  unfold chunkCount chunkSize
  omega

end Silence.System
