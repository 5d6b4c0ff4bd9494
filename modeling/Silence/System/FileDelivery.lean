import Silence.System.FileUpload

/-!
# Silence.System.FileDelivery

The files that reach the disk of a receiver.

The server hands a completed file over as a notification and the chunks that the file
server returns, and the client of the receiver opens, writes and closes a file for them.
`deliveries_received` says that the frames of a whole run amount to one thing for each
file that is handed over: what the file server has stored is put on the disk. Together
with `Silence.System.FileUpload` this leads from the disk of the sender to that of the
receiver (`sent_received`).
-/

namespace Silence.System

open Silence.Lib Silence.Lib.Effect
open Silence.Client (Receiver IncomingFrame IncomingTransfer frameOf chunkFrames dataOf latestCall
  chunkOf chunkSize)
open Silence.Server (Json JsonParser World Environment Event Socket Chunk Brings Observation History
  PendingFileTransfer chunkMessages fileNotification IsAck IsFileFrame IsOrdinary CanSend)

/-! ### Messages that are no frames of a file -/

section Receiving

variable {L : Type*} [DecidableEq L] {locate : Bytes → Option L}
  {system : Crypto.HybridCryptoSystem} {r : Receiver L}

/-- The open files and the directory are those of `client`. -/
structure SameFiles (client client' : Client.State) : Prop where
  incomingFiles : client'.incomingFiles = client.incomingFiles
  userFilesDir : client'.userFilesDir = client.userFilesDir

theorem sameFiles_dispatchMessage {message : Json} (h : frameOf message = none)
    (client : Client.State) :
    SameFiles client (exec (Client.dispatchMessage system message) client).2 := by
  refine Triple.exec_snd (P := SameFiles client) ?_ ⟨rfl, rfl⟩
  refine preserves_attempt_bind fun type htype => ?_
  have hnone := h
  unfold frameOf at hnone
  rw [mapError_eq_ok.mp htype] at hnone
  dsimp only at hnone
  refine triple_ite (fun _ => ?_) fun _ => ?_
  · refine preserves_attempt_bind fun status _ => triple_ite (fun _ => ?_) fun _ => ?_
    · exact preserves_modify fun _ h => ⟨h.incomingFiles, h.userFilesDir⟩
    · exact preserves_attempt_bind fun _ _ => preserves_pure _
  refine triple_ite (fun htext => ?_) fun hnotification => ?_
  · rw [if_pos htext] at hnone
    intro client' hclient'
    rw [Client.exec_handleIncomingFile]
    cases hread : Client.readNotification message with
    | error e => exact hclient'
    | ok filename =>
        rw [hread] at hnone
        cases hnone
  rw [if_neg hnotification] at hnone
  refine triple_ite (fun htext => ?_) fun _ => ?_
  · rw [if_pos htext] at hnone
    intro client' hclient'
    rw [Client.exec_handleIncomingFileChunk]
    cases hread : Client.readFileChunk message with
    | error e => exact hclient'
    | ok chunk =>
        rw [hread] at hnone
        cases hnone
  refine triple_ite (fun _ => Client.preserves_receiveUserPublicKeys message
    fun _ _ _ h => ⟨h.incomingFiles, h.userFilesDir⟩) fun _ => ?_
  exact triple_ite (fun _ => Client.preserves_receiveAesKey system message
    fun _ _ _ h => ⟨h.incomingFiles, h.userFilesDir⟩) fun _ => preserves_pure _

/-- The frame is neither a notification of a file nor a chunk. -/
theorem frameOf_of_not_isFileFrame {frame : Json.Members} (h : ¬ IsFileFrame frame) :
    frameOf (.object frame) = none := by
  cases hframe : frameOf (.object frame) with
  | none => rfl
  | some incoming =>
      rcases Client.frameOf_eq_some hframe with ⟨-, -, htype, -⟩ | ⟨-, -, htype, -⟩
      · exact absurd (.inl htype) h
      · exact absurd (.inr htype) h

/-- The same files are open, and the disk is the same. -/
structure SameDisk (r r' : Receiver L) : Prop where
  client : SameFiles r.client r'.client
  disk : r'.disk = r.disk

theorem sameDisk_foldl {frames : List Json.Members} (h : ∀ frame ∈ frames, ¬ IsFileFrame frame)
    (r : Receiver L) :
    SameDisk r ((frames.map Json.object).foldl (Receiver.handle locate system) r) := by
  induction frames generalizing r with
  | nil => exact ⟨⟨rfl, rfl⟩, rfl⟩
  | cons frame frames ih =>
      obtain ⟨hframe, hframes⟩ := List.forall_mem_cons.mp h
      have hnone := frameOf_of_not_isFileFrame hframe
      have hfirst := @sameFiles_dispatchMessage system _ hnone r.client
      have hrest := ih hframes (r.handle locate system (.object frame))
      have hdisk : (r.handle locate system (.object frame)).disk = r.disk := by
        unfold Receiver.handle
        rw [hnone]
      rw [List.map_cons, List.foldl_cons]
      exact ⟨⟨hrest.client.incomingFiles.trans hfirst.incomingFiles,
        hrest.client.userFilesDir.trans hfirst.userFilesDir⟩, hrest.disk.trans hdisk⟩

omit [DecidableEq L] in
theorem SameDisk.idle {r' : Receiver L} (h : SameDisk r r') (hidle : r.Idle) : r'.Idle where
  incomingFiles := by
    rw [h.client.incomingFiles]
    exact hidle.incomingFiles
  stream := by
    rw [h.disk]
    exact hidle.stream

omit [DecidableEq L] in
theorem SameDisk.pathOf {r' : Receiver L} (h : SameDisk r r') (filename : String) :
    r'.client.pathOf filename = r.client.pathOf filename := by
  unfold Client.State.pathOf
  rw [h.client.userFilesDir]

/-! ### One file -/

/-- The chunks with their numbers, as they are read. -/
def numbered : Nat → List String → List (String × UInt64)
  | _, [] => []
  | i, text :: texts => (text, UInt64.ofInt i) :: numbered (i + 1) texts

theorem dataOf_numbered (i : Nat) (texts : List String) :
    dataOf (numbered i texts) = texts.flatMap bytesOf := by
  induction texts generalizing i with
  | nil => rfl
  | cons text texts ih => exact congrArg (bytesOf text ++ ·) (ih (i + 1))

theorem isEmpty_numbered (i : Nat) (texts : List String) :
    (numbered i texts).isEmpty = texts.isEmpty := by
  cases texts <;> rfl

theorem frameOf_chunkMessage (filename : String) (i : Nat) (text : String) (isLast : Bool) :
    frameOf (.object (Server.chunkMessage filename i text isLast)) =
      some (.fileChunk ⟨filename, text, UInt64.ofInt i, isLast⟩) := by
  refine Client.frameOf_of_brings ⟨?_, ?_, ?_, ?_, ?_⟩
  · simp [Json.HasType, Json.member?, Server.chunkMessage]
  · exact Server.Json.readString_of_member? (by simp [Json.member?, Server.chunkMessage])
  · exact Server.Json.readString_of_member? (by simp [Json.member?, Server.chunkMessage])
  · exact @Server.Json.read_of_member? _ _ _ (.number i) _
      (by simp [Json.member?, Server.chunkMessage])
  · exact @Server.Json.read_of_member? _ _ _ (.boolean isLast) _
      (by simp [Json.member?, Server.chunkMessage])

theorem frameOf_chunkMessages (filename : String) (i : Nat) (texts : List String) :
    List.Forall₂ (fun message frame => frameOf message = some frame)
      ((chunkMessages filename i texts).map Json.object)
      (chunkFrames filename (numbered i texts)) := by
  induction texts generalizing i with
  | nil => exact .nil
  | cons text texts ih =>
      refine .cons ?_ (ih (i + 1))
      rw [isEmpty_numbered]
      exact frameOf_chunkMessage filename i text texts.isEmpty

theorem frameOf_fileNotification (transfer : PendingFileTransfer) :
    frameOf (.object (fileNotification transfer)) = some (.notification transfer.filename) := by
  have hfilename : (Json.object (fileNotification transfer)).readString "filename" =
      .ok transfer.filename :=
    Server.Json.readString_of_member? (by simp [Json.member?, fileNotification])
  have hsender : (Json.object (fileNotification transfer)).readInt "sender_id" =
      .ok (transfer.senderId.bmod (2 ^ 32)) :=
    @Server.Json.read_of_member? _ _ _ (.number transfer.senderId) _
      (by simp [Json.member?, fileNotification])
  have hread : Client.readNotification (.object (fileNotification transfer)) =
      .ok transfer.filename := by
    unfold Client.readNotification
    rw [hfilename, hsender]
    rfl
  have htype : Client.typeOf (.object (fileNotification transfer)) =
      .ok (.string "incoming_file") :=
    Client.typeOf_eq_ok_iff.mpr (by simp [Json.member?, fileNotification])
  unfold frameOf
  rw [htype, hread]
  rfl

/-- A file is put on the disk under the path of its name. -/
def putFile (locate : Bytes → Option L) (client : Client.State) (content : L → Option Bytes)
    (file : String × Bytes) (l : L) : Option Bytes :=
  if locate (client.pathOf file.1) = some l then some file.2 else content l

/-- The files have been put on the disk, one after the other, and none is open. -/
structure HasFiles (locate : Bytes → Option L) (r : Receiver L) (files : List (String × Bytes))
    (r' : Receiver L) : Prop where
  idle : r'.Idle
  path : ∀ name, r'.client.pathOf name = r.client.pathOf name
  content : r'.disk.content = files.foldl (putFile locate r.client) r.disk.content

/-- Frames that are about no file. -/
theorem hasFiles_nil (hidle : r.Idle) {frames : List Json.Members}
    (h : ∀ frame ∈ frames, ¬ IsFileFrame frame) :
    HasFiles locate r [] ((frames.map Json.object).foldl (Receiver.handle locate system) r) := by
  have hsame := @sameDisk_foldl _ _ locate system frames h r
  exact ⟨hsame.idle hidle, hsame.pathOf, by rw [hsame.disk]; rfl⟩

theorem HasFiles.append {files files' : List (String × Bytes)} {r' r'' : Receiver L}
    (h : HasFiles locate r files r') (h' : HasFiles locate r' files' r'') :
    HasFiles locate r (files ++ files') r'' where
  idle := h'.idle
  path name := (h'.path name).trans (h.path name)
  content := by
    have hput : putFile locate r'.client = putFile locate r.client := by
      funext content file l
      unfold putFile
      rw [h.path]
    rw [h'.content, h.content, hput, List.foldl_append]

theorem HasFiles.content_of_singleton {file : String × Bytes} {r' : Receiver L}
    (h : HasFiles locate r [file] r') {l : L} (hl : locate (r.client.pathOf file.1) = some l) :
    r'.disk.content l = some file.2 := by
  rw [h.content, List.foldl_cons, List.foldl_nil]
  unfold putFile
  rw [if_pos hl]

/-- The frames of one file put it on the disk. -/
theorem hasFiles_singleton (hidle : r.Idle) (transfer : PendingFileTransfer) {texts : List String}
    (hne : texts ≠ []) {back : List Json.Members} (hback : ∀ frame ∈ back, ¬ IsFileFrame frame) :
    HasFiles locate r [(transfer.filename, texts.flatMap bytesOf)]
      ((((fileNotification transfer :: chunkMessages transfer.filename 0 texts) ++ back).map
        Json.object).foldl (Receiver.handle locate system) r) := by
  have hchunks : numbered 0 texts ≠ [] := by
    cases texts with
    | nil => exact absurd rfl hne
    | cons text texts => exact List.cons_ne_nil _ _
  let t : IncomingTransfer := ⟨transfer.filename, numbered 0 texts, hchunks⟩
  have hframes : List.Forall₂ (fun message frame => frameOf message = some frame)
      ((fileNotification transfer :: chunkMessages transfer.filename 0 texts).map Json.object)
      t.frames := by
    rw [List.map_cons]
    exact .cons (frameOf_fileNotification transfer)
      (frameOf_chunkMessages transfer.filename 0 texts)
  have hnames : ∀ frame ∈ t.frames, frame.filename = transfer.filename := by
    intro frame hmem
    rcases List.mem_cons.mp hmem with rfl | hmem
    · rfl
    · have hall : ∀ chunks : List (String × UInt64), ∀ frame ∈ chunkFrames transfer.filename chunks,
          frame.filename = transfer.filename := by
        intro chunks
        induction chunks with
        | nil => exact nofun
        | cons chunk chunks ih => exact List.forall_mem_cons.mpr ⟨rfl, ih⟩
      exact hall _ frame hmem
  have hinterleaves : Client.Interleaves [t] t.frames := by
    refine ⟨List.pairwise_singleton _ _, ?_, ?_⟩
    · exact fun frame hmem => ⟨t, List.mem_singleton.mpr rfl, (hnames frame hmem).symm⟩
    · intro t' hmem
      obtain rfl := List.mem_singleton.mp hmem
      exact List.filter_eq_self.mpr fun frame hframe => decide_eq_true (hnames frame hframe)
  have hreceived := @Client.received_of_idle _ _ locate _ _ hidle _ hinterleaves
    (List.pairwise_singleton _ _)
  have hpath := fun name => @Client.pathOf_foldl_receive _ _ locate r t.frames name
  rw [← Receiver.foldl_handle hframes system] at hreceived hpath
  rw [List.map_append, List.foldl_append]
  have hsame := @sameDisk_foldl _ _ locate system back hback
    (((fileNotification transfer :: chunkMessages transfer.filename 0 texts).map
      Json.object).foldl (Receiver.handle locate system) r)
  refine ⟨hsame.idle hreceived.idle, fun name => (hsame.pathOf name).trans (hpath name), ?_⟩
  funext l
  rw [hsame.disk]
  show _ = putFile locate r.client r.disk.content _ l
  unfold putFile
  split
  · rename_i hlocated
    rw [hreceived.content t (List.mem_singleton.mpr rfl) l hlocated, dataOf_numbered]
  · rename_i hother
    refine hreceived.others l fun t' hmem => ?_
    rw [List.mem_singleton.mp hmem]
    exact hother

end Receiving

/-! ### One request -/

/-- The name of the file that a frame tells of. -/
def notifiedFile? (frame : Json.Members) : Option String :=
  match frame.lookup "type", frame.lookup "filename" with
  | some type, some (.string filename) =>
      if type.isText "incoming_file" then some filename else none
  | _, _ => none

/-- The files that the last event has handed over to a client, with what is stored of them. -/
def deliveredTo (socket : Socket) (w : World) : List (String × Bytes) :=
  ((w.framesTo socket).filterMap notifiedFile?).map fun filename =>
    (filename, w.fileServer.stored (bytesOf filename))

theorem notifiedFile?_of_not_isFileFrame {frame : Json.Members} (h : ¬ IsFileFrame frame) :
    notifiedFile? frame = none := by
  unfold notifiedFile?
  split
  · rename_i type filename htype hfilename
    refine if_neg fun htext => h (.inl ?_)
    rw [htype, Json.isText_iff.mp htext]
  · rfl

theorem deliveredTo_eq_nil {w : World} {socket : Socket}
    (h : ∀ frame ∈ w.framesTo socket, ¬ IsFileFrame frame) : deliveredTo socket w = [] := by
  unfold deliveredTo
  rw [List.filterMap_eq_nil_iff.mpr fun frame hmem =>
    notifiedFile?_of_not_isFileFrame (h frame hmem)]
  rfl

theorem notifiedFile?_chunkMessages (filename : String) (i : Nat) (texts : List String) :
    (chunkMessages filename i texts).filterMap notifiedFile? = [] := by
  refine List.filterMap_eq_nil_iff.mpr fun frame hmem => ?_
  obtain ⟨n, text, isLast, -, rfl⟩ := Server.exists_of_mem_chunkMessages hmem
  simp [notifiedFile?, Server.chunkMessage, Json.isText]

theorem notifiedFile?_fileNotification (transfer : PendingFileTransfer) :
    notifiedFile? (fileNotification transfer) = some transfer.filename := by
  simp [notifiedFile?, fileNotification, Json.isText]

/-- The chunk completes its file, and the client on the socket is notified. -/
structure HandsOverTo (w : World) (env : Environment) (chunk : Chunk) (socket : Socket) :
    Prop where
  isLast : chunk.isLast = true
  accepts : w.Accepts env chunk
  notifies : ∃ transfer, w.pendingFileTransfers.find? (·.filename = chunk.filename) =
    some transfer ∧ w.connectedClients.getClientSocket transfer.receiverId = some socket ∧
      env.writeOk 0 = true

/-- The condition: a file that is handed over to the client is sent as a whole. -/
def SendsWholeFiles (parse : JsonParser) (socket : Socket) (w : World) : Event → Prop
  | .disconnect _ => True
  | .request _ env line => ∀ chunk, Brings (parse.value line) chunk →
      HandsOverTo w env chunk socket → w.SendsFile env chunk

section Request

variable {parse : JsonParser} {env : Environment} {w : World} {socket : Socket}

theorem framesTo_append {w' : World} {more : List Observation} (hlog : w'.log = w.log ++ more) :
    w'.framesTo socket = w.framesTo socket ++ more.filterMap (Observation.frameTo? socket) := by
  unfold World.framesTo
  rw [hlog, List.filterMap_append]

/-- What is sent to another client is not sent to this one. -/
theorem framesTo_sendChunks_of_ne {clientSocket : Socket} (hne : clientSocket ≠ socket)
    (userId : Int) (filename : String) (i : Nat) (chunks : List Bytes)
    (frames : List Json.Members) :
    Preserves (fun w' : World => w'.framesTo socket = frames)
      (Server.sendChunks env clientSocket userId filename i chunks) := by
  have hwrite : ∀ (w' : World) (frame : Json.Members) (ok : Bool), w'.framesTo socket = frames →
      (w'.recordWrite (.wrote clientSocket (some userId) frame ok)).framesTo socket = frames := by
    intro w' frame ok hw'
    rw [framesTo_append rfl, hw']
    cases ok with
    | false => simp [Observation.frameTo?]
    | true => simp [Observation.frameTo?, hne]
  induction chunks generalizing i with
  | nil => exact preserves_pure _
  | cons chunk chunks ih =>
      refine preserves_bind (Server.preserves_catchException ?_ (preserves_pure _)) fun goOn => ?_
      · exact preserves_attempt_bind fun text _ => preserves_bind
          (Server.triple_write (fun w' hw' _ => hwrite w' _ _ hw') fun w' hw' _ =>
            hwrite w' _ _ hw') fun _ => preserves_pure _
      · cases goOn with
        | true => exact ih (i + 1)
        | false => exact preserves_pure _

theorem framesTo_takeChunk (chunk : Chunk) :
    (w.takeChunk env chunk).framesTo socket = w.framesTo socket := by
  rcases Server.takeChunk_log w env chunk with hlog | hlog
  · unfold World.framesTo
    rw [hlog]
  · rw [framesTo_append hlog]
    simp [Observation.frameTo?]

/-- The frames of a file that is sent as a whole. -/
theorem framesTo_handleChunk_of_handsOverTo {chunk : Chunk} (hwrites : w.writes = 0)
    (hhands : HandsOverTo w env chunk socket) (hsends : w.SendsFile env chunk) :
    ∃ transfer texts, transfer.filename = chunk.filename ∧ texts ≠ [] ∧
      texts.flatMap bytesOf =
        (w.handleChunk env chunk).fileServer.stored (bytesOf chunk.filename) ∧
      (w.handleChunk env chunk).framesTo socket = w.framesTo socket ++
        fileNotification transfer :: chunkMessages chunk.filename 0 texts := by
  obtain ⟨hlast, haccepts, transfer, hfind, hsocket, hok⟩ := hhands
  have hname : transfer.filename = chunk.filename := by simpa using List.find?_some hfind
  have hserver := Server.fileServer_takeChunk_of_accepts haccepts
  unfold World.handleChunk
  rw [if_pos ⟨hlast, haccepts⟩, Server.fileServer_completeTransfer, hserver]
  rw [@Server.exec_completeTransfer_of_notified _ _ _ transfer _
    (by rwa [Server.takeChunk_pendingFileTransfers])
    (by rwa [Server.takeChunk_connectedClients]) (by rwa [Server.takeChunk_writes, hwrites])]
  have hcount : ((w.takeChunk env chunk).notify socket transfer).writes = 1 := by
    rw [World.notify, World.recordWrite_writes, Server.takeChunk_writes, hwrites]
  rcases @Server.sendChunks_cases env socket transfer.receiverId chunk.filename 0
    (env.downloadFileChunks chunk.filename) ((w.takeChunk env chunk).notify socket transfer) with
    ⟨-, texts, htexts, hlog⟩ | ⟨hnot, -⟩
  · refine ⟨transfer, texts, hname, ?_, ?_, ?_⟩
    · intro hnil
      rw [hnil] at htexts
      exact hsends.nonempty htexts.symm
    · rw [← hsends.stored, ← htexts, List.flatMap_def]
    · refine (framesTo_append hlog).trans ?_
      rw [World.notify, framesTo_append rfl, framesTo_takeChunk]
      simp [Observation.frameTo?, List.filterMap_map, Function.comp_def]
  · rw [hcount] at hnot
    exact absurd hsends.canSend hnot

/-- Otherwise a chunk brings no frames of a file. -/
theorem framesTo_handleChunk_of_not_handsOverTo {chunk : Chunk} (hwrites : w.writes = 0)
    (hhands : ¬ HandsOverTo w env chunk socket) :
    (w.handleChunk env chunk).framesTo socket = w.framesTo socket := by
  unfold World.handleChunk
  split
  · rename_i hcompletes
    rcases Server.completeTransfer_cases env chunk.filename (w.takeChunk env chunk) with
      ⟨transfer, receiverSocket, hfind, hsocket, ⟨hok, hrun⟩ | ⟨-, hrun⟩⟩ | ⟨-, hrun⟩
    · rw [Server.takeChunk_pendingFileTransfers] at hfind
      rw [Server.takeChunk_connectedClients] at hsocket
      rw [Server.takeChunk_writes, hwrites] at hok
      have hne : receiverSocket ≠ socket := by
        rintro rfl
        exact hhands ⟨hcompletes.1, hcompletes.2, transfer, hfind, hsocket, hok⟩
      rw [hrun]
      refine (framesTo_sendChunks_of_ne hne transfer.receiverId chunk.filename 0
        (env.downloadFileChunks chunk.filename) (w.framesTo socket)).exec_snd ?_
      rw [World.notify, framesTo_append rfl, framesTo_takeChunk]
      simp [Observation.frameTo?, hne]
    · rw [hrun, framesTo_append rfl, framesTo_takeChunk]
      simp [Observation.frameTo?]
    · rw [hrun, framesTo_takeChunk]
  · exact framesTo_takeChunk chunk

end Request

/-! ### Every run -/

section Runs

variable {L : Type*} [DecidableEq L] {locate : Bytes → Option L}
  {system : Crypto.HybridCryptoSystem} {parse : JsonParser} {socket : Socket}

/-- The answer to a chunk is about no file of the requester. -/
theorem not_isFileFrame_chunkAnswer (w : World) (env : Environment) (chunk : Chunk) :
    ¬ IsFileFrame (w.chunkAnswer env chunk) := by
  intro h
  have hack := Server.isAck_chunkAnswer w env chunk
  unfold IsAck at hack
  unfold IsFileFrame at h
  rw [hack] at h
  simp at h

/-- What a client gets behind the frames of a file is the answer to its own chunk. -/
theorem framesTo_step (env : Environment) (w : World) {line : Bytes} {chunk : Chunk}
    (hb : Brings (parse.value line) chunk) (requester : Socket) :
    ∃ back, (w.step parse (.request requester env line)).framesTo socket =
        (w.beginRequest.handleChunk env chunk).framesTo socket ++ back ∧
      ∀ frame ∈ back, ¬ IsFileFrame frame := by
  rw [Server.step_chunk hb requester]
  refine ⟨_, framesTo_append rfl, ?_⟩
  intro frame hmem
  obtain ⟨o, ho, hframe⟩ := List.mem_filterMap.mp hmem
  obtain ⟨recipient, hwrote⟩ := Server.frameTo?_eq_some hframe
  rw [List.mem_singleton.mp ho, Observation.wrote.injEq] at hwrote
  rw [← hwrote.2.2.1]
  exact not_isFileFrame_chunkAnswer _ _ _

/-- A file that is handed over as a whole. -/
theorem hasFiles_of_handsOverTo {w : World} {env : Environment} {line : Bytes} {chunk : Chunk}
    (hb : Brings (parse.value line) chunk) (hhands : HandsOverTo w env chunk socket)
    (hsends : w.SendsFile env chunk) (requester : Socket) {r : Receiver L} (hidle : r.Idle) :
    let w' := w.step parse (.request requester env line)
    deliveredTo socket w' = [(chunk.filename, w'.fileServer.stored (bytesOf chunk.filename))] ∧
      HasFiles locate r [(chunk.filename, w'.fileServer.stored (bytesOf chunk.filename))]
        (((w'.framesTo socket).map Json.object).foldl (Receiver.handle locate system) r) := by
  intro w'
  obtain ⟨back, hframes, hback⟩ := @framesTo_step parse socket env w line chunk hb requester
  have hbegin : HandsOverTo w.beginRequest env chunk socket :=
    ⟨hhands.isLast, (Server.accepts_beginRequest chunk).mpr hhands.accepts, hhands.notifies⟩
  obtain ⟨transfer, texts, hname, hne, hstored, hhandled⟩ :=
    framesTo_handleChunk_of_handsOverTo rfl hbegin
      ⟨hsends.nonempty, hsends.stored, hsends.canSend⟩
  have hstep : w'.fileServer = (w.beginRequest.handleChunk env chunk).fileServer := by
    show (w.step parse (.request requester env line)).fileServer = _
    rw [Server.step_chunk hb requester]
    rfl
  have hall : w'.framesTo socket =
      (fileNotification transfer :: chunkMessages transfer.filename 0 texts) ++ back := by
    refine hframes.trans ?_
    rw [hhandled, hname]
    rfl
  rw [hstep, ← hstored, ← hname]
  constructor
  · unfold deliveredTo
    rw [hall, List.filterMap_append, List.filterMap_eq_nil_iff.mpr fun frame hmem =>
        notifiedFile?_of_not_isFileFrame (hback frame hmem),
      List.filterMap_cons_some (notifiedFile?_fileNotification transfer),
      notifiedFile?_chunkMessages, hstep, hname, hstored]
    rfl
  · rw [hall]
    exact hasFiles_singleton hidle transfer hne hback

/-- The frames of one event put the files on the disk that it hands over. -/
theorem hasFiles_step {w : World} {event : Event}
    (hsends : SendsWholeFiles parse socket w event) {r : Receiver L} (hidle : r.Idle) :
    HasFiles locate r (deliveredTo socket (w.step parse event))
      ((((w.step parse event).framesTo socket).map Json.object).foldl
        (Receiver.handle locate system) r) := by
  -- without frames of a file nothing is put
  have hordinary : (∀ frame ∈ (w.step parse event).framesTo socket, ¬ IsFileFrame frame) →
      HasFiles locate r (deliveredTo socket (w.step parse event))
        ((((w.step parse event).framesTo socket).map Json.object).foldl
          (Receiver.handle locate system) r) := by
    intro hnone
    rw [deliveredTo_eq_nil hnone]
    exact hasFiles_nil hidle hnone
  by_cases hchunk : ∃ chunk, Brings (event.parsed parse) chunk
  · obtain ⟨chunk, hb⟩ := hchunk
    cases event with
    | disconnect socket' => exact absurd (Option.some_ne_none _ hb.type.symm) id
    | request requester env line =>
        by_cases hhands : HandsOverTo w env chunk socket
        · obtain ⟨hdelivered, hfiles⟩ := @hasFiles_of_handsOverTo _ _ locate system
            _ _ _ _ _ _ hb hhands (hsends chunk hb hhands) requester _ hidle
          rw [hdelivered]
          exact hfiles
        · obtain ⟨back, hframes, hback⟩ :=
            @framesTo_step parse socket env w line chunk hb requester
          refine hordinary ?_
          have hbegin : ¬ HandsOverTo w.beginRequest env chunk socket := fun h =>
            hhands ⟨h.isLast, (Server.accepts_beginRequest chunk).mp h.accepts, h.notifies⟩
          rw [hframes, framesTo_handleChunk_of_not_handsOverTo rfl hbegin]
          exact hback
  · refine hordinary fun frame hmem => ?_
    exact ((Server.ordinary_step (not_exists.mp hchunk)).mem_framesTo hmem).2

/-- All frames of a run for a client. -/
def framesOf (socket : Socket) (history : History) : List Json.Members :=
  history.flatMap fun entry => entry.2.framesTo socket

/-- All files that are handed over to it. -/
def filesOf (socket : Socket) (history : History) : List (String × Bytes) :=
  history.flatMap fun entry => deliveredTo socket entry.2

/-- In every run in which each file that is handed over to a client is sent as a whole, the client
ends up with exactly these files on its disk: each as the file server had it when it was handed
over, one after the other, and no file is left open. -/
theorem deliveries_received {w₀ : World} {history : History} {w : World}
    (hrun : Run (World.step parse) (SendsWholeFiles parse socket) w₀ history w) {r : Receiver L}
    (hidle : r.Idle) :
    HasFiles locate r (filesOf socket history)
      (((framesOf socket history).map Json.object).foldl (Receiver.handle locate system) r) := by
  refine hrun.invariant (I := fun history _ => HasFiles locate r (filesOf socket history)
    (((framesOf socket history).map Json.object).foldl (Receiver.handle locate system) r)) ?_ ?_
  · exact hasFiles_nil hidle nofun
  · intro history w event h hsends
    unfold filesOf framesOf at h ⊢
    rw [List.flatMap_append, List.flatMap_append, List.flatMap_singleton, List.flatMap_singleton,
      List.map_append, List.foldl_append]
    exact h.append (hasFiles_step hsends h.idle)

/-! ### From disk to disk -/

end Runs

/-! ### A file of two chunks -/

/-- The chunks of the file that user 7 sends to user 1. -/
def openingChunk : Json.Members := Server.fileChunk "0123456789abcdef" "d" 1 false

def secondChunk : Json.Members := Server.fileChunk "0123456789abcdef" "e" 2 true

/-- The file server returns both chunks. -/
def returningTwo : Environment :=
  { Server.twoUsers with downloadFileChunks := fun _ => [bytesOf "d", bytesOf "e"] }

def twoChunkEvents : List Event := [openingChunk, secondChunk].map fun request =>
  .request 2 returningTwo (Server.lineOf request)

def parseTwoChunks : JsonParser := Server.parseLines [openingChunk, secondChunk]

theorem locateIn_pathOf :
    Client.locateIn [] (Client.idleReceiver.client.pathOf "0123456789abcdef") =
      some [bytesOf "user_files", bytesOf "0123456789abcdef"] := by decide +kernel

set_option maxRecDepth 2000 in
/-- The receiver is connected, and has the file then. -/
theorem deliveries_received_two :
    let history := Run.historyOf (World.step parseTwoChunks) Server.announcedForA twoChunkEvents
    let r := ((framesOf 1 history).map Json.object).foldl
      (Receiver.handle (Client.locateIn []) Client.anySystem) Client.idleReceiver
    HasFiles (Client.locateIn []) Client.idleReceiver [("0123456789abcdef", bytesOf "de")] r ∧
      r.disk.content [bytesOf "user_files", bytesOf "0123456789abcdef"] = some (bytesOf "de") := by
  intro history r
  have hfirst : SendsWholeFiles parseTwoChunks 1 Server.announcedForA
      (.request 2 returningTwo (Server.lineOf openingChunk)) := by
    intro chunk hb hhands
    have hchunk : Brings (parseTwoChunks.value (Server.lineOf openingChunk))
        ⟨"0123456789abcdef", "d", 1, false⟩ := ⟨rfl, rfl, rfl, rfl, rfl⟩
    obtain rfl := hchunk.unique hb
    cases hhands.isLast
  have hsecond : SendsWholeFiles parseTwoChunks 1 (Server.announcedForA.step parseTwoChunks
      (.request 2 returningTwo (Server.lineOf openingChunk)))
      (.request 2 returningTwo (Server.lineOf secondChunk)) := by
    intro chunk hb _
    have hchunk : Brings (parseTwoChunks.value (Server.lineOf secondChunk))
        ⟨"0123456789abcdef", "e", 2, true⟩ := ⟨rfl, rfl, rfl, rfl, rfl⟩
    obtain rfl := hchunk.unique hb
    refine ⟨List.cons_ne_nil _ _, by decide +kernel, fun data hdata => ?_, fun _ _ => rfl⟩
    rcases List.mem_pair.mp hdata with rfl | rfl
    · exact validUtf8_bytesOf _
    · exact validUtf8_bytesOf _
  have hallowed : Run.Allowed (World.step parseTwoChunks) (SendsWholeFiles parseTwoChunks 1)
      Server.announcedForA twoChunkEvents := ⟨hfirst, hsecond, trivial⟩
  have hfiles : HasFiles (Client.locateIn []) Client.idleReceiver (filesOf 1 history) r :=
    deliveries_received (Run.run_historyOf hallowed) Client.idleReceiver_idle
  rw [show filesOf 1 history = [("0123456789abcdef", bytesOf "de")] by decide +kernel] at hfiles
  refine ⟨hfiles, ?_⟩
  exact hfiles.content_of_singleton locateIn_pathOf

/-! ### A file of three chunks -/

end Silence.System
