import Silence.Server.RequestErrors
import Silence.Server.Sessions
import Silence.Server.Transfers

/-!
# Silence.Server.PendingDelivery

Whether completed files reach receivers that are connected.

`handle_file_chunk` hands a completed file over to the receiver of the first pending
transfer of its name, if that one is connected. A transfer that is left pending is
never looked at again but by another chunk of its file: `handle_authorize` does not
know of the pending transfers. The server keeps one upload state for each name and
resets it when the name is announced again, so what has been completed is tracked
beside it, for each transfer (`Deliveries`). `settled_exact` says for every event
whether it leaves a completed transfer behind with a connected receiver.
-/

namespace Silence.Server

open Silence.Lib Silence.Lib.Effect
open Json.Members (ofList)

/-! ### Completed transfers -/

/-- A pending transfer, with whether the upload of its file has been completed at some time since it
was announced. -/
structure TrackedTransfer where
  transfer : PendingFileTransfer
  completed : Bool
  deriving DecidableEq, Repr

/-- The upload counts as completed from the first state on that has it so. -/
def TrackedTransfer.latch (w : World) (t : TrackedTransfer) : TrackedTransfer :=
  { t with completed := t.completed || (w.uploadState t.transfer.filename).completed }

/-- The server and its pending transfers. -/
structure Deliveries where
  world : World
  transfers : List TrackedTransfer

def Deliveries.start (fileServer : FileServer.State) : Deliveries := ⟨.start fileServer, []⟩

/-- The transfers that an event leaves pending: where one is handed over, it is the first one of the
file of the request, and an announced one comes behind the others. -/
def retrack (request : Json) (transfers : List TrackedTransfer)
    (pending : List PendingFileTransfer) : List TrackedTransfer :=
  let kept :=
    if pending.length < transfers.length then
      transfers.eraseP fun t => request.readString "filename" = .ok t.transfer.filename
    else transfers
  kept ++ (pending.drop kept.length).map (⟨·, false⟩)

def Deliveries.step (parse : JsonParser) (d : Deliveries) (event : Event) : Deliveries :=
  let w := d.world.step parse event
  { world := w
    transfers := (retrack (event.parsed parse) d.transfers w.pendingFileTransfers).map
      (·.latch w) }

/-- No pending transfer whose upload has been completed has a connected receiver. -/
def Deliveries.Settled (d : Deliveries) : Prop :=
  ∀ t ∈ d.transfers, t.completed = true →
    d.world.connectedClients.getClientSocket t.transfer.receiverId = none

/-- The chunk is accepted. -/
structure World.Accepts (w : World) (env : Environment) (chunk : Chunk) : Prop where
  inOrder : chunk.chunkNumber = (w.uploadState chunk.filename).lastChunkReceived + 1
  uploaded : (w.upload env chunk.filename chunk.chunkData).1 = true

/-- Of the pending transfers of the file only the first one may have a connected receiver, and the
notification of this receiver succeeds. -/
structure World.OnlyFirst (w : World) (env : Environment) (filename : String) : Prop where
  notified : ∀ transfer, w.pendingFileTransfers.find? (·.filename = filename) = some transfer →
    (w.connectedClients.getClientSocket transfer.receiverId).isSome → env.writeOk 0 = true
  others : ∀ transfer ∈ w.pendingFileTransfers.eraseP (·.filename = filename),
    transfer.filename = filename → w.connectedClients.getClientSocket transfer.receiverId = none

/-- The condition: no user with a completed transfer logs in, and a file is only completed for one
connected receiver. -/
def Deliveries.Prompt (parse : JsonParser) (d : Deliveries) : Event → Prop
  | .request _ env line =>
      (∀ userId, loginOf env (parse.value line) = some userId →
        ∀ t ∈ d.transfers, t.transfer.receiverId = userId → t.completed = false) ∧
      ∀ chunk, Brings (parse.value line) chunk → chunk.isLast = true →
        d.world.Accepts env chunk → d.world.OnlyFirst env chunk.filename
  | .disconnect _ => True

/-! ### The state of an upload -/

theorem uploadState_setUpload (w : World) (filename name : String) (uploadState : UploadState) :
    (w.setUpload filename uploadState).uploadState name =
      if name = filename then uploadState else w.uploadState name := by
  simp only [World.uploadState, World.setUpload, OrdMap.find?_insert]
  split <;> rfl

theorem uploadState_openUpload' (w : World) (filename name : String) :
    (w.openUpload filename).uploadState name = w.uploadState name := by
  by_cases hname : name = filename
  · rw [hname, uploadState_openUpload]
  · rw [World.openUpload]
    split
    · rfl
    · rw [uploadState_setUpload, if_neg hname]

/-- Only an accepted chunk changes the state of an upload, and only that of its file. -/
theorem uploadState_takeChunk (w : World) (env : Environment) (chunk : Chunk) (name : String) :
    (¬ w.Accepts env chunk ∧ (w.takeChunk env chunk).uploadState name = w.uploadState name) ∨
    (w.Accepts env chunk ∧ (w.takeChunk env chunk).uploadState name =
      if name = chunk.filename then
        ⟨chunk.chunkNumber, (w.uploadState chunk.filename).completed || chunk.isLast⟩
      else w.uploadState name) := by
  rcases takeChunk_cases w env chunk with ⟨hne, heq⟩ | ⟨horder, success, fileServer, hup, heq⟩
  · exact .inl ⟨fun h => hne h.inOrder, by rw [heq, uploadState_openUpload']⟩
  · cases success with
    | false =>
        refine .inl ⟨fun h => ?_, ?_⟩
        · have := h.uploaded
          rw [hup] at this
          cases this
        · rw [heq]
          exact uploadState_openUpload' w _ name
    | true =>
        refine .inr ⟨⟨horder, by rw [hup]⟩, ?_⟩
        rw [heq, if_pos rfl, World.accept, uploadState_setUpload]
        split
        · rfl
        · exact uploadState_openUpload' w _ name

theorem takeChunk_writes (w : World) (env : Environment) (chunk : Chunk) :
    (w.takeChunk env chunk).writes = w.writes := by
  have hopen : (w.openUpload chunk.filename).writes = w.writes := by
    rw [World.openUpload]
    split <;> rfl
  rcases takeChunk_cases w env chunk with ⟨-, heq⟩ | ⟨-, success, fileServer, -, heq⟩
  · rw [heq, hopen]
  · rw [heq]
    cases success <;> exact hopen

/-! ### Handing a file over -/

/-- The clients, the pending transfers and the uploads are those of `w`. -/
structure World.SameTransfers (w w' : World) : Prop where
  connectedClients : w'.connectedClients = w.connectedClients
  pendingFileTransfers : w'.pendingFileTransfers = w.pendingFileTransfers
  fileUploads : w'.fileUploads = w.fileUploads

theorem World.SameTransfers.recordWrite {w w' : World} (h : w.SameTransfers w') (o : Observation) :
    w.SameTransfers (w'.recordWrite o) := { h with }

/-- Sending the chunks does nothing but write frames. -/
theorem preserves_sendChunks_of_recordWrite {I : World → Prop}
    (h : ∀ w o, I w → I (w.recordWrite o)) (env : Environment) (clientSocket : Socket)
    (userId : Int) (filename : String) (i : Nat) (chunks : List Bytes) :
    Preserves I (sendChunks env clientSocket userId filename i chunks) := by
  induction chunks generalizing i with
  | nil => exact preserves_pure _
  | cons chunk chunks ih =>
      refine preserves_bind ?_ fun goOn => ?_
      · refine preserves_catchException ?_ (preserves_pure _)
        exact preserves_attempt_bind fun text _ => preserves_bind
          (triple_write (fun w hw _ => h w _ hw) fun w hw _ => h w _ hw) fun _ => preserves_pure _
      · cases goOn with
        | true => exact ih (i + 1)
        | false => exact preserves_pure _

/-- The pending transfers after a file is completed: the first one of its name is erased if its
receiver is connected and can be notified. -/
def World.pendingAfter (w : World) (env : Environment) (filename : String) :
    List PendingFileTransfer :=
  match w.pendingFileTransfers.find? (·.filename = filename) with
  | none => w.pendingFileTransfers
  | some transfer =>
      if (w.connectedClients.getClientSocket transfer.receiverId).isSome ∧
          env.writeOk w.writes = true then
        w.pendingFileTransfers.eraseP (·.filename = filename)
      else w.pendingFileTransfers

/-- The notification of a file. -/
def fileNotification (transfer : PendingFileTransfer) : Json.Members :=
  ofList [("type", .string "incoming_file"), ("filename", .string transfer.filename),
    ("sender_id", .number transfer.senderId)]

/-- The state behind the notification, if that succeeds. -/
def World.notify (w : World) (receiverSocket : Socket) (transfer : PendingFileTransfer) : World :=
  w.recordWrite (.wrote receiverSocket (some transfer.receiverId) (fileNotification transfer) true)

/-- The receiver is connected and can be notified, the notification fails, or there is nobody to
notify. Behind the notification the transfer is removed, whatever becomes of the chunks. -/
theorem completeTransfer_cases (env : Environment) (filename : String) (w : World) :
    let w' := (exec (completeTransfer env filename) w).2
    (∃ transfer receiverSocket,
      w.pendingFileTransfers.find? (·.filename = filename) = some transfer ∧
      w.connectedClients.getClientSocket transfer.receiverId = some receiverSocket ∧
      ((env.writeOk w.writes = true ∧
          w' = (exec (sendChunks env receiverSocket transfer.receiverId filename 0
            (env.downloadFileChunks filename)) (w.notify receiverSocket transfer)).2.eraseTransfer
              filename) ∨
        (env.writeOk w.writes = false ∧
          w' = w.recordWrite (.wrote receiverSocket (some transfer.receiverId)
            (fileNotification transfer) false)))) ∨
    ((∀ transfer, w.pendingFileTransfers.find? (·.filename = filename) = some transfer →
      w.connectedClients.getClientSocket transfer.receiverId = none) ∧ w' = w) := by
  intro w'
  have hrun : w' = (exec (completeTransfer env filename) w).2 := rfl
  unfold completeTransfer at hrun
  rw [exec_bind, exec_get] at hrun
  dsimp only at hrun
  cases hfind : w.pendingFileTransfers.find? (·.filename = filename) with
  | none =>
      rw [hfind] at hrun
      exact .inr ⟨nofun, hrun⟩
  | some transfer =>
      have hname : transfer.filename = filename := by simpa using List.find?_some hfind
      rw [hfind] at hrun
      dsimp only at hrun
      cases hsocket : w.connectedClients.getClientSocket transfer.receiverId with
      | none =>
          rw [hsocket] at hrun
          refine .inr ⟨?_, hrun⟩
          intro transfer' htransfer
          rw [← Option.some.inj htransfer, hsocket]
      | some receiverSocket =>
          refine .inl ⟨transfer, receiverSocket, rfl, hsocket, ?_⟩
          rw [hsocket] at hrun
          dsimp only at hrun
          unfold catchException at hrun
          rw [exec_tryCatch, exec_bind, exec_write] at hrun
          unfold World.notify fileNotification
          rw [hname]
          cases hok : env.writeOk w.writes with
          | false =>
              rw [hok] at hrun
              exact .inr ⟨rfl, hrun⟩
          | true =>
              refine .inl ⟨rfl, ?_⟩
              rw [hok, if_pos rfl] at hrun
              dsimp only at hrun
              unfold sendFileToClient at hrun
              rw [exec_bind] at hrun
              -- sending the chunks does not throw
              obtain ⟨⟨⟩, hreturns⟩ := returns_of_throws (throws_sendChunks env receiverSocket
                transfer.receiverId filename 0 (env.downloadFileChunks filename))
                (w.recordWrite (.wrote receiverSocket (some transfer.receiverId) (ofList [
                  ("type", .string "incoming_file"), ("filename", .string filename),
                  ("sender_id", .number transfer.senderId)]) true))
              revert hrun hreturns
              rcases exec (sendChunks env receiverSocket transfer.receiverId filename 0
                (env.downloadFileChunks filename)) (w.recordWrite _) with ⟨_, w₁⟩
              intro hrun hreturns
              dsimp only at hreturns
              rw [hreturns] at hrun
              exact hrun

theorem exec_completeTransfer_of_notified {env : Environment} {filename : String} {w : World}
    {transfer : PendingFileTransfer} {receiverSocket : Socket}
    (hfind : w.pendingFileTransfers.find? (·.filename = filename) = some transfer)
    (hsocket : w.connectedClients.getClientSocket transfer.receiverId = some receiverSocket)
    (hok : env.writeOk w.writes = true) :
    (exec (completeTransfer env filename) w).2 =
      (exec (sendChunks env receiverSocket transfer.receiverId filename 0
        (env.downloadFileChunks filename)) (w.notify receiverSocket transfer)).2.eraseTransfer
          filename := by
  rcases completeTransfer_cases env filename w with
    ⟨transfer', receiverSocket', hfind', hsocket', ⟨-, hrun⟩ | ⟨hfail, -⟩⟩ | ⟨hoffline, -⟩
  · obtain rfl : transfer = transfer' := Option.some.inj (hfind.symm.trans hfind')
    obtain rfl : receiverSocket = receiverSocket' := Option.some.inj (hsocket.symm.trans hsocket')
    exact hrun
  · exact absurd (hfail.symm.trans hok) Bool.false_ne_true
  · rw [hoffline transfer hfind] at hsocket
    cases hsocket

theorem exec_completeTransfer_pending (env : Environment) (filename : String) (w : World) :
    let w' := (exec (completeTransfer env filename) w).2
    w'.connectedClients = w.connectedClients ∧ w'.fileUploads = w.fileUploads ∧
      w'.pendingFileTransfers = w.pendingAfter env filename := by
  intro w'
  have hsame : w.SameTransfers w := ⟨rfl, rfl, rfl⟩
  rcases completeTransfer_cases env filename w with
    ⟨transfer, receiverSocket, hfind, hsocket, ⟨hok, hrun⟩ | ⟨hfail, hrun⟩⟩ | ⟨hoffline, hrun⟩
  · have hsent := (preserves_sendChunks_of_recordWrite (I := w.SameTransfers)
      (fun _ o h => h.recordWrite o) env receiverSocket transfer.receiverId filename 0
      (env.downloadFileChunks filename)).exec_snd (s := w.notify receiverSocket transfer)
        (hsame.recordWrite _)
    rw [show w' = _ from hrun]
    refine ⟨hsent.connectedClients, hsent.fileUploads, ?_⟩
    simp [World.pendingAfter, hfind, hsocket, hok, World.eraseTransfer,
      hsent.pendingFileTransfers]
  · rw [show w' = _ from hrun]
    refine ⟨rfl, rfl, ?_⟩
    simp [World.pendingAfter, hfind, hfail, World.recordWrite, World.observe]
  · rw [show w' = _ from hrun]
    refine ⟨rfl, rfl, ?_⟩
    unfold World.pendingAfter
    split
    · rfl
    · rename_i transfer hfind
      rw [hoffline transfer hfind]
      exact (if_neg (by simp)).symm

/-! ### Taking a chunk -/

section

variable {env : Environment}

theorem exec_acknowledge (socket : Socket) (response : Json.Members) (w : World) :
    exec (acknowledge env socket response) w =
      (.ok (), w.recordWrite (.wrote socket none response (env.writeOk w.writes))) := by
  unfold acknowledge catchException
  rw [exec_tryCatch, exec_write]
  cases env.writeOk w.writes <;> rfl

theorem exec_uploadFileChunk (filename chunkData : String) (w : World) :
    exec (uploadFileChunk env filename chunkData) w =
      (.ok (w.upload env filename chunkData).1,
        { w with fileServer := (w.upload env filename chunkData).2 }) := rfl

theorem exec_completeTransfer_fst (filename : String) (w : World) :
    (exec (completeTransfer env filename) w).1 = .ok () := by
  obtain ⟨⟨⟩, h⟩ := returns_of_throws (throws_completeTransfer env filename) w
  exact h

/-- Before the answer, only an accepted chunk that is marked as the last one goes beyond
`takeChunk`. -/
theorem processChunk_cases (socket : Socket) (chunk : Chunk) (w : World) :
    ∃ w' response ok, (exec (processChunk env socket chunk.filename chunk.chunkData
        chunk.chunkNumber chunk.isLast) w).2 = w'.recordWrite (.wrote socket none response ok) ∧
      ((¬ (chunk.isLast = true ∧ w.Accepts env chunk) ∧ w' = w.takeChunk env chunk) ∨
        (chunk.isLast = true ∧ w.Accepts env chunk ∧
          w' = (exec (completeTransfer env chunk.filename) (w.takeChunk env chunk)).2)) := by
  have hupload : (w.openUpload chunk.filename).upload env chunk.filename chunk.chunkData =
      w.upload env chunk.filename chunk.chunkData := by
    unfold World.upload
    rw [openUpload_fileServer]
  unfold processChunk
  simp only [exec_bind, exec_modify, exec_get]
  rw [uploadState_openUpload]
  rcases takeChunk_cases w env chunk with
    ⟨horder, htake⟩ | ⟨horder, success, fileServer, hup, htake⟩
  · rw [if_pos horder, exec_acknowledge]
    exact ⟨_, _, _, rfl, .inl ⟨fun h => horder h.2.inOrder, htake.symm⟩⟩
  · rw [if_neg (not_not_intro horder), exec_bind, exec_uploadFileChunk, hupload, hup]
    cases success with
    | false =>
        rw [if_neg Bool.false_ne_true] at htake
        dsimp only
        rw [if_neg Bool.false_ne_true, exec_acknowledge]
        refine ⟨_, _, _, rfl, .inl ⟨fun h => ?_, htake.symm⟩⟩
        have hsuccess := h.2.uploaded
        rw [hup] at hsuccess
        cases hsuccess
    | true =>
        have haccepts : w.Accepts env chunk := ⟨horder, by rw [hup]⟩
        rw [if_pos rfl] at htake
        dsimp only
        rw [if_pos rfl, exec_bind, exec_modify]
        dsimp only
        rw [← htake]
        cases hlast : chunk.isLast with
        | false =>
            rw [if_neg Bool.false_ne_true, exec_acknowledge]
            refine ⟨_, _, _, rfl, .inl ⟨fun h => ?_, rfl⟩⟩
            cases h.1
        | true =>
            rw [if_pos rfl, exec_bind]
            have hfst := @exec_completeTransfer_fst env chunk.filename (w.takeChunk env chunk)
            rcases hrun : exec (completeTransfer env chunk.filename) (w.takeChunk env chunk) with
              ⟨_, w'⟩
            rw [hrun] at hfst
            obtain rfl := hfst
            dsimp only
            rw [exec_acknowledge]
            exact ⟨w', _, _, rfl, .inr ⟨rfl, haccepts, rfl⟩⟩

end

/-! ### A chunk that completes a file -/

/-- The state after the last chunk of a file, as far as the transfers are concerned. -/
structure World.Completed (w : World) (env : Environment) (chunk : Chunk) (w' : World) :
    Prop where
  connectedClients : w'.connectedClients = w.connectedClients
  fileUploads : w'.fileUploads = (w.takeChunk env chunk).fileUploads
  pendingFileTransfers : w'.pendingFileTransfers = w.pendingAfter env chunk.filename

theorem World.Completed.recordWrite {w w' : World} {env : Environment} {chunk : Chunk}
    (h : w.Completed env chunk w') (o : Observation) : w.Completed env chunk (w'.recordWrite o) :=
  { h with }

theorem pendingAfter_takeChunk (w : World) (env : Environment) (chunk : Chunk) (filename : String) :
    (w.takeChunk env chunk).pendingAfter env filename = w.pendingAfter env filename := by
  simp only [World.pendingAfter, takeChunk_pendingFileTransfers, takeChunk_connectedClients,
    takeChunk_writes]

theorem completed_processChunk {env : Environment} {socket : Socket} {chunk : Chunk} {w : World}
    (hlast : chunk.isLast = true) (haccepts : w.Accepts env chunk) :
    w.Completed env chunk (exec (processChunk env socket chunk.filename chunk.chunkData
      chunk.chunkNumber chunk.isLast) w).2 := by
  obtain ⟨w', response, ok, hrun, ⟨hnot, -⟩ | ⟨-, -, rfl⟩⟩ := @processChunk_cases env socket chunk w
  · exact absurd ⟨hlast, haccepts⟩ hnot
  · rw [hrun]
    obtain ⟨hclients, huploads, hpending⟩ :=
      exec_completeTransfer_pending env chunk.filename (w.takeChunk env chunk)
    refine World.Completed.recordWrite ⟨?_, huploads, ?_⟩ _
    · rw [hclients, takeChunk_connectedClients]
    · rw [hpending, pendingAfter_takeChunk]

/-! ### Steps of the server -/

section Steps

variable {parse : JsonParser} {w w' : World} {env : Environment}

/-- An accepted last chunk completes the upload of its file and no other one. -/
theorem completed_uploadState {chunk : Chunk} (haccepts : w.Accepts env chunk)
    (hlast : chunk.isLast = true) (hw' : w.Completed env chunk w') (name : String) :
    (w'.uploadState name).completed =
      if name = chunk.filename then true else (w.uploadState name).completed := by
  have hsame : w'.uploadState name = (w.takeChunk env chunk).uploadState name := by
    rw [World.uploadState, World.uploadState, hw'.fileUploads]
  rcases uploadState_takeChunk w env chunk name with ⟨hnot, -⟩ | ⟨-, heq⟩
  · exact absurd haccepts hnot
  · rw [hsame, heq]
    split
    · rw [hlast, Bool.or_true]
    · rfl

/-- They have no connected receiver exactly if only the first one may have one. -/
theorem offline_iff_onlyFirst (filename : String) (hwrites : w.writes = 0) :
    (∀ transfer ∈ w.pendingAfter env filename, transfer.filename = filename →
      w.connectedClients.getClientSocket transfer.receiverId = none) ↔
        w.OnlyFirst env filename := by
  rw [World.pendingAfter, hwrites]
  cases hfind : w.pendingFileTransfers.find? (·.filename = filename) with
  | none =>
      have hnone : ∀ transfer ∈ w.pendingFileTransfers, transfer.filename ≠ filename := by
        simpa using List.find?_eq_none.mp hfind
      refine iff_of_true (fun transfer hmem hname => absurd hname (hnone transfer hmem)) ?_
      refine ⟨fun transfer hfirst => ?_,
        fun transfer hmem hname => absurd hname (hnone transfer (List.mem_of_mem_eraseP hmem))⟩
      rw [hfind] at hfirst
      cases hfirst
  | some first =>
      have hname : first.filename = filename := by simpa using List.find?_some hfind
      have hfirst : first ∈ w.pendingFileTransfers := List.mem_of_find?_eq_some hfind
      dsimp only
      split
      · rename_i hhanded
        constructor
        · exact fun hall => ⟨fun _ _ _ => hhanded.2, hall⟩
        · exact fun honly => honly.others
      · rename_i hkept
        constructor
        · intro hall
          have hoffline := hall first hfirst hname
          refine ⟨fun transfer hfirst' hconnected => ?_,
            fun transfer hmem => hall transfer (List.mem_of_mem_eraseP hmem)⟩
          rw [hfind, Option.some.injEq] at hfirst'
          subst hfirst'
          rw [hoffline] at hconnected
          cases hconnected
        · intro honly transfer hmem htransfer
          have hoffline : w.connectedClients.getClientSocket first.receiverId = none := by
            by_contra hconnected
            have hsome := Option.isSome_iff_ne_none.mpr hconnected
            exact hkept ⟨hsome, honly.notified first hfind hsome⟩
          by_cases hfirst' : transfer = first
          · rw [hfirst', hoffline]
          · refine honly.others transfer ?_ htransfer
            rw [eraseP_eq_erase hfind]
            exact (List.mem_erase_of_ne hfirst').mpr hmem

/-- A request with a chunk is handled by `processChunk`. -/
theorem step_of_brings {line : Bytes} {chunk : Chunk} (hb : Brings (parse.value line) chunk)
    (socket : Socket) :
    w.step parse (.request socket env line) = (exec (processChunk env socket chunk.filename
      chunk.chunkData chunk.chunkNumber chunk.isLast) w.beginRequest).2 := by
  obtain ⟨htype, hfilename, hdata, hnumber, hisLast⟩ := hb
  cases hparse : parse line with
  | error failure =>
      rw [JsonParser.value_of_error hparse] at htype
      cases htype
  | ok request =>
      rw [JsonParser.value_of_ok hparse] at htype hfilename hdata hnumber hisLast
      have hdispatch : dispatch env socket request = handleFileChunk env socket request := by
        rw [dispatch, htype]
        rfl
      rw [step_request_of_parse hparse, hdispatch, handleFileChunk, hfilename, hdata, hnumber,
        hisLast]
      simp only [exec_bind, exec_attempt]

/-- The state after the request with the last chunk of a file, if it is accepted. -/
theorem completed_step {line : Bytes} {chunk : Chunk} {socket : Socket}
    (hb : Brings (parse.value line) chunk) (hlast : chunk.isLast = true)
    (haccepts : w.beginRequest.Accepts env chunk) :
    w.beginRequest.Completed env chunk (w.step parse (.request socket env line)) := by
  rw [step_of_brings hb socket]
  exact completed_processChunk hlast haccepts

theorem not_brings_of_login {request : Json} {userId : Int}
    (hlogin : loginOf env request = some userId) (chunk : Chunk) : ¬ Brings request chunk := by
  intro hb
  have htype := (loginOf_eq_some_iff.mp hlogin).1
  exact absurd (Option.some.inj (htype.symm.trans hb.type)) (by simp)

theorem Brings.unique {request : Json} {chunk chunk' : Chunk} (hb : Brings request chunk)
    (hb' : Brings request chunk') : chunk = chunk' := by
  cases chunk
  cases chunk'
  rw [Chunk.mk.injEq]
  exact ⟨Except.ok.inj (hb.filename.symm.trans hb'.filename),
    Except.ok.inj (hb.chunkData.symm.trans hb'.chunkData),
    Except.ok.inj (hb.chunkNumber.symm.trans hb'.chunkNumber),
    Except.ok.inj (hb.isLast.symm.trans hb'.isLast)⟩

/-- The beginning of a request does not count. -/
theorem accepts_beginRequest (chunk : Chunk) :
    w.beginRequest.Accepts env chunk ↔ w.Accepts env chunk :=
  ⟨fun h => ⟨h.inOrder, h.uploaded⟩, fun h => ⟨h.inOrder, h.uploaded⟩⟩

theorem onlyFirst_beginRequest (filename : String) :
    w.beginRequest.OnlyFirst env filename ↔ w.OnlyFirst env filename :=
  ⟨fun h => ⟨h.notified, h.others⟩, fun h => ⟨h.notified, h.others⟩⟩

/-- A step that connects nobody and completes no upload; what it announces starts again. -/
structure World.Calm (w w' : World) : Prop where
  offline : ∀ userId, w.connectedClients.getClientSocket userId = none →
    w'.connectedClients.getClientSocket userId = none
  completed : ∀ name, (w'.uploadState name).completed = true →
    (w.uploadState name).completed = true
  announced : ∀ transfer, .announced transfer ∈ w'.log →
    (w'.uploadState transfer.filename).completed = false

theorem calm_of_grows {socket : Socket} {request : Json}
    (h : w.Grows env socket request w') : w.Calm w' where
  offline userId hnone := by rwa [h.connectedClients]
  completed name hcompleted := by
    rwa [World.uploadState, h.fileUploads] at hcompleted
  announced transfer hmem := (h.log _ hmem).elim

/-- What is announced starts again. -/
theorem calm_announce {socket : Socket} {request : Json} (hw : w.Grows env socket request w')
    (transfer : PendingFileTransfer) : w.Calm (w'.announce transfer) := by
  have hstate : ∀ name, (w'.announce transfer).uploadState name =
      if name = transfer.filename then ⟨0, false⟩ else w'.uploadState name :=
    fun name => uploadState_setUpload (w'.observe (.announced transfer)) _ name _
  refine ⟨(calm_of_grows hw).offline, fun name hcompleted => ?_, fun transfer' hmem => ?_⟩
  · rw [hstate] at hcompleted
    split at hcompleted
    · cases hcompleted
    · exact (calm_of_grows hw).completed name hcompleted
  · have hlog : (w'.announce transfer).log = w'.log ++ [.announced transfer] := rfl
    rw [hlog] at hmem
    rcases List.mem_append.mp hmem with hold | hnew
    · exact (hw.log _ hold).elim
    · obtain rfl := Observation.announced.inj (List.mem_singleton.mp hnew)
      rw [hstate, if_pos rfl]

/-- A chunk completes a file only if it is the last one and is accepted. -/
theorem calm_takeChunk {socket : Socket} {request : Json} (hw : w.Grows env socket request w')
    {chunk : Chunk} (hchunk : ¬ (chunk.isLast = true ∧ w.Accepts env chunk)) :
    w.Calm (w'.takeChunk env chunk) := by
  have hkept := (calm_of_grows hw).completed
  have hstate : ∀ name, w'.uploadState name = w.uploadState name := fun name => by
    rw [World.uploadState, World.uploadState, hw.fileUploads]
  refine ⟨fun userId hnone => ?_, fun name hcompleted => ?_, fun transfer hmem => ?_⟩
  · rwa [takeChunk_connectedClients, hw.connectedClients]
  · rcases uploadState_takeChunk w' env chunk name with ⟨-, heq⟩ | ⟨haccepts, heq⟩
    · rw [heq] at hcompleted
      exact hkept name hcompleted
    · have haccepts' : w.Accepts env chunk := by
        -- the handler only takes the chunk in a state that has the uploads of `w`
        refine ⟨by rw [haccepts.inOrder, hstate], ?_⟩
        have hup := haccepts.uploaded
        rw [World.upload, hw.fileServer] at hup
        rw [World.upload, hup]
      have hlast : chunk.isLast = false := by
        by_contra hlast
        exact hchunk ⟨by simpa using hlast, haccepts'⟩
      rw [heq, hlast, Bool.or_false] at hcompleted
      split at hcompleted
      · rename_i hname
        rw [hname]
        exact hkept _ hcompleted
      · exact hkept name hcompleted
  · have hnone : .announced transfer ∉ w'.log := fun hold => hw.log _ hold
    rcases takeChunk_log w' env chunk with hlog | hlog
    · exact absurd (hlog ▸ hmem) hnone
    · rw [hlog] at hmem
      simp [hnone] at hmem

/-- A request that neither logs in nor completes a file is calm. -/
theorem closed_calm {socket : Socket} {request : Json} (hlogin : loginOf env request = none)
    (hchunk : ∀ chunk, Brings request chunk → ¬ (chunk.isLast = true ∧ w.Accepts env chunk)) :
    Closed env w socket request w.Calm where
  unchanged := fun w₁ hw => calm_of_grows hw
  authorize := fun w₁ userId _ hmakes => by
    rw [loginOf_eq_some_iff.mpr hmakes] at hlogin
    cases hlogin
  announce := fun w₁ transfer hw _ => calm_announce hw transfer
  takeChunk := fun w₁ chunk hw hb => calm_takeChunk hw (hchunk chunk hb)
  recordWrite := fun w₁ o hmakes hw => by
    refine ⟨hw.offline, hw.completed, fun transfer hmem => hw.announced transfer ?_⟩
    rcases List.mem_append.mp hmem with hold | hnew
    · exact hold
    · rw [← List.mem_singleton.mp hnew] at hmakes
      exact hmakes.elim
  eraseTransfer := fun w₁ chunk _ _ hw => { hw with }

/-- The end of a connection connects nobody. -/
theorem calm_disconnect (w : World) (socket : Socket) : w.Calm (w.disconnect socket) where
  offline userId hnone := by
    have hclients : (w.disconnect socket).connectedClients.getClientSocket userId = _ :=
      getClientSocket_remove w.connectedClients socket userId
    rw [hclients, hnone]
    exact ite_self _
  completed _ h := h
  announced _ hmem := (List.not_mem_nil hmem).elim

end Steps

/-! ### Steps of the transfers -/

section Transfers

variable {parse : JsonParser} {transfers : List TrackedTransfer}
  {pending : List PendingFileTransfer} {request : Json}

theorem retrack_kept (h : transfers.map (·.transfer) = pending) :
    retrack request transfers pending = transfers := by
  have hlength : pending.length = transfers.length := by rw [← h, List.length_map]
  simp [retrack, hlength]

theorem retrack_announced (h : transfers.map (·.transfer) = pending)
    (transfer : PendingFileTransfer) :
    retrack request transfers (pending ++ [transfer]) = transfers ++ [⟨transfer, false⟩] := by
  have hlength : transfers.length = pending.length := by rw [← h, List.length_map]
  simp [retrack, hlength]

theorem retrack_erased (h : transfers.map (·.transfer) = pending) {filename : String}
    (hname : request.readString "filename" = .ok filename) :
    retrack request transfers (pending.eraseP (·.filename = filename)) =
      transfers.eraseP (·.transfer.filename = filename) := by
  have hpending : pending.eraseP (·.filename = filename) =
      (transfers.eraseP (·.transfer.filename = filename)).map (·.transfer) := by
    rw [← h, List.eraseP_map]
    rfl
  have hfirst : (transfers.eraseP fun t => request.readString "filename" =
      .ok t.transfer.filename) = transfers.eraseP (·.transfer.filename = filename) := by
    simp [hname, eq_comm]
  have hlength := congrArg List.length hpending
  rw [List.length_map] at hlength
  unfold retrack
  rw [hfirst, hlength]
  split
  · simp [hlength]
  · rename_i hmany
    -- there is no transfer of the file
    have hall : transfers.eraseP (·.transfer.filename = filename) = transfers :=
      (List.eraseP_sublist).eq_of_length_le (Nat.le_of_not_lt hmany)
    rw [hall] at hlength ⊢
    simp [hlength]

/-- The tracked transfers are the pending ones, and what the server has as completed is tracked as
completed. -/
structure Deliveries.Tracks (d : Deliveries) : Prop where
  same : d.transfers.map (·.transfer) = d.world.pendingFileTransfers
  flagged : ∀ t ∈ d.transfers, (d.world.uploadState t.transfer.filename).completed = true →
    t.completed = true

variable {d : Deliveries}

/-- What becomes of the tracked transfers. -/
theorem Deliveries.Tracks.retrack_cases (h : d.Tracks) (event : Event) :
    let w := d.world.step parse event
    let transfers := retrack (event.parsed parse) d.transfers w.pendingFileTransfers
    transfers.map (·.transfer) = w.pendingFileTransfers ∧
      (transfers ⊆ d.transfers ∨
        ∃ transfer, .announced transfer ∈ w.log ∧
          event.Announces parse d.world.connectedClients transfer ∧
          transfers = d.transfers ++ [⟨transfer, false⟩]) := by
  intro w transfers
  cases (transferred_step parse d.world event).change with
  | kept hlog hpending =>
      have hkept : transfers = d.transfers := by
        show retrack _ _ _ = _
        rw [hpending]
        exact retrack_kept h.same
      rw [hkept, hpending]
      exact ⟨h.same, .inl (List.Subset.refl _)⟩
  | announced transfer ha hlog hpending =>
      have happended : transfers = d.transfers ++ [⟨transfer, false⟩] := by
        show retrack _ _ _ = _
        rw [hpending]
        exact retrack_announced h.same transfer
      have hmem : transfer ∈ w.log.filterMap Observation.announcement := by simp [w, hlog]
      obtain ⟨o, ho, hannouncement⟩ := List.mem_filterMap.mp hmem
      refine ⟨?_, .inr ⟨transfer, ?_, ha, happended⟩⟩
      · rw [happended, hpending, List.map_append, h.same]
        rfl
      · cases o <;> cases hannouncement
        exact ho
  | erased chunk hb hlog hpending =>
      have herased : transfers = d.transfers.eraseP (·.transfer.filename = chunk.filename) := by
        show retrack _ _ _ = _
        rw [hpending]
        exact retrack_erased h.same hb.filename
      refine ⟨?_, .inl (herased ▸ List.eraseP_subset)⟩
      rw [herased, hpending]
      show _ = d.world.pendingFileTransfers.eraseP _
      rw [← h.same, List.eraseP_map]
      rfl

theorem Deliveries.Tracks.step (h : d.Tracks) (event : Event) : (d.step parse event).Tracks where
  same := by
    refine Eq.trans ?_ (@retrack_cases parse d h event).1
    show ((retrack _ _ _).map _).map _ = _
    rw [List.map_map]
    rfl
  flagged := by
    intro t ht hcompleted
    obtain ⟨t, -, rfl⟩ := List.mem_map.mp ht
    exact Bool.or_eq_true_iff.mpr (.inr hcompleted)

/-- A transfer counts as completed behind a step if it did before, or if the step completes its
upload. -/
theorem settled_step_iff (event : Event) :
    (d.step parse event).Settled ↔
      ∀ t ∈ retrack (event.parsed parse) d.transfers
          (d.world.step parse event).pendingFileTransfers,
        (t.completed = true ∨
          ((d.world.step parse event).uploadState t.transfer.filename).completed = true) →
        (d.world.step parse event).connectedClients.getClientSocket t.transfer.receiverId =
          none := by
  simp [Deliveries.Settled, Deliveries.step, TrackedTransfer.latch]

theorem settled_of_calm (h : d.Settled) (htracks : d.Tracks) {event : Event}
    (hcalm : d.world.Calm (d.world.step parse event)) : (d.step parse event).Settled := by
  have hold : ∀ t ∈ d.transfers, (t.completed = true ∨
      ((d.world.step parse event).uploadState t.transfer.filename).completed = true) →
      (d.world.step parse event).connectedClients.getClientSocket t.transfer.receiverId =
        none := by
    intro t ht hcompleted
    refine hcalm.offline _ (h t ht (hcompleted.elim id fun hflag => ?_))
    exact htracks.flagged t ht (hcalm.completed _ hflag)
  rw [settled_step_iff]
  intro t ht hcompleted
  rcases (@Deliveries.Tracks.retrack_cases parse d htracks event).2 with
    hsubset | ⟨transfer, hlog, -, happended⟩
  · exact hold t (hsubset ht) hcompleted
  · rw [happended] at ht
    rcases List.mem_append.mp ht with hmem | hnew
    · exact hold t hmem hcompleted
    · rw [List.mem_singleton.mp hnew, hcalm.announced transfer hlog] at hcompleted
      simp at hcompleted

/-- A login leaves a completed transfer behind exactly if there is one for its user. -/
theorem settled_login_iff (h : d.Settled) (htracks : d.Tracks) {env : Environment} {line : Bytes}
    {userId : Int} (hlogin : loginOf env (parse.value line) = some userId) (socket : Socket) :
    (d.step parse (.request socket env line)).Settled ↔
      ∀ t ∈ d.transfers, t.transfer.receiverId = userId → t.completed = false := by
  obtain ⟨o, hstep⟩ := step_login hlogin d.world socket
  have hpending : (d.world.step parse (.request socket env line)).pendingFileTransfers =
      d.world.pendingFileTransfers := by rw [hstep]; rfl
  have hstate : ∀ name, (d.world.step parse (.request socket env line)).uploadState name =
      d.world.uploadState name := fun _ => by rw [hstep]; rfl
  have hclient : ∀ user,
      (d.world.step parse (.request socket env line)).connectedClients.getClientSocket user =
        if user = userId then some socket
        else d.world.connectedClients.getClientSocket user := by
    intro user
    rw [hstep]
    exact OrdMap.find?_insert ..
  rw [settled_step_iff, hpending, retrack_kept htracks.same]
  constructor
  · intro hall t ht huser
    by_contra hcompleted
    have hnone := hall t ht (.inl (by simpa using hcompleted))
    rw [hclient, if_pos huser] at hnone
    cases hnone
  · intro hnone t ht hcompleted
    rw [hstate] at hcompleted
    have hold : t.completed = true := hcompleted.elim id (htracks.flagged t ht)
    rw [hclient]
    split
    · rename_i huser
      rw [hnone t ht huser] at hold
      cases hold
    · exact h t ht hold

/-- The last chunk of a file leaves no completed transfer behind exactly if only its first transfer
has a connected receiver, who can be notified. -/
theorem settled_completed_iff (h : d.Settled) (htracks : d.Tracks) {env : Environment}
    {line : Bytes} {chunk : Chunk} (hb : Brings (parse.value line) chunk)
    (hlast : chunk.isLast = true) (haccepts : d.world.Accepts env chunk) (socket : Socket) :
    (d.step parse (.request socket env line)).Settled ↔ d.world.OnlyFirst env chunk.filename := by
  have haccepts' := (accepts_beginRequest chunk).mpr haccepts
  have hw' := @completed_step parse _ _ _ _ socket hb hlast haccepts'
  have hstate := completed_uploadState haccepts' hlast hw'
  obtain ⟨hsame, hsubset | ⟨transfer, -, hannounces, -⟩⟩ :=
    @Deliveries.Tracks.retrack_cases parse d htracks (.request socket env line)
  · rw [← onlyFirst_beginRequest, ← offline_iff_onlyFirst chunk.filename rfl,
      ← hw'.pendingFileTransfers, ← hsame, settled_step_iff, hw'.connectedClients]
    constructor
    · intro hall transfer hmem hname
      obtain ⟨t, ht, rfl⟩ := List.mem_map.mp hmem
      exact hall t ht (.inr (by rw [hstate, if_pos hname]))
    · intro hall t ht hcompleted
      by_cases hname : t.transfer.filename = chunk.filename
      · exact hall t.transfer (List.mem_map_of_mem ht) hname
      · rw [hstate, if_neg hname] at hcompleted
        exact h t (hsubset ht) (hcompleted.elim id (htracks.flagged t (hsubset ht)))
  · exact (not_brings_of_announces hannounces hb).elim

/-- An event leaves no completed transfer behind exactly if it meets the condition. -/
theorem Deliveries.Settled.step_iff (h : d.Settled) (htracks : d.Tracks) (event : Event) :
    (d.step parse event).Settled ↔ d.Prompt parse event := by
  cases event with
  | disconnect socket =>
      exact iff_of_true (settled_of_calm h htracks (calm_disconnect d.world socket)) trivial
  | request socket env line =>
      cases hlogin : loginOf env (parse.value line) with
      | some userId =>
          rw [settled_login_iff h htracks hlogin, Deliveries.Prompt, hlogin]
          constructor
          · refine fun hnone => ⟨fun userId' huser => ?_, fun chunk hb => ?_⟩
            · rwa [← Option.some.inj huser]
            · exact (not_brings_of_login hlogin chunk hb).elim
          · exact fun hprompt => hprompt.1 userId rfl
      | none =>
          rw [Deliveries.Prompt, hlogin]
          by_cases hchunk : ∃ chunk, Brings (parse.value line) chunk ∧
            chunk.isLast = true ∧ d.world.Accepts env chunk
          · obtain ⟨chunk, hb, hlast, haccepts⟩ := hchunk
            rw [settled_completed_iff h htracks hb hlast haccepts]
            constructor
            · refine fun honly => ⟨nofun, fun chunk' hb' _ _ => ?_⟩
              rwa [← hb.unique hb']
            · exact fun hprompt => hprompt.2 chunk hb hlast haccepts
          · have hcalm : d.world.beginRequest.Calm
                (d.world.step parse (.request socket env line)) := by
              refine step_request (closed_calm hlogin fun chunk hb hlast => ?_)
              exact hchunk ⟨chunk, hb, hlast.1, (accepts_beginRequest chunk).mp hlast.2⟩
            refine iff_of_true (settled_of_calm h htracks { hcalm with }) ⟨nofun, ?_⟩
            intro chunk hb hlast haccepts
            exact (hchunk ⟨chunk, hb, hlast, haccepts⟩).elim

end Transfers

/-- In every run whose steps meet the condition there is no pending transfer with a completed upload
and a connected receiver, and any step after it keeps this so exactly if it meets the condition. The
tracked transfers are the pending ones. -/
theorem settled_exact {parse : JsonParser} {fileServer : FileServer.State}
    {history : List (Event × Deliveries)} {d : Deliveries}
    (hrun : Run (Deliveries.step parse) (Deliveries.Prompt parse) (.start fileServer) history d) :
    d.Tracks ∧ d.Settled ∧ ∀ event, (d.step parse event).Settled ↔ d.Prompt parse event := by
  obtain ⟨htracks, hsettled⟩ : d.Tracks ∧ d.Settled := by
    refine hrun.invariant (I := fun _ d => d.Tracks ∧ d.Settled) ?_ ?_
    · exact ⟨⟨rfl, fun _ hmem => (List.not_mem_nil hmem).elim⟩,
        fun _ hmem => (List.not_mem_nil hmem).elim⟩
    · exact fun _ d event h hprompt => ⟨h.1.step event, (h.2.step_iff h.1 event).mpr hprompt⟩
  exact ⟨htracks, hsettled, fun event => hsettled.step_iff htracks event⟩

/-! ### A receiver who logs in later -/

/-- The state behind some requests on socket 1. -/
def deliveriesAfter (requests : List Json.Members) : Deliveries :=
  (requests.map fun request => .request 1 twoUsers (lineOf request)).foldl
    (Deliveries.step parseTwoUsers) (.start .fresh)

/-- User 7 sends a file to user 1, who is offline, and then user 1 logs in. -/
def lateLogin : List Json.Members := [fileForA, lastChunk, loginRequest]

/-- In between, the name is announced to user 2. -/
def lateLoginAgain : List Json.Members := [fileForA, lastChunk, fileForB, loginRequest]

set_option maxRecDepth 2000 in
/-- The file is complete and its receiver is connected, but the transfer stays pending, also where
the state of the upload is reset before the login. -/
theorem settled_not_late :
    let forA : TrackedTransfer := ⟨⟨"0123456789abcdef", 7, 1⟩, true⟩
    let late := deliveriesAfter lateLogin
    let again := deliveriesAfter lateLoginAgain
    (forA ∈ late.transfers ∧ late.world.connectedClients.getClientSocket 1 = some 1 ∧
        (late.world.uploadState "0123456789abcdef").completed = true) ∧
      (forA ∈ again.transfers ∧ again.world.connectedClients.getClientSocket 1 = some 1 ∧
        (again.world.uploadState "0123456789abcdef").completed = false) ∧
      ¬ late.Settled ∧ ¬ again.Settled := by
  intro forA late again
  have hlate : forA ∈ late.transfers := List.mem_of_getElem? (i := 0) rfl
  have hagain : forA ∈ again.transfers := List.mem_of_getElem? (i := 0) rfl
  refine ⟨⟨hlate, rfl, rfl⟩, ⟨hagain, rfl, rfl⟩, fun h => ?_, fun h => ?_⟩
  · cases h forA hlate rfl
  · cases h forA hagain rfl

/-- The other way round the file is handed over, and nothing is left behind. -/
theorem settled_exact_early :
    let d := deliveriesAfter [loginRequest, fileForA, lastChunk]
    d.Tracks ∧ d.Settled ∧ ∀ event,
      (d.step parseTwoUsers event).Settled ↔ d.Prompt parseTwoUsers event := by
  have hlogin : (Deliveries.start .fresh).Prompt parseTwoUsers
      (.request 1 twoUsers (lineOf loginRequest)) :=
    ⟨fun _ _ _ hmem => (List.not_mem_nil hmem).elim,
      fun chunk hb => absurd (Option.some.inj hb.type) (by simp)⟩
  have hmessage : (deliveriesAfter [loginRequest]).Prompt parseTwoUsers
      (.request 1 twoUsers (lineOf fileForA)) :=
    ⟨fun _ _ _ hmem => (List.not_mem_nil hmem).elim,
      fun chunk hb => absurd (Option.some.inj hb.type) (by simp)⟩
  have hchunk : (deliveriesAfter [loginRequest, fileForA]).Prompt parseTwoUsers
      (.request 1 twoUsers (lineOf lastChunk)) := by
    refine ⟨nofun, fun chunk hb _ _ => ⟨fun _ _ _ => rfl, fun transfer hmem hname => ?_⟩⟩
    have hfilename : "0123456789abcdef" = chunk.filename := Except.ok.inj hb.filename
    have hpending : (deliveriesAfter [loginRequest, fileForA]).world.pendingFileTransfers =
        [⟨"0123456789abcdef", 7, 1⟩] := rfl
    rw [hpending, ← hfilename] at hmem
    simp at hmem
  exact settled_exact (((Run.nil.snoc _ hlogin).snoc _ hmessage).snoc _ hchunk)

end Silence.Server
