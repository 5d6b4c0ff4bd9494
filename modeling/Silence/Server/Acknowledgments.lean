import Silence.Server.PendingDelivery

/-!
# Silence.Server.Acknowledgments

Which requests are answered by an acknowledgment.

Only `handle_file_chunk` acknowledges anything, only to the requester, and only as the
last frame that it writes (`framesTo_step_chunk`). A client gets no acknowledgment for a
request of another one (`not_isAck_of_other`).
-/

namespace Silence.Server

open Silence.Lib Silence.Lib.Effect
open Json.Members (ofList)

/-- The frame acknowledges a chunk, with success or without. -/
def IsAck (frame : Json.Members) : Prop :=
  frame.lookup "type" = some (.string "chunk_acknowledgment")

/-- The frame tells a client of a file, or brings a chunk of it. -/
def IsFileFrame (frame : Json.Members) : Prop :=
  frame.lookup "type" = some (.string "incoming_file") ∨
    frame.lookup "type" = some (.string "file_chunk")

/-- All frames that have been written, or failed to be, are such frames. -/
def World.Wrote (P : Json.Members → Prop) (w : World) : Prop :=
  ∀ socket recipient frame ok, .wrote socket recipient frame ok ∈ w.log → P frame

/-- A frame that has nothing to do with files. -/
def IsOrdinary (frame : Json.Members) : Prop := ¬ IsAck frame ∧ ¬ IsFileFrame frame

/-- The frames that have been written to a socket. -/
def Observation.frameTo? (socket : Socket) : Observation → Option Json.Members
  | .wrote socket' _ frame true => if socket' = socket then some frame else none
  | _ => none

def World.framesTo (w : World) (socket : Socket) : List Json.Members :=
  w.log.filterMap (Observation.frameTo? socket)

theorem frameTo?_eq_some {o : Observation} {socket : Socket} {frame : Json.Members}
    (h : o.frameTo? socket = some frame) : ∃ recipient, o = .wrote socket recipient frame true := by
  cases o with
  | wrote socket' recipient frame' ok =>
      cases ok with
      | false => cases h
      | true =>
          unfold Observation.frameTo? at h
          dsimp only at h
          split at h
          · rename_i hsocket
            obtain rfl := Option.some.inj h
            exact ⟨recipient, by rw [hsocket]⟩
          · cases h
  | _ => cases h

theorem exists_of_mem_framesTo {w : World} {socket : Socket} {frame : Json.Members}
    (h : frame ∈ w.framesTo socket) : ∃ recipient, .wrote socket recipient frame true ∈ w.log := by
  obtain ⟨o, hmem, ho⟩ := List.mem_filterMap.mp h
  obtain ⟨recipient, rfl⟩ := frameTo?_eq_some ho
  exact ⟨recipient, hmem⟩

theorem World.Wrote.mem_framesTo {P : Json.Members → Prop} {w : World} (h : w.Wrote P)
    {socket : Socket} {frame : Json.Members} (hmem : frame ∈ w.framesTo socket) : P frame := by
  obtain ⟨recipient, hmem⟩ := exists_of_mem_framesTo hmem
  exact h _ _ _ _ hmem

theorem World.Wrote.imp {P Q : Json.Members → Prop} {w : World} (h : w.Wrote P)
    (himp : ∀ frame, P frame → Q frame) : w.Wrote Q :=
  fun socket recipient frame ok hmem => himp frame (h socket recipient frame ok hmem)

/-! ### What is written -/

section Wrote

variable {env : Environment} {P : Json.Members → Prop}

theorem wrote_beginRequest (P : Json.Members → Prop) (w : World) : w.beginRequest.Wrote P := by
  intro socket recipient frame ok hmem
  cases hmem

/-- One more observation. -/
theorem World.Wrote.append {w w' : World} (h : w.Wrote P) {o : Observation}
    (hlog : w'.log = w.log ++ [o])
    (ho : ∀ socket recipient frame ok, o = .wrote socket recipient frame ok → P frame) :
    w'.Wrote P := by
  intro socket recipient frame ok hmem
  rw [hlog] at hmem
  rcases List.mem_append.mp hmem with hold | hnew
  · exact h socket recipient frame ok hold
  · exact ho socket recipient frame ok (List.mem_singleton.mp hnew).symm

theorem World.Wrote.recordWrite {w : World} (h : w.Wrote P) {frame : Json.Members}
    (hframe : P frame) (socket : Socket) (recipient : Option Int) (ok : Bool) :
    (w.recordWrite (.wrote socket recipient frame ok)).Wrote P := by
  refine h.append rfl ?_
  intro socket' recipient' frame' ok' heq
  cases heq
  exact hframe

theorem preserves_wrote_write {socket : Socket} {recipient : Option Int} {frame : Json.Members}
    (hframe : P frame) : Preserves (World.Wrote P) (write env socket recipient frame) :=
  triple_write (fun _ hw _ => hw.recordWrite hframe _ _ _)
    fun _ hw _ => hw.recordWrite hframe _ _ _

theorem preserves_wrote_observe {o : Observation}
    (ho : ∀ socket recipient frame ok, o ≠ .wrote socket recipient frame ok) :
    Preserves (World.Wrote P) (observe o) :=
  preserves_modify fun _ hw => hw.append rfl fun _ _ _ _ heq => absurd heq (ho _ _ _ _)

theorem preserves_wrote_writeToClient {clientSocket : Option Socket} {userId : Int}
    {frame : Json.Members} (hframe : P frame) :
    Preserves (World.Wrote P) (writeToClient env clientSocket userId frame) := by
  cases clientSocket with
  | none => exact preserves_pure _
  | some socket => exact preserves_wrote_write hframe

end Wrote

/-! ### Requests without a chunk -/

section Ordinary

variable {env : Environment}

theorem ordinary_handleRegister (socket : Socket) (request : Json) :
    Preserves (World.Wrote IsOrdinary) (handleRegister env socket request) := by
  refine preserves_attempt_bind fun nickname _ => preserves_attempt_bind fun password _ =>
    preserves_attempt_bind fun elGamal _ => preserves_attempt_bind fun dsa _ => ?_
  refine preserves_bind (preserves_wrote_observe (by simp)) fun _ => ?_
  refine preserves_bind (preserves_wrote_observe (by simp)) fun _ => ?_
  exact triple_ite (fun _ => preserves_wrote_write (by simp [IsOrdinary, IsAck, IsFileFrame]))
    fun _ => preserves_wrote_write (by simp [IsOrdinary, IsAck, IsFileFrame])

theorem ordinary_handleAuthorize (socket : Socket) (request : Json) :
    Preserves (World.Wrote IsOrdinary) (handleAuthorize env socket request) := by
  have hreply : ∀ status response, IsOrdinary (ofList [("status", .string status),
      ("response", .string response)]) := by
    intro status response
    simp [IsOrdinary, IsAck, IsFileFrame]
  refine preserves_attempt_bind fun nickname _ => preserves_attempt_bind fun password _ =>
    preserves_attempt_bind fun userId _ => ?_
  refine triple_ite (fun _ => ?_) fun _ => preserves_wrote_write (hreply _ _)
  refine preserves_bind (preserves_modify fun w hw => ?_) fun _ =>
    preserves_wrote_write (hreply _ _)
  exact @World.Wrote.append _ _ (w.authorize userId socket) hw _ rfl (by simp)

theorem ordinary_announceFile (request : Json) (senderId receiverId : Int) :
    Preserves (World.Wrote IsOrdinary) (announceFile request senderId receiverId) := by
  unfold announceFile
  split
  · exact preserves_pure _
  · refine triple_ite (fun _ => preserves_pure _) fun _ => ?_
    refine preserves_attempt_bind fun filename _ => ?_
    refine preserves_bind (preserves_modify fun w hw => ?_) fun _ => preserves_pure _
    exact @World.Wrote.append _ _ (w.announce ⟨filename, senderId, receiverId⟩) hw _ rfl (by simp)

theorem ordinary_handleSendMessage (socket : Socket) (request : Json) :
    Preserves (World.Wrote IsOrdinary) (handleSendMessage env socket request) := by
  refine preserves_attempt_bind fun senderId _ => preserves_attempt_bind fun nickname _ =>
    preserves_attempt_bind fun text _ => ?_
  refine triple_ite (fun _ => preserves_wrote_write (by simp [IsOrdinary, IsAck, IsFileFrame]))
    fun _ => ?_
  refine triple_ite (fun _ => preserves_wrote_write (by simp [IsOrdinary, IsAck, IsFileFrame]))
    fun _ => ?_
  refine preserves_bind (preserves_wrote_observe (by simp)) fun _ => ?_
  refine preserves_bind (preserves_wrote_write (by simp [IsOrdinary, IsAck, IsFileFrame]))
    fun _ => ?_
  refine triple_get_bind fun w hw => ?_
  refine triple_weaken (P := World.Wrote IsOrdinary) (Q := fun _ => World.Wrote IsOrdinary) ?_
    (fun s hs => hs ▸ hw) fun _ _ hs => hs
  refine preserves_bind (preserves_wrote_writeToClient
    (by simp [IsOrdinary, IsAck, IsFileFrame])) fun _ => ?_
  refine preserves_bind (ordinary_announceFile _ _ _) fun filename => ?_
  refine preserves_bind (preserves_wrote_write (by simp [IsOrdinary, IsAck, IsFileFrame]))
    fun _ => ?_
  exact preserves_wrote_writeToClient (by simp [IsOrdinary, IsAck, IsFileFrame])

theorem ordinary_handleGetUserKeys (socket : Socket) (request : Json) :
    Preserves (World.Wrote IsOrdinary) (handleGetUserKeys env socket request) := by
  refine preserves_attempt_bind fun nickname _ => ?_
  refine triple_ite (fun _ => preserves_wrote_write (by simp [IsOrdinary, IsAck, IsFileFrame]))
    fun _ => ?_
  split
  · exact preserves_wrote_write (by simp [IsOrdinary, IsAck, IsFileFrame])
  · exact preserves_attempt_bind fun _ _ => preserves_attempt_bind fun _ _ =>
      preserves_wrote_write (by simp [IsOrdinary, IsAck, IsFileFrame])

theorem ordinary_handleSendAesKey (socket : Socket) (request : Json) :
    Preserves (World.Wrote IsOrdinary) (handleSendAesKey env socket request) := by
  refine preserves_attempt_bind fun senderId _ => preserves_attempt_bind fun nickname _ =>
    preserves_attempt_bind fun c1 _ => preserves_attempt_bind fun c2 _ =>
    preserves_attempt_bind fun dsaR _ => preserves_attempt_bind fun dsaSignature _ => ?_
  refine triple_ite (fun _ => preserves_wrote_write (by simp [IsOrdinary, IsAck, IsFileFrame]))
    fun _ => ?_
  refine preserves_bind (preserves_wrote_write (by simp [IsOrdinary, IsAck, IsFileFrame]))
    fun _ => ?_
  refine triple_get_bind fun w hw => ?_
  exact triple_weaken (preserves_wrote_writeToClient (by simp [IsOrdinary, IsAck, IsFileFrame]))
    (fun s hs => hs ▸ hw) fun _ _ hs => hs

theorem ordinary_reply {socket : Socket} {response : String} {w : World}
    (h : w.Wrote IsOrdinary) : (exec (reply env socket response) w).2.Wrote IsOrdinary := by
  rw [exec_reply]
  exact h.recordWrite (by simp [IsOrdinary, IsAck, IsFileFrame]) _ _ _

/-- A request of another type has nothing to do with files. -/
theorem ordinary_dispatch {socket : Socket} {request : Json} {w : World} (h : w.Wrote IsOrdinary)
    (htype : ¬ request.HasType "file_chunk") :
    (exec (dispatch env socket request) w).2.Wrote IsOrdinary := by
  unfold dispatch
  cases hmember : request.member? "type" with
  | none => exact ordinary_reply h
  | some type =>
      dsimp only
      -- one case for each type of request, in the order of the source
      split
      · exact (ordinary_handleRegister socket request).exec_snd h
      split
      · exact (ordinary_handleAuthorize socket request).exec_snd h
      split
      · exact (ordinary_handleSendMessage socket request).exec_snd h
      split
      · rename_i htext
        rw [Json.HasType, hmember, Json.isText_iff.mp htext] at htype
        exact absurd rfl htype
      split
      · exact (ordinary_handleGetUserKeys socket request).exec_snd h
      split
      · exact (ordinary_handleSendAesKey socket request).exec_snd h
      · exact ordinary_reply h

end Ordinary

/-! ### Handing a file over -/

/-- The frames of a file are no acknowledgments. -/
theorem wrote_completeTransfer (env : Environment) (filename : String) {w : World}
    (h : w.Wrote fun frame => ¬ IsAck frame) :
    (exec (completeTransfer env filename) w).2.Wrote fun frame => ¬ IsAck frame := by
  have hsent : ∀ (socket : Socket) (userId : Int) (i : Nat) (chunks : List Bytes),
      Preserves (World.Wrote fun frame => ¬ IsAck frame)
        (sendChunks env socket userId filename i chunks) := by
    intro socket userId i chunks
    induction chunks generalizing i with
    | nil => exact preserves_pure _
    | cons chunk chunks ih =>
        refine preserves_bind (preserves_catchException ?_ (preserves_pure _)) fun goOn => ?_
        · exact preserves_attempt_bind fun text _ => preserves_bind
            (preserves_wrote_write (by simp [IsAck])) fun _ => preserves_pure _
        · cases goOn with
          | true => exact ih (i + 1)
          | false => exact preserves_pure _
  have hnotify : ∀ transfer, ¬ IsAck (fileNotification transfer) := by
    intro transfer
    simp [fileNotification, IsAck]
  rcases completeTransfer_cases env filename w with
    ⟨transfer, socket, -, -, ⟨-, hrun⟩ | ⟨-, hrun⟩⟩ | ⟨-, hrun⟩
  · rw [hrun]
    exact (hsent socket transfer.receiverId 0 _).exec_snd (h.recordWrite (hnotify transfer) _ _ _)
  · rw [hrun]
    exact h.recordWrite (hnotify transfer) _ _ _
  · rw [hrun]
    exact h

/-- Handing a file over does not change it. -/
theorem fileServer_completeTransfer (env : Environment) (filename : String) (w : World) :
    (exec (completeTransfer env filename) w).2.fileServer = w.fileServer := by
  rcases completeTransfer_cases env filename w with
    ⟨transfer, socket, -, -, ⟨-, hrun⟩ | ⟨-, hrun⟩⟩ | ⟨-, hrun⟩
  · rw [hrun]
    exact (preserves_sendChunks_of_recordWrite (I := fun w' => w'.fileServer = w.fileServer)
      (fun _ _ h => h) env socket transfer.receiverId filename 0
        (env.downloadFileChunks filename)).exec_snd rfl
  · rw [hrun]
    rfl
  · rw [hrun]

/-! ### Requests with a chunk -/

/-- The answer to a chunk. -/
def World.chunkAnswer (w : World) (env : Environment) (chunk : Chunk) : Json.Members :=
  let response := ofList [("type", .string "chunk_acknowledgment"),
    ("filename", .string chunk.filename), ("chunk_number", .number chunk.chunkNumber.toNat)]
  if chunk.chunkNumber ≠ (w.uploadState chunk.filename).lastChunkReceived + 1 then
    (response.set "status" (.string "error")).set "error" (.string "wrong_chunk_order")
  else if (w.upload env chunk.filename chunk.chunkData).1 then
    response.set "status" (.string "success")
  else (response.set "status" (.string "error")).set "error" (.string "upload_failed")

/-- The answer reports a success exactly if the chunk is accepted. -/
theorem lookup_status_chunkAnswer {w : World} {env : Environment} {chunk : Chunk} :
    (w.chunkAnswer env chunk).lookup "status" = some (.string "success") ↔
      w.Accepts env chunk := by
  unfold World.chunkAnswer
  dsimp only
  split
  · rename_i horder
    refine iff_of_false (by simp) fun h => horder h.inOrder
  · rename_i horder
    split
    · rename_i hupload
      exact iff_of_true (by simp) ⟨not_not.mp horder, hupload⟩
    · rename_i hupload
      refine iff_of_false (by simp) fun h => hupload h.uploaded

theorem isAck_chunkAnswer (w : World) (env : Environment) (chunk : Chunk) :
    IsAck (w.chunkAnswer env chunk) := by
  unfold World.chunkAnswer IsAck
  dsimp only
  split
  · simp
  · split <;> simp

instance (w : World) (env : Environment) (chunk : Chunk) : Decidable (w.Accepts env chunk) :=
  decidable_of_iff (chunk.chunkNumber = (w.uploadState chunk.filename).lastChunkReceived + 1 ∧
    (w.upload env chunk.filename chunk.chunkData).1 = true)
    ⟨fun h => ⟨h.1, h.2⟩, fun h => ⟨h.1, h.2⟩⟩

/-- The state that a chunk is answered in. -/
def World.handleChunk (w : World) (env : Environment) (chunk : Chunk) : World :=
  if chunk.isLast = true ∧ w.Accepts env chunk then
    (exec (completeTransfer env chunk.filename) (w.takeChunk env chunk)).2
  else w.takeChunk env chunk

/-- A chunk is taken, its file is completed if it is the last one, and it is answered at the
end. -/
theorem exec_processChunk {env : Environment} (socket : Socket) (chunk : Chunk) (w : World) :
    (exec (processChunk env socket chunk.filename chunk.chunkData chunk.chunkNumber
        chunk.isLast) w).2 =
      (w.handleChunk env chunk).recordWrite (.wrote socket none (w.chunkAnswer env chunk)
        (env.writeOk (w.handleChunk env chunk).writes)) := by
  have hupload : (w.openUpload chunk.filename).upload env chunk.filename chunk.chunkData =
      w.upload env chunk.filename chunk.chunkData := by
    unfold World.upload
    rw [openUpload_fileServer]
  unfold World.handleChunk processChunk World.chunkAnswer
  simp only [exec_bind, exec_modify, exec_get]
  rw [uploadState_openUpload]
  rcases takeChunk_cases w env chunk with
    ⟨horder, htake⟩ | ⟨horder, success, fileServer, hup, htake⟩
  · rw [if_pos horder, if_pos horder, exec_acknowledge, if_neg fun h => horder h.2.inOrder, htake]
  · rw [if_neg (not_not_intro horder), if_neg (not_not_intro horder), exec_bind,
      exec_uploadFileChunk, hupload, hup]
    cases success with
    | false =>
        have hnot : ¬ (chunk.isLast = true ∧ w.Accepts env chunk) := by
          intro h
          have hsuccess := h.2.uploaded
          rw [hup] at hsuccess
          cases hsuccess
        rw [if_neg Bool.false_ne_true] at htake
        dsimp only
        rw [if_neg Bool.false_ne_true, exec_acknowledge, if_neg hnot, htake]
        rfl
    | true =>
        have haccepts : w.Accepts env chunk := ⟨horder, by rw [hup]⟩
        rw [if_pos rfl] at htake
        dsimp only
        rw [if_pos rfl, exec_bind, exec_modify]
        dsimp only
        rw [← htake]
        cases hlast : chunk.isLast with
        | false =>
            rw [if_neg Bool.false_ne_true, exec_acknowledge,
              if_neg fun h => Bool.false_ne_true h.1]
            rfl
        | true =>
            rw [if_pos rfl, exec_bind, if_pos ⟨rfl, haccepts⟩]
            have hfst := @exec_completeTransfer_fst env chunk.filename (w.takeChunk env chunk)
            rcases hrun : exec (completeTransfer env chunk.filename) (w.takeChunk env chunk) with
              ⟨result, w'⟩
            rw [hrun] at hfst
            cases hfst
            dsimp only
            rw [exec_acknowledge]
            rfl

theorem wrote_takeChunk {P : Json.Members → Prop} {w : World} {env : Environment} {chunk : Chunk}
    (h : w.Wrote P) : (w.takeChunk env chunk).Wrote P := by
  rcases takeChunk_log w env chunk with hlog | hlog
  · unfold World.Wrote
    rw [hlog]
    exact h
  · exact h.append hlog (by simp)

theorem wrote_handleChunk {w : World} {env : Environment} {chunk : Chunk}
    (h : w.Wrote fun frame => ¬ IsAck frame) :
    (w.handleChunk env chunk).Wrote fun frame => ¬ IsAck frame := by
  unfold World.handleChunk
  split
  · exact wrote_completeTransfer env chunk.filename (wrote_takeChunk h)
  · exact wrote_takeChunk h

/-! ### Steps -/

section Steps

variable {parse : JsonParser} {env : Environment} {line : Bytes} {w : World}

/-- A request with a chunk. -/
theorem step_chunk {chunk : Chunk} (hb : Brings (parse.value line) chunk)
    (socket : Socket) :
    w.step parse (.request socket env line) =
      (w.beginRequest.handleChunk env chunk).recordWrite (.wrote socket none
        (w.beginRequest.chunkAnswer env chunk)
          (env.writeOk (w.beginRequest.handleChunk env chunk).writes)) := by
  rw [step_of_brings hb socket, exec_processChunk]

/-- A chunk whose fields cannot be read is dropped. -/
theorem exec_handleFileChunk_of_not_brings {socket : Socket} {request : Json}
    (htype : request.HasType "file_chunk") (hnone : ∀ chunk, ¬ Brings request chunk) :
    (exec (handleFileChunk env socket request) w).2 = w := by
  unfold handleFileChunk
  cases hfilename : request.readString "filename" with
  | error e => rfl
  | ok filename =>
      cases hdata : request.readString "chunk_data" with
      | error e => rfl
      | ok chunkData =>
          cases hnumber : request.readSize "chunk_number" with
          | error e => rfl
          | ok chunkNumber =>
              cases hlast : request.readBool "is_last" with
              | error e => rfl
              | ok isLast =>
                  exact absurd ⟨htype, hfilename, hdata, hnumber, hlast⟩
                    (hnone ⟨filename, chunkData, chunkNumber, isLast⟩)

/-- Without a chunk there are no frames about files. -/
theorem ordinary_step {event : Event} (hnone : ∀ chunk, ¬ Brings (event.parsed parse) chunk) :
    (w.step parse event).Wrote IsOrdinary := by
  have hbegin := wrote_beginRequest IsOrdinary w
  cases event with
  | disconnect socket => exact hbegin
  | request socket env line =>
      show (exec (handleRequestLine parse env socket line) w).2.Wrote IsOrdinary
      unfold handleRequestLine
      rw [exec_bind, exec_modify]
      dsimp only
      have hparsed : ∀ chunk, ¬ Brings (parse.value line) chunk := hnone
      cases hparse : parse line with
      | error failure =>
          cases failure with
          | parseError => exact ordinary_reply hbegin
          | outOfRange => exact hbegin
      | ok request =>
          rw [JsonParser.value_of_ok hparse] at hparsed
          show (exec (dispatch env socket request) w.beginRequest).2.Wrote IsOrdinary
          by_cases htype : request.HasType "file_chunk"
          · have hdispatch : dispatch env socket request = handleFileChunk env socket request := by
              unfold dispatch
              rw [htype]
              rfl
            rw [hdispatch, exec_handleFileChunk_of_not_brings htype hparsed]
            exact hbegin
          · exact ordinary_dispatch hbegin htype

/-- A client only gets acknowledgments for its own requests. -/
theorem not_isAck_of_other {event : Event} {socket : Socket} (hne : event.socket ≠ socket)
    {frame : Json.Members} (hmem : frame ∈ (w.step parse event).framesTo socket) :
    ¬ IsAck frame := by
  by_cases hchunk : ∃ chunk, Brings (event.parsed parse) chunk
  · obtain ⟨chunk, hb⟩ := hchunk
    cases event with
    | disconnect socket' => cases hmem
    | request socket' env line =>
        rw [step_chunk hb socket'] at hmem
        obtain ⟨recipient, hlogged⟩ := exists_of_mem_framesTo hmem
        rw [World.recordWrite_log] at hlogged
        rcases List.mem_append.mp hlogged with hold | hlast
        · exact wrote_handleChunk (wrote_beginRequest _ w) _ _ _ _ hold
        · rw [List.mem_singleton, Observation.wrote.injEq] at hlast
          exact absurd hlast.1.symm hne
  · exact ((ordinary_step (not_exists.mp hchunk)).mem_framesTo hmem).1

/-- The requester gets the answer to its chunk last, unless the write fails. -/
theorem framesTo_step_chunk {chunk : Chunk} (hb : Brings (parse.value line) chunk)
    (socket : Socket) :
    ∃ front back, (w.step parse (.request socket env line)).framesTo socket = front ++ back ∧
      (∀ frame ∈ front, ¬ IsAck frame) ∧
        (back = [] ∨ back = [w.beginRequest.chunkAnswer env chunk]) := by
  have hnone := @wrote_handleChunk w.beginRequest env chunk (wrote_beginRequest _ w)
  rw [step_chunk hb socket]
  unfold World.framesTo
  rw [World.recordWrite_log, List.filterMap_append]
  refine ⟨_, _, rfl, fun frame hmem => hnone.mem_framesTo hmem, ?_⟩
  cases env.writeOk (w.beginRequest.handleChunk env chunk).writes with
  | false => exact .inl rfl
  | true => simp [Observation.frameTo?]

end Steps

end Silence.Server
