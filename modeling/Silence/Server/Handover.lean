import Silence.FileServer.Upload
import Silence.Server.JsonText
import Silence.Server.PendingDelivery

/-!
# Silence.Server.Handover

Whether a pending transfer is only removed once its file has been sent.

`handle_file_chunk` removes the transfer behind the call of `send_file_to_client`. This
function catches what goes wrong with a chunk, and returns early when the file
server gives it no chunks, so its caller cannot tell a delivery from a failed one.
`handleFileChunk_removes_iff` is the exact condition: once the receiver has been
notified nothing may go wrong any more.
-/

namespace Silence.Server

open Silence.Lib Silence.Lib.Effect
open Json.Members (ofList)

/-! ### What is sent -/

/-- The message with one chunk of a file. -/
def chunkMessage (filename : String) (i : Nat) (text : String) (isLast : Bool) : Json.Members :=
  ofList [("type", .string "file_chunk"), ("filename", .string filename),
    ("chunk_number", .number i), ("chunk_data", .string text), ("is_last", .boolean isLast)]

/-- The messages with the chunks of a file from the number `i`. -/
def chunkMessages (filename : String) : Nat → List String → List Json.Members
  | _, [] => []
  | i, text :: texts =>
      chunkMessage filename i text texts.isEmpty :: chunkMessages filename (i + 1) texts

/-- The notification and every chunk of the stored file, the last one marked as such, are written
to the socket. -/
structure World.Delivered (w : World) (receiverSocket : Socket) (transfer : PendingFileTransfer) :
    Prop where
  notified : Observation.wrote receiverSocket (some transfer.receiverId)
    (fileNotification transfer) true ∈ w.log
  chunks : ∃ texts, texts ≠ [] ∧
    texts.flatMap bytesOf = w.fileServer.stored (bytesOf transfer.filename) ∧
    ∀ message ∈ chunkMessages transfer.filename 0 texts,
      Observation.wrote receiverSocket (some transfer.receiverId) message true ∈ w.log

/-- A request that leads from `w` to `w'` leaves the pending transfers alone, or removes one whose
file has been delivered. -/
def World.RemovesDelivered (w w' : World) : Prop :=
  w'.pendingFileTransfers = w.pendingFileTransfers ∨
    ∃ transfer ∈ w.pendingFileTransfers, ∃ receiverSocket,
      w.connectedClients.getClientSocket transfer.receiverId = some receiverSocket ∧
        w'.pendingFileTransfers = w.pendingFileTransfers.erase transfer ∧
          w'.Delivered receiverSocket transfer

/-! ### The condition -/

/-- The fields of a request with a chunk, in the order in which they are read. -/
def readChunk (request : Json) : Except Exn Chunk := do
  let filename ← request.readString "filename"
  let chunkData ← request.readString "chunk_data"
  let chunkNumber ← request.readSize "chunk_number"
  let isLast ← request.readBool "is_last"
  return ⟨filename, chunkData, chunkNumber, isLast⟩

/-- The chunk completes its file, and the receiver of the first pending transfer is connected and
can be notified. -/
structure World.HandsOver (w : World) (env : Environment) (chunk : Chunk) : Prop where
  isLast : chunk.isLast = true
  accepts : w.Accepts env chunk
  notifies : ∃ transfer receiverSocket,
    w.pendingFileTransfers.find? (·.filename = chunk.filename) = some transfer ∧
      w.connectedClients.getClientSocket transfer.receiverId = some receiverSocket ∧
        env.writeOk 0 = true

/-- Chunks that can be sent when `n` frames have been written before them. -/
structure CanSend (env : Environment) (n : Nat) (chunks : List Bytes) : Prop where
  valid : ∀ data ∈ chunks, ValidUtf8 data
  written : ∀ i < chunks.length, env.writeOk (n + i) = true

/-- The file server returns the whole file, and its chunks can be sent. -/
structure World.SendsFile (w : World) (env : Environment) (chunk : Chunk) : Prop where
  nonempty : env.downloadFileChunks chunk.filename ≠ []
  stored : (env.downloadFileChunks chunk.filename).flatten =
    (w.upload env chunk.filename chunk.chunkData).2.stored (bytesOf chunk.filename)
  canSend : CanSend env 1 (env.downloadFileChunks chunk.filename)

/-! ### Sending the chunks -/

section Sending

variable {env : Environment} {clientSocket : Socket} {userId : Int} {filename : String}

theorem canSend_cons {n : Nat} {data : Bytes} {chunks : List Bytes} :
    CanSend env n (data :: chunks) ↔
      ValidUtf8 data ∧ env.writeOk n = true ∧ CanSend env (n + 1) chunks := by
  constructor
  · intro h
    refine ⟨h.valid data List.mem_cons_self, h.written 0 (Nat.succ_pos _),
      fun data' hdata => h.valid data' (List.mem_cons_of_mem _ hdata), fun i hi => ?_⟩
    rw [Nat.add_right_comm]
    exact h.written (i + 1) (Nat.succ_lt_succ hi)
  · intro hsend
    obtain ⟨hvalid, hfirst, h⟩ := hsend
    refine ⟨fun data' hdata => ?_, fun i hi => ?_⟩
    · rcases List.mem_cons.mp hdata with rfl | hdata
      · exact hvalid
      · exact h.valid data' hdata
    · cases i with
      | zero => exact hfirst
      | succ i =>
          rw [← Nat.add_assoc, Nat.add_right_comm]
          exact h.written i (Nat.lt_of_succ_lt_succ hi)

theorem exec_sendChunk (i : Nat) (data : Bytes) (isLast : Bool) (w : World) :
    exec (sendChunk env clientSocket userId filename i data isLast) w =
      match dumpedText data with
      | .ok text => (.ok (env.writeOk w.writes), w.recordWrite (.wrote clientSocket (some userId)
          (chunkMessage filename i text isLast) (env.writeOk w.writes)))
      | .error _ => (.ok false, w) := by
  unfold sendChunk catchException
  rw [exec_tryCatch, exec_bind, exec_attempt]
  rcases hdump : dumpedText data with e | text
  · -- a text that cannot be dumped throws a type error, which is caught
    unfold dumpedText at hdump
    split at hdump
    · cases hdump
    · cases hdump
      rfl
  · dsimp only
    rw [exec_bind, exec_write]
    cases env.writeOk w.writes <;> rfl

/-- Either all chunks are written, or none that is marked as the last one. -/
theorem sendChunks_cases (i : Nat) (chunks : List Bytes) (w : World) :
    let w' := (exec (sendChunks env clientSocket userId filename i chunks) w).2
    (CanSend env w.writes chunks ∧ ∃ texts, texts.map bytesOf = chunks ∧
      w'.log = w.log ++ (chunkMessages filename i texts).map fun message =>
        .wrote clientSocket (some userId) message true) ∨
    (¬ CanSend env w.writes chunks ∧ ∃ front, w'.log = w.log ++ front ∧
      ∀ socket recipient message, Observation.wrote socket recipient message true ∈ front →
        message.lookup "is_last" = some (.boolean false)) := by
  intro w'
  induction chunks generalizing i w with
  | nil =>
      refine .inl ⟨⟨nofun, nofun⟩, [], rfl, ?_⟩
      exact (List.append_nil w.log).symm
  | cons data chunks ih =>
      have hrun : w' = (exec (do
          if ← sendChunk env clientSocket userId filename i data chunks.isEmpty then
            sendChunks env clientSocket userId filename (i + 1) chunks) w).2 := rfl
      rw [exec_bind, exec_sendChunk] at hrun
      rw [canSend_cons, hrun]
      rcases hdump : dumpedText data with e | text
      · refine .inr ⟨fun h => ?_, [], (List.append_nil w.log).symm, nofun⟩
        obtain ⟨text, htext, -⟩ := exists_dumpedText h.1
        rw [hdump] at htext
        cases htext
      · have hvalid := validUtf8_of_dumpedText hdump
        dsimp only
        cases hok : env.writeOk w.writes with
        | false =>
            refine .inr ⟨fun h => by simp at h, [_], rfl, ?_⟩
            intro socket recipient message hmem
            cases List.mem_singleton.mp hmem
        | true =>
            -- the message is written, and the loop goes on
            have hrest := ih (i + 1) (w.recordWrite (.wrote clientSocket (some userId)
              (chunkMessage filename i text chunks.isEmpty) true))
            rw [World.recordWrite_log, World.recordWrite_writes] at hrest
            rcases hrest with ⟨hsend, texts, rfl, hlog⟩ | ⟨hsend, front, hlog, hfront⟩
            · refine .inl ⟨⟨hvalid, rfl, hsend⟩, text :: texts, ?_, ?_⟩
              · rw [List.map_cons, bytesOf_of_dumpedText hdump]
              · rw [if_pos rfl, hlog, List.append_assoc, List.isEmpty_map]
                rfl
            · refine .inr ⟨fun h => hsend h.2.2, .wrote clientSocket (some userId)
                (chunkMessage filename i text chunks.isEmpty) true :: front, ?_, ?_⟩
              · rw [if_pos rfl, hlog, List.append_assoc]
                rfl
              · intro socket recipient message hmem
                rcases List.mem_cons.mp hmem with hfirst | hmem
                · cases hfirst
                  cases chunks with
                  | nil => exact absurd ⟨nofun, nofun⟩ hsend
                  | cons data' chunks => simp [chunkMessage]
                · exact hfront socket recipient message hmem

theorem chunkMessage_inj {i i' : Nat} {text text' : String} {isLast isLast' : Bool}
    (h : chunkMessage filename i text isLast = chunkMessage filename i' text' isLast') :
    i = i' ∧ text = text' ∧ isLast = isLast' := by
  have hlookup : ∀ key, (chunkMessage filename i text isLast).lookup key =
      (chunkMessage filename i' text' isLast').lookup key := by
    intro key
    rw [h]
  have hnumber := hlookup "chunk_number"
  have hdata := hlookup "chunk_data"
  have hlast := hlookup "is_last"
  simp [chunkMessage] at hnumber hdata hlast
  exact ⟨hnumber, hdata, hlast⟩

/-- The numbers of the messages go on from the first one. -/
theorem exists_of_mem_chunkMessages {i : Nat} {texts : List String} {message : Json.Members}
    (h : message ∈ chunkMessages filename i texts) :
    ∃ n text isLast, i ≤ n ∧ message = chunkMessage filename n text isLast := by
  induction texts generalizing i with
  | nil => cases h
  | cons text texts ih =>
      rcases List.mem_cons.mp h with rfl | h
      · exact ⟨i, text, _, Nat.le_refl i, rfl⟩
      · obtain ⟨n, text', isLast, hn, hmessage⟩ := ih h
        exact ⟨n, text', isLast, Nat.le_of_succ_le hn, hmessage⟩

theorem exists_last_chunkMessages {texts : List String} (filename : String) (i : Nat)
    (hne : texts ≠ []) : ∃ n text, chunkMessage filename n text true ∈
      chunkMessages filename i texts := by
  induction texts generalizing i with
  | nil => exact absurd rfl hne
  | cons text texts ih =>
      cases texts with
      | nil => exact ⟨i, text, List.mem_cons_self⟩
      | cons text' texts =>
          obtain ⟨n, last, hmem⟩ := ih (i + 1) (List.cons_ne_nil _ _)
          exact ⟨n, last, List.mem_cons_of_mem _ hmem⟩

theorem chunkMessage_notMem {i : Nat} (text : String) (isLast : Bool) (texts : List String) :
    chunkMessage filename i text isLast ∉ chunkMessages filename (i + 1) texts := by
  intro h
  obtain ⟨n, text', isLast', hn, hmessage⟩ := exists_of_mem_chunkMessages h
  rw [(chunkMessage_inj hmessage).1] at hn
  exact Nat.not_succ_le_self n hn

/-- The messages of a file determine its chunks, because they are numbered and the last one is
marked. -/
theorem eq_of_chunkMessages_subset {i : Nat} {texts texts' : List String} (hne : texts ≠ [])
    (h : chunkMessages filename i texts ⊆ chunkMessages filename i texts') : texts = texts' := by
  induction texts generalizing i texts' with
  | nil => exact absurd rfl hne
  | cons text texts ih =>
      cases texts' with
      | nil => exact absurd (h List.mem_cons_self) List.not_mem_nil
      | cons text' texts' =>
          have hfirst : chunkMessage filename i text texts.isEmpty =
              chunkMessage filename i text' texts'.isEmpty := by
            rcases List.mem_cons.mp (h List.mem_cons_self) with heq | hmem
            · exact heq
            · exact absurd hmem (chunkMessage_notMem text _ texts')
          obtain ⟨-, rfl, hempty⟩ := chunkMessage_inj hfirst
          by_cases hnil : texts = []
          · rw [hnil, List.isEmpty_nil] at hempty
            rw [hnil, List.isEmpty_iff.mp hempty.symm]
          · have hrest : chunkMessages filename (i + 1) texts ⊆
                chunkMessages filename (i + 1) texts' := by
              intro message hmem
              rcases List.mem_cons.mp (h (List.mem_cons_of_mem _ hmem)) with heq | hmem'
              · rw [heq] at hmem
                exact absurd hmem (chunkMessage_notMem text _ texts)
              · exact hmem'
            rw [ih hnil hrest]

end Sending

/-! ### A file that is handed over -/

section Handler

variable {env : Environment}

/-- The state after a request that hands the file of the transfer over. -/
structure World.HandedOver (w : World) (env : Environment) (chunk : Chunk)
    (transfer : PendingFileTransfer) (receiverSocket : Socket) (w' : World) : Prop where
  pending : w'.pendingFileTransfers = w.pendingFileTransfers.erase transfer
  fileServer : w'.fileServer = (w.upload env chunk.filename chunk.chunkData).2
  log : ∃ front sent back, w'.log = front ++ (.wrote receiverSocket (some transfer.receiverId)
      (fileNotification transfer) true :: sent) ++ back ∧
    (∀ socket userId message, .wrote socket (some userId) message true ∉ front) ∧
    (∀ socket userId message, .wrote socket (some userId) message true ∉ back) ∧
    ((CanSend env 1 (env.downloadFileChunks chunk.filename) ∧
        ∃ texts, texts.map bytesOf = env.downloadFileChunks chunk.filename ∧
          sent = (chunkMessages chunk.filename 0 texts).map fun message =>
            .wrote receiverSocket (some transfer.receiverId) message true) ∨
      (¬ CanSend env 1 (env.downloadFileChunks chunk.filename) ∧
        ∀ socket recipient message, .wrote socket recipient message true ∈ sent →
          message.lookup "is_last" = some (.boolean false)))

theorem fileServer_takeChunk_of_accepts {w : World} {chunk : Chunk} (h : w.Accepts env chunk) :
    (w.takeChunk env chunk).fileServer = (w.upload env chunk.filename chunk.chunkData).2 := by
  rcases takeChunk_cases w env chunk with ⟨horder, -⟩ | ⟨-, success, fileServer, hup, htake⟩
  · exact absurd h.inOrder horder
  · rw [htake, hup]
    cases success <;> rfl

theorem handedOver_processChunk {w : World} {chunk : Chunk} {transfer : PendingFileTransfer}
    {receiverSocket : Socket} (hlast : chunk.isLast = true) (haccepts : w.Accepts env chunk)
    (hfind : w.pendingFileTransfers.find? (·.filename = chunk.filename) = some transfer)
    (hsocket : w.connectedClients.getClientSocket transfer.receiverId = some receiverSocket)
    (hok : env.writeOk 0 = true) (hwrites : w.writes = 0) (hlog : w.log = []) (socket : Socket) :
    w.HandedOver env chunk transfer receiverSocket (exec (processChunk env socket chunk.filename
      chunk.chunkData chunk.chunkNumber chunk.isLast) w).2 := by
  obtain ⟨w', response, ok, hrun, ⟨hnot, -⟩ | ⟨-, -, hw'⟩⟩ := @processChunk_cases env socket chunk w
  · exact absurd ⟨hlast, haccepts⟩ hnot
  have hcomplete := exec_completeTransfer_of_notified
    (by rwa [takeChunk_pendingFileTransfers]) (by rwa [takeChunk_connectedClients])
    (show env.writeOk (w.takeChunk env chunk).writes = true by rwa [takeChunk_writes, hwrites])
  rw [hcomplete] at hw'
  have hchunks := @sendChunks_cases env receiverSocket transfer.receiverId chunk.filename 0
    (env.downloadFileChunks chunk.filename) ((w.takeChunk env chunk).notify receiverSocket transfer)
  have hkeeps : ∀ {I : World → Prop}, (∀ w o, I w → I (w.recordWrite o)) →
      I (w.takeChunk env chunk) → I (exec (sendChunks env receiverSocket transfer.receiverId
        chunk.filename 0 (env.downloadFileChunks chunk.filename))
          ((w.takeChunk env chunk).notify receiverSocket transfer)).2 := fun h hw =>
    (preserves_sendChunks_of_recordWrite h _ _ _ _ _ _).exec_snd (h _ _ hw)
  rw [hrun, hw']
  refine ⟨?_, ?_, ?_⟩
  · have hpending := hkeeps (I := (·.pendingFileTransfers = w.pendingFileTransfers))
      (fun _ _ h => h) (takeChunk_pendingFileTransfers w env chunk)
    show List.eraseP _ _ = _
    rw [hpending, eraseP_eq_erase hfind]
  · exact hkeeps (I := (·.fileServer = _)) (fun _ _ h => h)
      (fileServer_takeChunk_of_accepts haccepts)
  · have hfront : ∀ socket userId message,
        Observation.wrote socket (some userId) message true ∉ (w.takeChunk env chunk).log := by
      intro socket userId message hmem
      rcases takeChunk_log w env chunk with heq | heq
      · rw [heq, hlog] at hmem
        cases hmem
      · rw [heq, hlog, List.nil_append] at hmem
        cases List.mem_singleton.mp hmem
    have hback : ∀ socket' userId message, Observation.wrote socket' (some userId) message true ∉
        [Observation.wrote socket none response ok] := by
      intro socket' userId message hmem
      cases List.mem_singleton.mp hmem
    have hwrote : ∀ sent : List Observation, (((w.takeChunk env chunk).notify receiverSocket
        transfer).log ++ sent) ++ [Observation.wrote socket none response ok] =
        (w.takeChunk env chunk).log ++ (.wrote receiverSocket (some transfer.receiverId)
          (fileNotification transfer) true :: sent) ++ [.wrote socket none response ok] := by
      intro sent
      rw [World.notify, World.recordWrite_log, List.append_assoc _ _ sent]
      rfl
    have hcount : ((w.takeChunk env chunk).notify receiverSocket transfer).writes = 1 := by
      rw [World.notify, World.recordWrite_writes, takeChunk_writes, hwrites]
    rw [hcount] at hchunks
    rcases hchunks with ⟨hsend, texts, htexts, hsent⟩ | ⟨hsend, sent, hsent, hnotLast⟩
    · refine ⟨_, _, [.wrote socket none response ok], ?_, hfront, hback,
        .inl ⟨hsend, texts, htexts, rfl⟩⟩
      rw [← hwrote, ← hsent]
      rfl
    · refine ⟨_, sent, [.wrote socket none response ok], ?_, hfront, hback,
        .inr ⟨hsend, hnotLast⟩⟩
      rw [← hwrote, ← hsent]
      rfl

theorem fileNotification_ne_chunkMessage (transfer : PendingFileTransfer) {filename : String}
    {i : Nat} {text : String} {isLast : Bool} :
    fileNotification transfer ≠ chunkMessage filename i text isLast := by
  intro h
  have htype : (fileNotification transfer).lookup "type" =
      (chunkMessage filename i text isLast).lookup "type" := by rw [h]
  simp [fileNotification, chunkMessage] at htype

section HandedOver

variable {w w' : World} {chunk : Chunk} {transfer : PendingFileTransfer} {receiverSocket : Socket}

theorem delivered_of_sendsFile (h : w.HandedOver env chunk transfer receiverSocket w')
    (hname : transfer.filename = chunk.filename) (hsends : w.SendsFile env chunk) :
    w'.Delivered receiverSocket transfer := by
  obtain ⟨front, sent, back, hlog, -, -, ⟨-, texts, htexts, rfl⟩ | ⟨hnot, -⟩⟩ := h.log
  · have hmem : ∀ message ∈ fileNotification transfer :: chunkMessages chunk.filename 0 texts,
        Observation.wrote receiverSocket (some transfer.receiverId) message true ∈ w'.log := by
      intro message hmessage
      rw [hlog]
      refine List.mem_append_left _ (List.mem_append_right _ ?_)
      rcases List.mem_cons.mp hmessage with rfl | hmessage
      · exact List.mem_cons_self
      · exact List.mem_cons_of_mem _ (List.mem_map_of_mem hmessage)
    refine ⟨hmem _ List.mem_cons_self, texts, ?_, ?_, ?_⟩
    · intro hnil
      rw [hnil] at htexts
      exact hsends.nonempty htexts.symm
    · rw [h.fileServer, hname, ← hsends.stored, ← htexts, List.flatMap_def]
    · rw [hname]
      exact fun message hmessage => hmem message (List.mem_cons_of_mem _ hmessage)
  · exact absurd hsends.canSend hnot

/-- The message that is marked as the last one is only written if all of them are. -/
theorem sendsFile_of_delivered (h : w.HandedOver env chunk transfer receiverSocket w')
    (hname : transfer.filename = chunk.filename)
    (hdelivered : w'.Delivered receiverSocket transfer) : w.SendsFile env chunk := by
  obtain ⟨texts, hne, hstored, hwritten⟩ := hdelivered.chunks
  obtain ⟨front, sent, back, hlog, hfront, hback, hsent⟩ := h.log
  rw [hname] at hstored hwritten
  have hmem : ∀ message ∈ chunkMessages chunk.filename 0 texts,
      Observation.wrote receiverSocket (some transfer.receiverId) message true ∈ sent := by
    intro message hmessage
    have hlogged := hwritten message hmessage
    rw [hlog, List.mem_append, List.mem_append, List.mem_cons] at hlogged
    rcases hlogged with (hfirst | hnotification | hsent) | hlast
    · exact absurd hfirst (hfront _ _ _)
    · obtain ⟨n, text, isLast, -, rfl⟩ := exists_of_mem_chunkMessages hmessage
      rw [Observation.wrote.injEq] at hnotification
      exact absurd hnotification.2.2.1.symm (fileNotification_ne_chunkMessage transfer)
    · exact hsent
    · exact absurd hlast (hback _ _ _)
  rcases hsent with ⟨hsend, texts', htexts, rfl⟩ | ⟨-, hnotLast⟩
  · have hsubset : chunkMessages chunk.filename 0 texts ⊆
        chunkMessages chunk.filename 0 texts' := by
      intro message hmessage
      obtain ⟨message', hmessage', heq⟩ := List.mem_map.mp (hmem message hmessage)
      rw [Observation.wrote.injEq] at heq
      rwa [← heq.2.2.1]
    rw [← eq_of_chunkMessages_subset hne hsubset] at htexts
    refine ⟨?_, ?_, hsend⟩
    · rw [← htexts]
      exact List.map_eq_nil_iff.not.mpr hne
    · rw [← htexts, ← List.flatMap_def, hstored, h.fileServer]
  · obtain ⟨n, text, hmessage⟩ := exists_last_chunkMessages chunk.filename 0 hne
    have hlookup := hnotLast _ _ _ (hmem _ hmessage)
    simp [chunkMessage] at hlookup

end HandedOver

/-- Which element is removed can be told from what is left. -/
theorem eq_of_erase_eq {α : Type} [DecidableEq α] {l : List α} {a b : α} (ha : a ∈ l)
    (h : l.erase a = l.erase b) : a = b := by
  by_contra hne
  have hcount := congrArg (List.count a) h
  rw [List.count_erase_self, List.count_erase_of_ne hne] at hcount
  have hpos := List.count_pos_iff.mpr ha
  omega

/-- A file that is handed over is delivered exactly if it is sent. -/
theorem World.HandedOver.removesDelivered_iff {w w' : World} {chunk : Chunk}
    {transfer : PendingFileTransfer} {receiverSocket : Socket}
    (h : w.HandedOver env chunk transfer receiverSocket w')
    (hfind : w.pendingFileTransfers.find? (·.filename = chunk.filename) = some transfer)
    (hsocket : w.connectedClients.getClientSocket transfer.receiverId = some receiverSocket) :
    w.RemovesDelivered w' ↔ w.SendsFile env chunk := by
  have hname : transfer.filename = chunk.filename := by simpa using List.find?_some hfind
  have hmem : transfer ∈ w.pendingFileTransfers := List.mem_of_find?_eq_some hfind
  constructor
  · intro hremoves
    rcases hremoves with
      hkept | ⟨transfer', hmem', receiverSocket', hsocket', herase, hdelivered⟩
    · rw [h.pending] at hkept
      have hlength := congrArg List.length hkept
      rw [List.length_erase_of_mem hmem] at hlength
      have hpos := List.length_pos_of_mem hmem
      omega
    · have htransfer : transfer' = transfer := eq_of_erase_eq hmem'
        (herase.symm.trans h.pending)
      subst htransfer
      rw [hsocket, Option.some.injEq] at hsocket'
      subst hsocket'
      exact sendsFile_of_delivered h hname hdelivered
  · intro hsends
    exact .inr ⟨transfer, hmem, receiverSocket, hsocket, h.pending,
      delivered_of_sendsFile h hname hsends⟩

/-- Without a notification the pending transfers stay as they are. -/
theorem pendingFileTransfers_of_not_handsOver {w : World} {chunk : Chunk} (hwrites : w.writes = 0)
    (h : ¬ w.HandsOver env chunk) (socket : Socket) :
    (exec (processChunk env socket chunk.filename chunk.chunkData chunk.chunkNumber
      chunk.isLast) w).2.pendingFileTransfers = w.pendingFileTransfers := by
  obtain ⟨w', response, ok, hrun, ⟨-, rfl⟩ | ⟨hlast, haccepts, rfl⟩⟩ :=
    @processChunk_cases env socket chunk w
  · rw [hrun]
    exact takeChunk_pendingFileTransfers w env chunk
  · have hpending : (exec (completeTransfer env chunk.filename)
        (w.takeChunk env chunk)).2.pendingFileTransfers = w.pendingAfter env chunk.filename := by
      rw [(exec_completeTransfer_pending env chunk.filename (w.takeChunk env chunk)).2.2,
        pendingAfter_takeChunk]
    rw [hrun]
    refine Eq.trans hpending ?_
    unfold World.pendingAfter
    split
    · rfl
    · rename_i transfer hfind
      refine if_neg fun hhanded => h ⟨hlast, haccepts, transfer, ?_⟩
      obtain ⟨receiverSocket, hsocket⟩ := Option.isSome_iff_exists.mp hhanded.1
      exact ⟨receiverSocket, hfind, hsocket, hwrites ▸ hhanded.2⟩

theorem exec_handleFileChunk (socket : Socket) (request : Json) (w : World) :
    exec (handleFileChunk env socket request) w =
      match readChunk request with
      | .ok chunk => exec (processChunk env socket chunk.filename chunk.chunkData
          chunk.chunkNumber chunk.isLast) w
      | .error e => (.error e, w) := by
  unfold handleFileChunk readChunk
  cases request.readString "filename" with
  | error e => rfl
  | ok filename =>
      cases request.readString "chunk_data" with
      | error e => rfl
      | ok chunkData =>
          cases request.readSize "chunk_number" with
          | error e => rfl
          | ok chunkNumber => cases request.readBool "is_last" <;> rfl

end Handler

/-! ### The request -/

theorem handsOver_beginRequest {env : Environment} {w : World} {chunk : Chunk} :
    w.beginRequest.HandsOver env chunk ↔ w.HandsOver env chunk :=
  ⟨fun h => ⟨h.isLast, (accepts_beginRequest chunk).mp h.accepts, h.notifies⟩,
    fun h => ⟨h.isLast, (accepts_beginRequest chunk).mpr h.accepts, h.notifies⟩⟩

/-- A request that hands a file over removes a delivered transfer exactly if the file is sent. -/
theorem removesDelivered_iff_sendsFile {env : Environment} {w : World} {request : Json}
    {chunk : Chunk} (hread : readChunk request = .ok chunk) (hhands : w.HandsOver env chunk)
    (socket : Socket) :
    w.RemovesDelivered (exec (handleFileChunk env socket request) w.beginRequest).2 ↔
      w.SendsFile env chunk := by
  obtain ⟨hlast, haccepts, transfer, receiverSocket, hfind, hsocket, hok⟩ :=
    handsOver_beginRequest.mpr hhands
  have hhanded := handedOver_processChunk hlast haccepts hfind hsocket hok rfl rfl socket
  rw [exec_handleFileChunk, hread]
  refine Iff.trans (hhanded.removesDelivered_iff hfind hsocket) ?_
  exact ⟨fun h => ⟨h.nonempty, h.stored, h.canSend⟩, fun h => ⟨h.nonempty, h.stored, h.canSend⟩⟩

/-- A request with a chunk removes no transfer but a delivered one exactly if the file is sent
whenever it is handed over. -/
theorem handleFileChunk_removes_iff (env : Environment) (w : World) (socket : Socket)
    (request : Json) :
    w.RemovesDelivered (exec (handleFileChunk env socket request) w.beginRequest).2 ↔
      ∀ chunk, readChunk request = .ok chunk → w.HandsOver env chunk → w.SendsFile env chunk := by
  cases hread : readChunk request with
  | error e =>
      refine iff_of_true (.inl ?_) fun chunk h => by cases h
      rw [exec_handleFileChunk, hread]
      rfl
  | ok chunk =>
      by_cases hhands : w.HandsOver env chunk
      · rw [removesDelivered_iff_sendsFile hread hhands]
        constructor
        · intro hsends chunk' hchunk _
          rwa [← Except.ok.inj hchunk]
        · intro h
          exact h chunk rfl hhands
      · refine iff_of_true (.inl ?_) fun chunk' h hhands' => ?_
        · rw [exec_handleFileChunk, hread]
          exact pendingFileTransfers_of_not_handsOver rfl
            (handsOver_beginRequest.not.mpr hhands) socket
        · cases h
          exact absurd hhands' hhands

/-! ### A file of which no chunk is sent -/

/-- The file server does not return any chunks. -/
def noDownload : Environment := { twoUsers with downloadFileChunks := fun _ => [] }

/-- User 1 is connected, and user 7 has announced a file for user 1. -/
def announcedForA : World :=
  ([loginRequest, fileForA].map fun request => Event.request 1 noDownload (lineOf request)).foldl
    (World.step parseTwoUsers) (.start .fresh)

set_option maxRecDepth 2000 in
/-- The transfer is removed although no chunk of its file has been written. -/
theorem handleFileChunk_removes_unsent :
    let w := (exec (handleFileChunk noDownload 2 (.object lastChunk)) announcedForA.beginRequest).2
    announcedForA.pendingFileTransfers = [⟨"0123456789abcdef", 7, 1⟩] ∧
      w.pendingFileTransfers = [] ∧ ¬ announcedForA.RemovesDelivered w := by
  have hread : readChunk (.object lastChunk) = .ok ⟨"0123456789abcdef", "d", 1, true⟩ := rfl
  have hhands : announcedForA.HandsOver noDownload ⟨"0123456789abcdef", "d", 1, true⟩ :=
    ⟨rfl, ⟨rfl, rfl⟩, ⟨"0123456789abcdef", 7, 1⟩, 1, rfl, rfl, rfl⟩
  refine ⟨rfl, rfl, ?_⟩
  rw [removesDelivered_iff_sendsFile hread hhands]
  intro hsends
  exact hsends.nonempty rfl

end Silence.Server
