import Silence.Client.ChunkText
import Silence.FileServer.SizeLimit
import Silence.System.Link

/-!
# Silence.System.FileProgress

A file comes through where nothing stands in its way.

`Silence.System.FileUpload` says what is right when a file has been reported as completed.
This module is about getting there: if the file server has room for the file and every
upload and every write works, then each chunk that is sent can be handled, acknowledged and
followed by the next one (`exists_waitsFor`), up to the report (`exists_completed`).
-/

namespace Silence.System

open Silence.Lib Silence.Lib.Effect
open Silence.Client (Sender Transfer Action Call latestCall chunkOf chunkSize chunkCount
  fileChunkRequest IsSuccessAck IsChunkMessage)
open Silence.Server (Json JsonParser World Environment Event Socket Chunk Brings Observation
  ParsesTexts)

/-! ### What is needed -/

/-- Every upload of the file reaches the file server under its name, and every write works. -/
structure Works (env : Environment) (name : String) : Prop where
  uploadExchange : env.uploadExchange name = .delivered (bytesOf name)
  writeOk : ∀ n, env.writeOk n = true

/-- The chunks can be dumped, and the file server takes them. -/
structure Storable (world : World) (name : String) (content : Bytes) : Prop where
  validName : FileServer.isValidFilename (bytesOf name) = true
  oneSegment : FileServer.slash ∉ bytesOf name
  texts : ∀ n, ValidUtf8 (chunkOf content n).data
  size : content.length ≤ world.fileServer.maxFileSize.toNat

/-- The first `n` chunks of the file are stored. -/
structure HasChunks (world : World) (name : String) (content : Bytes) (n : Nat) : Prop where
  stored : world.fileServer.stored (bytesOf name) = content.take (chunkSize * n)
  lastChunkReceived : (world.uploadState name).lastChunkReceived = UInt64.ofNat n

/-- The clients, the pending transfers and the limit are those of `world`. -/
structure SameClients (world world' : World) : Prop where
  connectedClients : world'.connectedClients = world.connectedClients
  pendingFileTransfers : world'.pendingFileTransfers = world.pendingFileTransfers
  maxFileSize : world'.fileServer.maxFileSize = world.fileServer.maxFileSize

/-- Chunk `n + 1` of the file, as the server reads it. -/
structure IsNext (name : String) (content : Bytes) (n : Nat) (chunk : Chunk) : Prop where
  filename : chunk.filename = name
  chunkData : bytesOf chunk.chunkData = (chunkOf content n).data
  chunkNumber : chunk.chunkNumber = UInt64.ofNat (n + 1)
  isLast : chunk.isLast = (chunkOf content n).isLast

theorem Storable.congr {world world' : World} {name : String} {content : Bytes}
    (h : Storable world name content) (hsame : SameClients world world') :
    Storable world' name content where
  validName := h.validName
  oneSegment := h.oneSegment
  texts := h.texts
  size := by
    rw [hsame.maxFileSize]
    exact h.size

theorem Works.handledAs {env : Environment} {name : String} (h : Works env name)
    (hname : FileServer.slash ∉ bytesOf name) :
    (env.uploadExchange name).handledAs = some ⟨bytesOf name, hname⟩ := by
  rw [h.uploadExchange]
  exact dif_pos hname

theorem Works.handledByName {env : Environment} {chunk : Chunk} (h : Works env chunk.filename) :
    HandledByName env chunk := by
  intro param hparam
  rw [h.uploadExchange] at hparam
  unfold FileServer.Exchange.delivered at hparam
  dsimp only at hparam
  split at hparam
  · obtain rfl := Option.some.inj hparam
    rfl
  · cases hparam

/-! ### The server -/

section Server

variable {world : World} {env : Environment} {name : String} {content : Bytes} {n : Nat}
  {chunk : Chunk}

/-- A chunk of a file that is not too large passes the checks of `upload_file`. -/
theorem Storable.fits (h : Storable world name content) :
    world.fileServer.fits (content.take (chunkSize * n)).length (chunkOf content n).data =
      true := by
  have hsize := h.size
  have hprefix : (content.take (chunkSize * n)).length = min (512 * n) content.length := by
    rw [List.length_take]
    rfl
  have hdata : (chunkOf content n).data.length = min 512 (content.length - 512 * n) := by
    unfold chunkOf
    rw [List.length_take, List.length_drop]
    rfl
  have hchunk : (chunkOf content n).data.length ≤ FileServer.chunkSizeBytes := by
    rw [hdata]
    exact Nat.min_le_left _ _
  have hcovered : (chunkOf content n).data.length ≤ world.fileServer.maxFileSize.toNat := by omega
  unfold FileServer.State.fits FileServer.State.overLimit
  rw [FileServer.toNat_sub_of_covered hchunk hcovered, decide_eq_true hchunk, hprefix,
    decide_eq_false (by omega)]
  rfl

theorem accepts_of_hasChunks (h : HasChunks world name content n)
    (hstorable : Storable world name content) (hworks : Works env name)
    (hnext : IsNext name content n chunk) : world.Accepts env chunk where
  inOrder := by
    rw [hnext.chunkNumber, hnext.filename, h.lastChunkReceived, UInt64.ofNat_add]
    rfl
  uploaded := by
    refine (FileServer.uploadChunk_success_iff ..).mpr
      ⟨?_, ?_, ⟨bytesOf name, hstorable.oneSegment⟩, ?_, ?_⟩
    · rw [hnext.filename, hworks.uploadExchange]
      rfl
    · rw [hnext.filename, hworks.uploadExchange]
      rfl
    · rw [hnext.filename]
      exact hworks.handledAs hstorable.oneSegment
    · unfold FileServer.State.accepts
      rw [hstorable.validName, h.stored, hnext.chunkData, hstorable.fits]
      rfl

/-- Unless it completes a pending transfer, an accepted chunk is only stored. -/
theorem handleChunk_eq_takeChunk (hnone : chunk.isLast = false ∨
    ∀ transfer ∈ world.pendingFileTransfers, transfer.filename ≠ chunk.filename) :
    world.handleChunk env chunk = world.takeChunk env chunk := by
  unfold World.handleChunk
  split
  · rename_i hlast
    rcases hnone with hmore | hnone
    · rw [hlast.1] at hmore
      cases hmore
    · rcases Server.completeTransfer_cases env chunk.filename (world.takeChunk env chunk) with
        ⟨transfer, _, hfind, -⟩ | ⟨-, hsame⟩
      · rw [Server.takeChunk_pendingFileTransfers] at hfind
        have hname : transfer.filename = chunk.filename := by simpa using List.find?_some hfind
        exact absurd hname (hnone transfer (List.mem_of_find?_eq_some hfind))
      · exact hsame
  · rfl

theorem maxFileSize_uploadChunk (server : FileServer.State) (chunkData : Bytes)
    (exchange : FileServer.Exchange) :
    (FileServer.uploadChunk server chunkData exchange).2.maxFileSize = server.maxFileSize := by
  unfold FileServer.uploadChunk
  cases exchange.handledAs with
  | none => rfl
  | some param =>
      have hlimit := FileServer.maxFileSize_receive server ⟨param.name, chunkData, exchange.disk⟩
      unfold FileServer.State.receive at hlimit
      dsimp only at hlimit ⊢
      revert hlimit
      cases server.uploadFile param.name chunkData exchange.disk with
      | none => exact id
      | some answer => exact id

/-- The next chunk is appended to the file, and nothing else happens. -/
theorem HasChunks.handleChunk (h : HasChunks world name content n)
    (hstorable : Storable world name content) (hworks : Works env name)
    (hnext : IsNext name content n chunk) (hnone : chunk.isLast = false ∨
      ∀ transfer ∈ world.pendingFileTransfers, transfer.filename ≠ name) :
    HasChunks (world.handleChunk env chunk) name content (n + 1) ∧
      SameClients world (world.handleChunk env chunk) := by
  obtain rfl := hnext.filename
  have haccepts := accepts_of_hasChunks h hstorable hworks hnext
  have hstored := stored_handleChunk haccepts hworks.handledByName
  have hserver := Server.fileServer_takeChunk_of_accepts haccepts
  rw [handleChunk_eq_takeChunk hnone] at hstored ⊢
  refine ⟨⟨?_, ?_⟩, Server.takeChunk_connectedClients .., Server.takeChunk_pendingFileTransfers ..,
    ?_⟩
  · rw [hstored, h.stored, hnext.chunkData, Client.take_succ_chunkOf]
  · rcases Server.uploadState_takeChunk world env chunk chunk.filename with ⟨hnot, -⟩ | ⟨-, hstate⟩
    · exact absurd haccepts hnot
    · rw [hstate, if_pos rfl]
      exact hnext.chunkNumber
  · rw [hserver]
    exact maxFileSize_uploadChunk ..

/-- The request with the chunk, in the next state of the server. -/
theorem HasChunks.step {parse : JsonParser} {line : Bytes} (h : HasChunks world name content n)
    (hstorable : Storable world name content) (hworks : Works env name)
    (hb : Brings (parse.value line) chunk) (hnext : IsNext name content n chunk)
    (hnone : chunk.isLast = false ∨
      ∀ transfer ∈ world.pendingFileTransfers, transfer.filename ≠ name) (socket : Socket) :
    let world' := world.step parse (.request socket env line)
    HasChunks world' name content (n + 1) ∧ SameClients world world' ∧
      ∃ ack, world'.framesTo socket = [ack] ∧ IsSuccessAck (.object ack) := by
  have hbegin : HasChunks world.beginRequest name content n := ⟨h.stored, h.lastChunkReceived⟩
  have hsame : SameClients world world.beginRequest := ⟨rfl, rfl, rfl⟩
  have haccepts := accepts_of_hasChunks hbegin (hstorable.congr hsame) hworks hnext
  obtain ⟨hchunks, hclients⟩ := hbegin.handleChunk (hstorable.congr hsame) hworks hnext hnone
  intro world'
  have hstep : world' = _ := Server.step_chunk hb socket
  rw [hworks.writeOk] at hstep
  rw [hstep]
  refine ⟨⟨hchunks.stored, hchunks.lastChunkReceived⟩,
    ⟨hclients.connectedClients, hclients.pendingFileTransfers, hclients.maxFileSize⟩,
    world.beginRequest.chunkAnswer env chunk, ?_, Server.isAck_chunkAnswer .., ?_⟩
  · -- storing a chunk writes nothing
    obtain rfl := hnext.filename
    have hlog : (world.beginRequest.handleChunk env chunk).framesTo socket = [] := by
      rw [@handleChunk_eq_takeChunk world.beginRequest env chunk hnone]
      unfold World.framesTo
      rcases Server.takeChunk_log world.beginRequest env chunk with heq | heq
      · rw [heq]
        rfl
      · rw [heq]
        rfl
    unfold World.framesTo at hlog ⊢
    rw [World.recordWrite_log, List.filterMap_append, hlog]
    simp [Observation.frameTo?]
  · exact Server.lookup_status_chunkAnswer.mpr haccepts

end Server

/-! ### The call -/

/-- The call waits for the answer to chunk `n + 1`, and the request with this chunk is all that is
on its way. -/
structure Link.WaitsFor (l : Link) (name : String) (content : Bytes) (n : Nat) : Prop where
  running : l.sender.running = true
  transfer : ∃ transfer, l.sender.transfer = some transfer ∧ transfer.filename = bytesOf name ∧
    transfer.file.content = content ∧ transfer.chunkNumber = n + 1 ∧
      transfer.file.AfterChunks (n + 1)
  call : ∃ actions, latestCall l.sender.trace = some ⟨bytesOf name, content, actions⟩
  pending : ∃ request, l.pending = [request] ∧ fileChunkRequest (bytesOf name)
    (chunkOf content n).data (n + 1) (chunkOf content n).isLast = .ok request
  frames : l.frames = []
  stored : HasChunks l.world name content n

section Call

variable {parse : JsonParser} {system : Crypto.HybridCryptoSystem} {socket : Socket} {l : Link}
  {name : String} {content : Bytes} {n : Nat}

/-- The loop sends the next chunk of a file that can be dumped. -/
theorem waitsFor_sendNext {s : Sender} {transfer : Transfer} (hrunning : s.running = true)
    (hname : transfer.filename = bytesOf name) (hcontent : transfer.file.content = content)
    (hnumber : transfer.chunkNumber = n + 1) (hfile : transfer.file.AfterChunks n)
    (hlt : n < chunkCount content)
    (hcall : ∃ actions, latestCall s.trace = some ⟨bytesOf name, content, actions⟩)
    (hstorable : Storable l.world name content)
    (hhandled : l.handled = s.client.written.length) (hframes : l.frames = [])
    (hstored : HasChunks l.world name content n) :
    Link.WaitsFor { l with sender := s.sendNext transfer } name content n := by
  subst hcontent
  have hcases := sendNext_cases s hnumber hfile
  rw [hname] at hcases
  rcases hcases with ⟨request, transfer', chunkData, isLast, hrequest, hname', hcontent', hnumber',
    hfile', heq⟩ | ⟨hcount, -⟩ | ⟨hnot, -⟩
  · rw [heq]
    obtain ⟨actions, hactions⟩ := hcall
    refine ⟨hrunning, ⟨transfer', rfl, hname', hcontent', hnumber', hfile'⟩,
      ⟨_, Client.latestCall_snoc hactions nofun⟩, ⟨request, ?_, hrequest⟩, hframes, hstored⟩
    show (s.client.written ++ [request]).drop l.handled = [request]
    rw [hhandled, List.drop_left]
  · exact absurd hcount hlt.ne'
  · exact absurd ⟨validUtf8_bytesOf name, hstorable.texts n⟩ hnot

/-- The server can be sent a line with the request, and reads the chunk from it. -/
theorem Link.WaitsFor.exists_line (h : l.WaitsFor name content n) (hparse : ParsesTexts parse)
    (hstorable : Storable l.world name content) (hrange : n + 1 < 2 ^ 64) :
    ∃ request line chunk, l.pending = [request] ∧ parse line = .ok (.object request) ∧
      Brings (.object request) chunk ∧ IsNext name content n chunk := by
  obtain ⟨request, hpending, hrequest⟩ := h.pending
  obtain ⟨text, htext, hdata⟩ := Server.exists_dumpedText (hstorable.texts n)
  have hnumber : (UInt64.ofNat (n + 1)).toNat = n + 1 := UInt64.toNat_ofNat_of_lt' hrange
  obtain ⟨request', hrequest', hmessage⟩ := @Client.fileChunkRequest_of_dumpedText name text _ htext
    (UInt64.ofNat (n + 1)) (chunkOf content n).isLast
  rw [hnumber] at hrequest'
  obtain rfl : request' = request := Except.ok.inj (hrequest'.symm.trans hrequest)
  obtain ⟨line, -, -, hline⟩ := Json.Members.exists_dump hparse hmessage.sorted hmessage.inRange
    hmessage.flat
  have hparsed := hline "" nofun
  exact ⟨request', _, _, hpending, hparsed, hmessage.brings, rfl, hdata, rfl, rfl⟩

theorem guard_serve {env : Environment} {request : Json.Members} {line : Bytes} {chunk : Chunk}
    (hpending : l.pending = [request]) (hline : parse line = .ok (.object request))
    (hb : Brings (.object request) chunk) (hworks : Works env chunk.filename) :
    l.Guard parse socket (.serve env line) := by
  refine ⟨request, [], hpending, hline, fun chunk' hchunk => ?_⟩
  obtain rfl := hb.unique hchunk
  exact hworks.handledByName

/-- A success is handled. -/
theorem deliver_success {frame : Json.Members} {frames : List Json.Members}
    (hframes : l.frames = frame :: frames) (hrunning : l.sender.running = true)
    (hack : IsSuccessAck (.object frame)) :
    l.deliver system = { l with
      sender := { l.sender with
        client := { l.sender.client with chunkAcknowledged := true } }.act
          (.received (.object frame))
      frames := frames } := by
  unfold Link.deliver
  rw [hframes]
  dsimp only
  rw [if_pos hrunning]
  unfold Sender.step
  rw [if_pos hrunning]
  dsimp only
  unfold Sender.receive
  rw [exec_dispatchMessage_success system hack]

/-- The success for chunk `n` has arrived, and nothing is on its way. -/
structure Link.Confirmed (l : Link) (name : String) (content : Bytes) (n : Nat) : Prop where
  running : l.sender.running = true
  transfer : ∃ transfer, l.sender.transfer = some transfer ∧ transfer.filename = bytesOf name ∧
    transfer.file.content = content ∧ transfer.chunkNumber = n ∧ transfer.file.AfterChunks n
  call : ∃ actions, latestCall l.sender.trace = some ⟨bytesOf name, content, actions⟩
  handled : l.handled = l.sender.client.written.length
  frames : l.frames = []
  flag : l.sender.client.chunkAcknowledged = true
  stored : HasChunks l.world name content n

/-- The chunk that the call waits for is handled and acknowledged. -/
theorem Link.WaitsFor.exists_confirmed {start : Link} {history : List (LinkEvent × Link)}
    (h : l.WaitsFor name content n)
    (hrun : Run (Link.step parse system socket) (Link.Guard parse socket) start history l)
    (hparse : ParsesTexts parse) (hstorable : Storable l.world name content)
    (hrange : n + 1 < 2 ^ 64) {env : Environment} (hworks : Works env name)
    (hnone : (chunkOf content n).isLast = false ∨
      ∀ transfer ∈ l.world.pendingFileTransfers, transfer.filename ≠ name) :
    ∃ history' l', Run (Link.step parse system socket) (Link.Guard parse socket) start history' l' ∧
      l'.Confirmed name content (n + 1) ∧ SameClients l.world l'.world := by
  obtain ⟨request, line, chunk, hpending, hline, hb, hnext⟩ :=
    h.exists_line hparse hstorable hrange
  have hb' : Brings (parse.value line) chunk := by rwa [JsonParser.value_of_ok hline]
  rw [← hnext.isLast] at hnone
  obtain ⟨hstored, hsame, ack, hframes, hack⟩ :=
    h.stored.step hstorable hworks hb' hnext hnone socket
  have hguard : l.Guard parse socket (.serve env line) :=
    guard_serve hpending hline hb (by rwa [hnext.filename])
  have hserved := hrun.snoc _ hguard
  have hdelivered := hserved.snoc LinkEvent.deliver trivial
  have hack' : (l.step parse system socket (.serve env line)).frames = [ack] := by
    show l.frames ++ _ = [ack]
    rw [h.frames, hframes]
    rfl
  have hdeliver := @deliver_success system (l.step parse system socket (.serve env line)) ack []
    hack' h.running hack
  obtain ⟨actions, hactions⟩ := h.call
  refine ⟨_, _, hdelivered, ?_⟩
  rw [show Link.step parse system socket _ .deliver = _ from hdeliver]
  refine ⟨⟨h.running, h.transfer, ⟨_, Client.latestCall_snoc hactions nofun⟩, ?_, rfl, rfl,
    hstored⟩, hsame⟩
  have hlength := congrArg List.length hpending
  unfold Link.pending at hlength
  rw [List.length_drop, List.length_singleton] at hlength
  show l.handled + 1 = l.sender.client.written.length
  omega

/-- The call finds the flag set. -/
theorem Link.Confirmed.exists_wake (h : l.Confirmed name content n) :
    ∃ transfer, transfer.filename = bytesOf name ∧ transfer.file.content = content ∧
      transfer.chunkNumber = n + 1 ∧ transfer.file.AfterChunks n ∧
      l.step parse system socket .wake = { l with
        sender := { l.sender with
          client := { l.sender.client with chunkAcknowledged := false } }.sendNext transfer } := by
  obtain ⟨transfer, htransfer, hname, hcontent, hnumber, hfile⟩ := h.transfer
  refine ⟨{ transfer with chunkNumber := transfer.chunkNumber + 1 }, hname, hcontent,
    congrArg (· + 1) hnumber, hfile, ?_⟩
  unfold Link.step Sender.step
  rw [if_pos h.running]
  dsimp only
  unfold Sender.wake
  rw [htransfer]
  dsimp only
  rw [if_pos h.flag]

theorem Link.Confirmed.waitsFor_wake (h : l.Confirmed name content n)
    (hlt : n < chunkCount content) (hstorable : Storable l.world name content) :
    Link.WaitsFor (l.step parse system socket .wake) name content n := by
  obtain ⟨transfer, hname, hcontent, hnumber, hfile, hwake⟩ :=
    @Link.Confirmed.exists_wake parse system socket _ _ _ _ h
  rw [hwake]
  exact waitsFor_sendNext h.running hname hcontent hnumber hfile hlt h.call hstorable h.handled
    h.frames h.stored

/-- Behind the last chunk the file is reported as completed. -/
theorem Link.Confirmed.completed_wake (h : l.Confirmed name content n)
    (hcount : chunkCount content = n) (hstorable : Storable l.world name content) :
    ∃ call, latestCall (l.step parse system socket .wake).sender.trace = some call ∧
      call.filename = bytesOf name ∧ call.content = content ∧ Completed call := by
  obtain ⟨transfer, hname, rfl, hnumber, hfile, hwake⟩ :=
    @Link.Confirmed.exists_wake parse system socket _ _ _ _ h
  obtain ⟨actions, hactions⟩ := h.call
  have hcases := sendNext_cases { l.sender with
    client := { l.sender.client with chunkAcknowledged := false } } hnumber hfile
  rw [hname] at hcases
  rcases hcases with
    ⟨request, transfer', _, _, -, -, hcontent', -, hfile', -⟩ | ⟨-, heq⟩ | ⟨hnot, -⟩
  · -- there is no further chunk
    have hmore := hfile'.nonempty
    rw [hcontent', Nat.add_sub_cancel] at hmore
    unfold chunkCount at hcount
    unfold chunkSize at hcount hmore
    omega
  · rw [hwake, heq]
    refine ⟨_, Client.latestCall_snoc hactions nofun, rfl, rfl, ?_⟩
    exact ⟨_, _, _, List.mem_append_right _ (List.mem_singleton.mpr rfl)⟩
  · exact absurd ⟨validUtf8_bytesOf name, hstorable.texts n⟩ hnot

end Call

/-! ### Runs -/

section Runs

variable {parse : JsonParser} {system : Crypto.HybridCryptoSystem} {socket : Socket}
  {world : World} {name : String} {content : Bytes}

theorem SameClients.trans {world₁ world₂ world₃ : World} (h : SameClients world₁ world₂)
    (h' : SameClients world₂ world₃) : SameClients world₁ world₃ where
  connectedClients := h'.connectedClients.trans h.connectedClients
  pendingFileTransfers := h'.pendingFileTransfers.trans h.pendingFileTransfers
  maxFileSize := h'.maxFileSize.trans h.maxFileSize

/-- The number of a chunk is one of `size_t`. -/
theorem Storable.chunkCount_lt (h : Storable world name content) : chunkCount content < 2 ^ 64 := by
  have hsize := h.size
  have hlimit := world.fileServer.maxFileSize.toNat_lt
  unfold chunkCount chunkSize
  omega

/-- Every chunk of the file is on its way at some time. -/
theorem exists_waitsFor (hparse : ParsesTexts parse) (client : Client.State)
    (hstorable : Storable world name content) (hfresh : HasChunks world name content 0)
    {env : Environment} (hworks : Works env name) {n : Nat} (hn : n < chunkCount content) :
    ∃ history l, Run (Link.step parse system socket) (Link.Guard parse socket)
        (.start client world) history l ∧
      l.WaitsFor name content n ∧ SameClients world l.world := by
  induction n with
  | zero =>
      have hguard : (Link.start client world).Guard parse socket
          (.sendFileChunks (bytesOf name) (some content)) := hfresh.stored
      refine ⟨_, _, Run.nil.snoc _ hguard, ?_, rfl, rfl, rfl⟩
      exact @waitsFor_sendNext (.start client world) name content 0 _
        ⟨⟨content, 0, false⟩, bytesOf name, 1, 0⟩ rfl rfl rfl rfl
        (Client.FileStream.afterChunks_zero content) hn ⟨[], Client.latestCall_started _ _ _⟩
        hstorable rfl rfl hfresh
  | succ n ih =>
      obtain ⟨history, l, hrun, hwaits, hsame⟩ := ih (Nat.lt_of_succ_lt hn)
      have hmore : (chunkOf content n).isLast = false := by
        refine decide_eq_false ?_
        unfold chunkCount at hn
        unfold chunkSize at hn ⊢
        omega
      have hcount := hstorable.chunkCount_lt
      obtain ⟨history', l', hrun', hconfirmed, hsame'⟩ := hwaits.exists_confirmed hrun hparse
        (hstorable.congr hsame) (by omega) hworks (.inl hmore)
      refine ⟨_, _, hrun'.snoc LinkEvent.wake trivial, ?_, hsame.trans hsame'⟩
      exact hconfirmed.waitsFor_wake hn (hstorable.congr (hsame.trans hsame'))

/-- The file is reported as completed at some time. -/
theorem exists_completed (hparse : ParsesTexts parse) (client : Client.State)
    (hstorable : Storable world name content) (hfresh : HasChunks world name content 0)
    {env : Environment} (hworks : Works env name) (hcontent : content ≠ [])
    (hnone : ∀ transfer ∈ world.pendingFileTransfers, transfer.filename ≠ name) :
    ∃ history l call, Run (Link.step parse system socket) (Link.Guard parse socket)
        (.start client world) history l ∧
      latestCall l.sender.trace = some call ∧ call.filename = bytesOf name ∧
        call.content = content ∧ Completed call := by
  have hpos : 0 < content.length := List.length_pos_iff.mpr hcontent
  have hcount := hstorable.chunkCount_lt
  obtain ⟨n, hn⟩ : ∃ n, chunkCount content = n + 1 := by
    refine Nat.exists_eq_succ_of_ne_zero ?_
    unfold chunkCount chunkSize
    omega
  obtain ⟨history, l, hrun, hwaits, hsame⟩ := @exists_waitsFor parse system socket _ _ _ hparse
    client hstorable hfresh _ hworks n (by omega)
  rw [← hsame.pendingFileTransfers] at hnone
  obtain ⟨history', l', hrun', hconfirmed, hsame'⟩ := hwaits.exists_confirmed hrun hparse
    (hstorable.congr hsame) (by omega) hworks (.inr hnone)
  obtain ⟨call, hcall, hname, hsent, hcompleted⟩ := @Link.Confirmed.completed_wake parse system
    socket _ _ _ _ hconfirmed hn (hstorable.congr (hsame.trans hsame'))
  exact ⟨_, _, call, hrun'.snoc LinkEvent.wake trivial, hcall, hname, hsent, hcompleted⟩

end Runs

/-! ### A file of three chunks -/

end Silence.System
