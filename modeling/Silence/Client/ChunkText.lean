import Silence.Client.IncomingFiles
import Silence.Client.SendFile
import Silence.Server.JsonText
import Silence.Server.Runs

/-!
# Silence.Client.ChunkText

The way of the data of a chunk through the text of a message.

A chunk is any bytes, and travels as a JSON string: from `send_file_chunks` to
`handle_file_chunk`, and from `send_file_to_client` to `handle_incoming_file_chunk`.
`dump` only takes valid UTF-8. `chunk_reaches_iff` proves that those chunks arrive as they
were, and no other ones do.
-/

namespace Silence.Client

open Silence.Lib Silence.Lib.Effect
open Server (Json JsonParser frame requestLine dumpedText ParsesTexts dumpedText_bytesOf
  validUtf8_of_dumpedText exists_dumpedText)

/-! ### The message with a chunk -/

/-- The object is a message with the chunk. -/
structure IsChunkMessage (members : Json.Members) (filename chunkData : String) (chunkNumber : Nat)
    (isLast : Bool) : Prop where
  sorted : members.Sorted
  inRange : members.InRange
  flat : ∀ e ∈ members, e.2.scalar?.isSome
  type : members.lookup "type" = some (.string "file_chunk")
  filename : members.lookup "filename" = some (.string filename)
  chunkData : members.lookup "chunk_data" = some (.string chunkData)
  chunkNumber : members.lookup "chunk_number" = some (.number chunkNumber)
  isLast : members.lookup "is_last" = some (.boolean isLast)

/-- The members of the messages of both programs. -/
def chunkMembers (filename chunkData : String) (chunkNumber : Nat) (isLast : Bool) : Json.Members :=
  [("type", .string "file_chunk"), ("filename", .string filename),
    ("chunk_data", .string chunkData), ("chunk_number", .number chunkNumber),
    ("is_last", .boolean isLast)]

/-- In whatever order the members are set. -/
theorem isChunkMessage_ofList {filename chunkData : String} {chunkNumber : Nat} {isLast : Bool}
    (hrange : chunkNumber < 2 ^ 64) {members : Json.Members}
    (hsubset : members ⊆ chunkMembers filename chunkData chunkNumber isLast)
    (hlookup : ∀ e ∈ chunkMembers filename chunkData chunkNumber isLast,
      members.lookup e.1 = some e.2) :
    IsChunkMessage (.ofList members) filename chunkData chunkNumber isLast := by
  have hmem : ∀ e ∈ Json.Members.ofList members,
      e ∈ chunkMembers filename chunkData chunkNumber isLast :=
    fun e he => hsubset (Json.Members.mem_of_mem_ofList he)
  refine ⟨Json.Members.sorted_ofList members, fun key n h => ?_, fun e he => ?_, ?_, ?_, ?_, ?_, ?_⟩
  · have hnumber := hmem _ h
    simp only [chunkMembers, List.mem_cons, Prod.mk.injEq, reduceCtorEq, and_false, false_or,
      Json.number.injEq, List.not_mem_nil, or_false] at hnumber
    omega
  · have hvalue := hmem e he
    simp only [chunkMembers, List.mem_cons, List.not_mem_nil, or_false] at hvalue
    rcases hvalue with rfl | rfl | rfl | rfl | rfl <;> rfl
  all_goals
    rw [Json.lookup_ofList]
    refine hlookup (_, _) ?_
    simp [chunkMembers]

theorem ofInt_toNat (n : UInt64) : UInt64.ofInt (n.toNat : Int) = n := by
  apply UInt64.toNat_inj.mp
  have hlt := n.toNat_lt
  simp only [UInt64.ofInt, UInt64.toNat_ofNat']
  omega

/-- What both programs read from it. -/
theorem IsChunkMessage.brings {members : Json.Members} {filename chunkData : String}
    {chunkNumber : UInt64} {isLast : Bool}
    (h : IsChunkMessage members filename chunkData chunkNumber.toNat isLast) :
    Server.Brings (.object members) ⟨filename, chunkData, chunkNumber, isLast⟩ := by
  have hnumber : Json.member? (.object members) "chunk_number" =
      some (.number chunkNumber.toNat) := h.chunkNumber
  have hlast : Json.member? (.object members) "is_last" = some (.boolean isLast) := h.isLast
  refine ⟨h.type, Json.readString_of_member? h.filename, Json.readString_of_member? h.chunkData,
    ?_, Json.read_of_member? hlast⟩
  rw [Json.readSize, Json.read_of_member? hnumber]
  exact congrArg Except.ok (ofInt_toNat chunkNumber)

/-- The request of `send_file_chunks` for a valid text. -/
theorem fileChunkRequest_of_dumpedText {filename chunkData : String} {bytes : Bytes}
    (h : dumpedText bytes = .ok chunkData) (chunkNumber : UInt64) (isLast : Bool) :
    ∃ request, fileChunkRequest (bytesOf filename) bytes chunkNumber.toNat isLast = .ok request ∧
      IsChunkMessage request filename chunkData chunkNumber.toNat isLast := by
  rw [fileChunkRequest, dumpedText_bytesOf, h]
  refine ⟨_, rfl, isChunkMessage_ofList chunkNumber.toNat_lt (List.Subset.refl _) ?_⟩
  simp [chunkMembers]

/-- The message of `send_file_to_client` for a valid text. -/
theorem sendChunk_of_dumpedText {filename chunkData : String} {bytes : Bytes}
    (h : dumpedText bytes = .ok chunkData) {env : Server.Environment} {w : Server.World}
    (hok : env.writeOk w.writes = true) (socket : Server.Socket) (userId : Int)
    (chunkNumber : UInt64) (isLast : Bool) :
    ∃ message, exec (Server.sendChunk env socket userId filename chunkNumber.toNat bytes isLast) w =
        (.ok true, w.recordWrite (.wrote socket (some userId) message true)) ∧
      IsChunkMessage message filename chunkData chunkNumber.toNat isLast := by
  refine ⟨.ofList [("type", .string "file_chunk"), ("filename", .string filename),
    ("chunk_number", .number chunkNumber.toNat), ("chunk_data", .string chunkData),
    ("is_last", .boolean isLast)], ?_, isChunkMessage_ofList chunkNumber.toNat_lt ?_ ?_⟩
  · rw [Server.sendChunk, h, Server.catchException, exec_tryCatch, exec_bind, exec_attempt]
    dsimp only
    rw [exec_bind, Server.exec_write, hok]
    rfl
  · simp [chunkMembers]
  · simp [chunkMembers]

/-- The client appends the chunk to its file. -/
theorem exec_dispatchMessage_chunk {message : Json} {chunk : Server.Chunk}
    (hb : Server.Brings message chunk) (system : Crypto.HybridCryptoSystem) {client : State}
    {path : Bytes} (hopen : client.incomingFiles.find? chunk.filename = some path) :
    ∃ client', exec (dispatchMessage system message) client = (.ok (), client') ∧
      client'.files path = some ((client.files path).getD [] ++ bytesOf chunk.chunkData) := by
  refine ⟨client.receive (.fileChunk chunk),
    exec_dispatchMessage_frame (frameOf_of_brings hb) system client, ?_⟩
  rw [receive_of_open hopen]
  split
  · exact Function.update_self ..
  · exact Function.update_self ..

/-! ### Both ways -/

/-- The request of `send_file_chunks` is dumped, and the server reads the chunk from its line. -/
def ReachesServer (parse : JsonParser) (filename : String) (data : Bytes)
    (chunkNumber : UInt64) (isLast : Bool) : Prop :=
  ∃ request text, fileChunkRequest (bytesOf filename) data chunkNumber.toNat isLast = .ok request ∧
    request.dump? = some text ∧
    ∃ chunk, Server.Brings (parse.value (requestLine (frame text))) chunk ∧
      chunk.filename = filename ∧ bytesOf chunk.chunkData = data ∧
      chunk.chunkNumber = chunkNumber ∧ chunk.isLast = isLast

/-- The message of `send_file_to_client` is dumped and written, and the client appends the chunk
to its file. -/
def ReachesClient (parse : JsonParser) (env : Server.Environment) (w : Server.World)
    (socket : Server.Socket) (userId : Int) (system : Crypto.HybridCryptoSystem) (client : State)
    (filename : String) (path data : Bytes) (chunkNumber : UInt64) (isLast : Bool) : Prop :=
  ∃ message text, exec (Server.sendChunk env socket userId filename chunkNumber.toNat data isLast)
      w = (.ok true, w.recordWrite (.wrote socket (some userId) message true)) ∧
    message.dump? = some text ∧
    ∃ client', exec (processServerMessage parse system (frame text)) client = (.ok (), client') ∧
      client'.files path = some ((client.files path).getD [] ++ data)

section Reach

variable {parse : JsonParser} {filename : String} {data : Bytes} {chunkNumber : UInt64}
  {isLast : Bool}

theorem exists_dumpedText_of_request {request : Json.Members} {n : Nat} {filename : Bytes}
    (h : fileChunkRequest filename data n isLast = .ok request) :
    ∃ text, dumpedText data = .ok text := by
  obtain ⟨_, -, h⟩ := bind_eq_ok.mp h
  obtain ⟨text, htext, -⟩ := bind_eq_ok.mp h
  exact ⟨text, htext⟩

theorem reachesServer_iff (hparse : ParsesTexts parse) :
    ReachesServer parse filename data chunkNumber isLast ↔ ValidUtf8 data := by
  constructor
  · rintro ⟨request, -, hrequest, -⟩
    obtain ⟨text, htext⟩ := exists_dumpedText_of_request hrequest
    exact validUtf8_of_dumpedText htext
  · intro hvalid
    obtain ⟨chunkData, hdump, hbytes⟩ := exists_dumpedText hvalid
    -- the request is a flat object, so its text is read as it was
    obtain ⟨request, hrequest, hchunk⟩ :=
      @fileChunkRequest_of_dumpedText filename _ _ hdump chunkNumber isLast
    obtain ⟨text, htext, hnewline, hread⟩ :=
      Json.Members.exists_dump hparse hchunk.sorted hchunk.inRange hchunk.flat
    have hline : requestLine (frame text) = text ++ bytesOf "\r" := by
      have hcut := Server.requestLine_frame_append hnewline []
      rwa [List.append_nil] at hcut
    refine ⟨request, text, hrequest, htext, ⟨filename, chunkData, chunkNumber, isLast⟩, ?_, rfl,
      hbytes, rfl, rfl⟩
    rw [hline, JsonParser.value_of_ok (hread "\r" (List.all_eq_true.mp (by decide)))]
    exact hchunk.brings

theorem exists_dumpedText_of_sendChunk {env : Server.Environment} {w w' : Server.World}
    {socket : Server.Socket} {userId : Int} {n : Nat}
    (h : exec (Server.sendChunk env socket userId filename n data isLast) w = (.ok true, w')) :
    ∃ text, dumpedText data = .ok text := by
  cases hdump : dumpedText data with
  | ok text => exact ⟨text, rfl⟩
  | error e =>
      -- the exception is caught, and the loop is left
      rw [Server.sendChunk, hdump, Server.catchException, exec_tryCatch, exec_bind,
        exec_attempt] at h
      dsimp only at h
      cases e <;> cases h

theorem reachesClient_iff (hparse : ParsesTexts parse) {env : Server.Environment}
    {w : Server.World} (hok : env.writeOk w.writes = true) {socket : Server.Socket} {userId : Int}
    {system : Crypto.HybridCryptoSystem} {client : State} {path : Bytes}
    (hopen : client.incomingFiles.find? filename = some path) :
    ReachesClient parse env w socket userId system client filename path data chunkNumber isLast ↔
      ValidUtf8 data := by
  constructor
  · rintro ⟨message, -, hmessage, -⟩
    obtain ⟨text, htext⟩ := exists_dumpedText_of_sendChunk hmessage
    exact validUtf8_of_dumpedText htext
  · intro hvalid
    obtain ⟨chunkData, hdump, hbytes⟩ := exists_dumpedText hvalid
    obtain ⟨message, hmessage, hchunk⟩ :=
      @sendChunk_of_dumpedText filename _ _ hdump _ _ hok socket userId chunkNumber isLast
    obtain ⟨text, htext, -, hread⟩ :=
      Json.Members.exists_dump hparse hchunk.sorted hchunk.inRange hchunk.flat
    -- the client parses the frame with its delimiter, which is white space
    have hparsed : parse (frame text) = .ok (.object message) :=
      hread "\r\n\r\n" (List.all_eq_true.mp (by decide))
    obtain ⟨client', hrun, hfiles⟩ := exec_dispatchMessage_chunk hchunk.brings system hopen
    refine ⟨message, text, hmessage, htext, client', ?_, by rw [hfiles, hbytes]⟩
    rw [processServerMessage, hparsed]
    exact hrun

/-- For all bytes, both ways: the chunk arrives as it is exactly if it is valid UTF-8. -/
theorem chunk_reaches_iff (hparse : ParsesTexts parse) {env : Server.Environment}
    {w : Server.World} (hok : env.writeOk w.writes = true) {socket : Server.Socket} {userId : Int}
    {system : Crypto.HybridCryptoSystem} {client : State} {path : Bytes}
    (hopen : client.incomingFiles.find? filename = some path) :
    (ReachesServer parse filename data chunkNumber isLast ↔ ValidUtf8 data) ∧
      (ReachesClient parse env w socket userId system client filename path data chunkNumber
        isLast ↔ ValidUtf8 data) :=
  ⟨reachesServer_iff hparse, reachesClient_iff hparse hok hopen⟩

end Reach

/-! ### Two chunks -/

/-- A client that receives the file `a`. -/
def receivingClient : State := (State.withKeys .empty).openFile "a"

/-- The path of that file. -/
def receivedPath : Bytes := bytesOf "user_files/a"

/-- The chunk of the text `é` that ends after its first byte. -/
def cutChunk : Bytes := (bytesOf "é").take 1

/-- A chunk that ends inside of a character arrives on neither way. -/
theorem chunk_cut :
    ¬ ReachesServer Server.parseFlat "a" cutChunk 1 false ∧
      ¬ ReachesClient Server.parseFlat .working (.start .fresh) 1 1 (.ofKeys 4 2) receivingClient
        "a" receivedPath cutChunk 1 false := by
  have hcut : ¬ ValidUtf8 cutChunk := by decide +kernel
  have hopen : receivingClient.incomingFiles.find? "a" = some receivedPath := rfl
  exact ⟨fun h => hcut ((reachesServer_iff Server.parsesTexts_parseFlat).mp h),
    fun h => hcut ((reachesClient_iff Server.parsesTexts_parseFlat rfl hopen).mp h)⟩

/-- The whole character, a quotation mark and a newline arrive. -/
theorem chunk_reaches_whole :
    ReachesServer Server.parseFlat "a" (bytesOf "é\"\n") 1 true ∧
      ReachesClient Server.parseFlat .working (.start .fresh) 1 1 (.ofKeys 4 2) receivingClient "a"
        receivedPath (bytesOf "é\"\n") 1 true := by
  have hvalid := validUtf8_bytesOf "é\"\n"
  obtain ⟨hserver, hclient⟩ := @chunk_reaches_iff _ "a" (bytesOf "é\"\n") 1 true
    Server.parsesTexts_parseFlat .working (.start .fresh) rfl 1 1 (.ofKeys 4 2) receivingClient
    receivedPath rfl
  exact ⟨hserver.mpr hvalid, hclient.mpr hvalid⟩

end Silence.Client
