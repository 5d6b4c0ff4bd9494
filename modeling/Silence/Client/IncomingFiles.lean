import Silence.Client.KeySet
import Silence.FileServer.Containment
import Silence.Lib.FileStreams
import Silence.Server.HandlerSpecs

/-!
# Silence.Client.IncomingFiles

The frames of incoming files, and what they do to the files on the disk.

A client opens a file for each name that is announced and writes the chunks of the name
to it, in whatever order the frames of several transfers arrive. Which file a path leads
to is a parameter: different paths may lead to one file, and some cannot be opened.
`received_of_interleaves` says that transfers to different files do not disturb each
other. The proof follows one frame: it advances its own transfer (`Stage.advance`) and
leaves all others where they are (`Stage.congr`).
-/

namespace Silence.Client

open Silence.Lib Silence.Lib.Effect
open Server (Json Chunk)

/-! ### Frames -/

/-- A frame that is about an incoming file. -/
inductive IncomingFrame where
  | notification (filename : String)
  | fileChunk (chunk : Chunk)

def IncomingFrame.filename : IncomingFrame → String
  | .notification filename => filename
  | .fileChunk chunk => chunk.filename

/-- What `handle_incoming_file` reads. -/
def readNotification (notification : Json) : Except Server.Exn String := do
  let filename ← notification.readString "filename"
  let _ ← notification.readInt "sender_id"
  return filename

/-- What `handle_incoming_file_chunk` reads. -/
def readFileChunk (chunkMessage : Json) : Except Server.Exn Chunk := do
  let filename ← chunkMessage.readString "filename"
  let chunkData ← chunkMessage.readString "chunk_data"
  let chunkNumber ← chunkMessage.readSize "chunk_number"
  let isLast ← chunkMessage.readBool "is_last"
  return ⟨filename, chunkData, chunkNumber, isLast⟩

/-- The frame that a message is, if its handler does not throw. -/
def frameOf (message : Json) : Option IncomingFrame :=
  match typeOf message with
  | .error _ => none
  | .ok type =>
      if type.isText "incoming_file" then (readNotification message).toOption.map .notification
      else if type.isText "file_chunk" then (readFileChunk message).toOption.map .fileChunk
      else none

/-- The `chunk_received` message for a chunk. -/
def chunkReceived (chunk : Chunk) : Json.Members :=
  Json.Members.ofList [("type", .string "chunk_received"), ("filename", .string chunk.filename),
    ("chunk_number", .number chunk.chunkNumber.toNat)]

/-- The acknowledgments that are due for a frame. -/
def IncomingFrame.acknowledgments : IncomingFrame → List Json.Members
  | .notification _ => []
  | .fileChunk chunk => [chunkReceived chunk]

/-- The client after a frame. -/
def State.receive (client : State) : IncomingFrame → State
  | .notification filename => client.openFile filename
  | .fileChunk chunk =>
      match client.incomingFiles.find? chunk.filename with
      | none => client
      | some path =>
          let client := client.writeChunk path chunk.filename chunk.chunkData chunk.chunkNumber
          if chunk.isLast then client.closeFile chunk.filename else client

/-! ### The disk -/

/-- The path that a name is opened by. -/
def State.pathOf (client : State) (filename : String) : Bytes :=
  client.userFilesDir ++ bytesOf "/" ++ bytesOf filename

/-- A client and its disk. The streams have the names of the files. -/
structure Receiver (L : Type*) where
  client : State
  disk : FileSystem L String

section

variable {L : Type*} [DecidableEq L] (locate : Bytes → Option L)

/-- What a frame does to the disk. -/
def Receiver.diskAfter (r : Receiver L) : IncomingFrame → FileSystem L String
  | .notification filename =>
      r.disk.openStream filename (locate (r.client.pathOf filename))
  | .fileChunk chunk =>
      match r.client.incomingFiles.find? chunk.filename with
      | none => r.disk
      | some _ =>
          let disk := r.disk.write chunk.filename (bytesOf chunk.chunkData)
          if chunk.isLast then disk.close chunk.filename else disk

def Receiver.receive (r : Receiver L) (frame : IncomingFrame) : Receiver L :=
  ⟨r.client.receive frame, r.diskAfter locate frame⟩

/-- `process_server_message` on a message. -/
def Receiver.handle (system : Crypto.HybridCryptoSystem) (r : Receiver L) (message : Json) :
    Receiver L :=
  ⟨(exec (dispatchMessage system message) r.client).2,
    match frameOf message with
    | none => r.disk
    | some frame => r.diskAfter locate frame⟩

end

/-! ### The handlers -/

theorem frameOf_eq_some {message : Json} {frame : IncomingFrame}
    (h : frameOf message = some frame) :
    (∃ filename, frame = .notification filename ∧ message.HasType "incoming_file" ∧
      readNotification message = .ok filename) ∨
    ∃ chunk, frame = .fileChunk chunk ∧ message.HasType "file_chunk" ∧
      readFileChunk message = .ok chunk := by
  unfold frameOf at h
  cases htype : typeOf message with
  | error e =>
      rw [htype] at h
      cases h
  | ok type =>
      rw [htype] at h
      dsimp only at h
      split at h
      · rename_i htext
        rw [Json.isText_iff.mp htext] at htype
        obtain ⟨filename, hread, hframe⟩ := Option.map_eq_some_iff.mp h
        exact .inl ⟨filename, hframe.symm, typeOf_eq_ok_iff.mp htype, toOption_eq_some_iff.mp hread⟩
      · split at h
        · rename_i htext
          rw [Json.isText_iff.mp htext] at htype
          obtain ⟨chunk, hread, hframe⟩ := Option.map_eq_some_iff.mp h
          exact .inr ⟨chunk, hframe.symm, typeOf_eq_ok_iff.mp htype, toOption_eq_some_iff.mp hread⟩
        · cases h

/-- A message that brings a chunk is the frame of it. -/
theorem frameOf_of_brings {message : Json} {chunk : Chunk} (h : Server.Brings message chunk) :
    frameOf message = some (.fileChunk chunk) := by
  have hread : readFileChunk message = .ok chunk := by
    rw [readFileChunk, h.filename, h.chunkData, h.chunkNumber, h.isLast]
    rfl
  rw [frameOf, typeOf_eq_ok_iff.mpr h.type]
  show (readFileChunk message).toOption.map IncomingFrame.fileChunk = some (.fileChunk chunk)
  rw [hread]
  rfl

theorem exec_handleIncomingFile (notification : Json) (client : State) :
    exec (handleIncomingFile notification) client =
      ((readNotification notification).mapError Failure.json |>.map fun _ => (),
        match readNotification notification with
        | .ok filename => client.openFile filename
        | .error _ => client) := by
  unfold handleIncomingFile readNotification read
  simp only [exec_bind, exec_attempt]
  cases notification.readString "filename" with
  | error e => rfl
  | ok filename => cases notification.readInt "sender_id" <;> rfl

theorem exec_handleIncomingFileChunk (chunkMessage : Json) (client : State) :
    exec (handleIncomingFileChunk chunkMessage) client =
      ((readFileChunk chunkMessage).mapError Failure.json |>.map fun _ => (),
        match readFileChunk chunkMessage with
        | .ok chunk => client.receive (.fileChunk chunk)
        | .error _ => client) := by
  unfold handleIncomingFileChunk readFileChunk read
  simp only [exec_bind, exec_attempt, exec_get]
  cases chunkMessage.readString "filename" with
  | error e => rfl
  | ok filename =>
      cases chunkMessage.readString "chunk_data" with
      | error e => rfl
      | ok chunkData =>
          cases chunkMessage.readSize "chunk_number" with
          | error e => rfl
          | ok chunkNumber =>
              cases chunkMessage.readBool "is_last" with
              | error e => rfl
              | ok isLast =>
                  unfold State.receive
                  simp only [Except.mapError, bind, Except.bind, pure, Except.pure, Except.map]
                  cases client.incomingFiles.find? filename with
                  | none => rfl
                  | some path => cases isLast <;> rfl

/-- The handlers do what the frame says. -/
theorem exec_dispatchMessage_frame {message : Json} {frame : IncomingFrame}
    (h : frameOf message = some frame) (system : Crypto.HybridCryptoSystem) (client : State) :
    exec (dispatchMessage system message) client = (.ok (), client.receive frame) := by
  rcases frameOf_eq_some h with ⟨filename, rfl, htype, hread⟩ | ⟨chunk, rfl, htype, hread⟩
  · have hdispatch : dispatchMessage system message = handleIncomingFile message := by
      rw [dispatchMessage, typeOf_eq_ok_iff.mpr htype]
      rfl
    rw [hdispatch, exec_handleIncomingFile, hread]
    rfl
  · have hdispatch : dispatchMessage system message = handleIncomingFileChunk message := by
      rw [dispatchMessage, typeOf_eq_ok_iff.mpr htype]
      rfl
    rw [hdispatch, exec_handleIncomingFileChunk, hread]
    rfl

section

variable {L : Type*} [DecidableEq L] {locate : Bytes → Option L}

theorem Receiver.handle_of_frame {message : Json} {frame : IncomingFrame}
    (h : frameOf message = some frame) (system : Crypto.HybridCryptoSystem) (r : Receiver L) :
    r.handle locate system message = r.receive locate frame := by
  unfold Receiver.handle Receiver.receive
  rw [exec_dispatchMessage_frame h, h]

/-- Messages that are frames are received one after another. -/
theorem Receiver.foldl_handle {messages : List Json} {frames : List IncomingFrame}
    (h : List.Forall₂ (fun message frame => frameOf message = some frame) messages frames)
    (system : Crypto.HybridCryptoSystem) (r : Receiver L) :
    messages.foldl (Receiver.handle locate system) r =
      frames.foldl (Receiver.receive locate) r := by
  induction h generalizing r with
  | nil => rfl
  | cons hframe _ ih => rw [List.foldl_cons, List.foldl_cons, r.handle_of_frame hframe, ih]

end

/-! ### Transfers -/

/-- A file that is sent, in at least one chunk. -/
structure IncomingTransfer where
  filename : String
  chunks : List (String × UInt64)
  nonempty : chunks ≠ []

/-- The data of chunks. -/
def dataOf (chunks : List (String × UInt64)) : Bytes := chunks.flatMap fun chunk => bytesOf chunk.1

/-- The frames of the chunks, of which the last one says so. -/
def chunkFrames (filename : String) : List (String × UInt64) → List IncomingFrame
  | [] => []
  | chunk :: chunks =>
      .fileChunk ⟨filename, chunk.1, chunk.2, chunks.isEmpty⟩ :: chunkFrames filename chunks

def IncomingTransfer.frames (t : IncomingTransfer) : List IncomingFrame :=
  .notification t.filename :: chunkFrames t.filename t.chunks

/-- The frames are those of the transfers, which have different names: those of each transfer come
in their order. -/
structure Interleaves (transfers : List IncomingTransfer) (frames : List IncomingFrame) : Prop where
  distinct : transfers.Pairwise fun t t' => t.filename ≠ t'.filename
  owned : ∀ frame ∈ frames, ∃ t ∈ transfers, t.filename = frame.filename
  ordered : ∀ t ∈ transfers, frames.filter (·.filename = t.filename) = t.frames

section

variable {L : Type*} [DecidableEq L]

/-- No file is open. -/
structure Receiver.Idle (r : Receiver L) : Prop where
  incomingFiles : ∀ name, r.client.incomingFiles.find? name = none
  stream : ∀ name, r.disk.stream name = none

/-- All files are received: each file that can be opened has the data of its transfer, no other file
is changed, no file is open, and each chunk is acknowledged once. -/
structure Received (locate : Bytes → Option L) (start : Receiver L)
    (transfers : List IncomingTransfer) (frames : List IncomingFrame) (r : Receiver L) : Prop where
  content : ∀ t ∈ transfers, ∀ l, locate (start.client.pathOf t.filename) = some l →
    r.disk.content l = some (dataOf t.chunks)
  others : ∀ l, (∀ t ∈ transfers, locate (start.client.pathOf t.filename) ≠ some l) →
    r.disk.content l = start.disk.content l
  idle : r.Idle
  acknowledged : r.client.written =
    start.client.written ++ frames.flatMap IncomingFrame.acknowledgments

/-! ### One frame -/

/-- A chunk of a file that is not open is ignored. -/
theorem receive_of_closed {client : State} {chunk : Chunk}
    (h : client.incomingFiles.find? chunk.filename = none) :
    client.receive (.fileChunk chunk) = client := by
  simp only [State.receive, h]

theorem receive_of_open {client : State} {chunk : Chunk} {path : Bytes}
    (h : client.incomingFiles.find? chunk.filename = some path) :
    client.receive (.fileChunk chunk) =
      if chunk.isLast then
        (client.writeChunk path chunk.filename chunk.chunkData chunk.chunkNumber).closeFile
          chunk.filename
      else client.writeChunk path chunk.filename chunk.chunkData chunk.chunkNumber := by
  simp only [State.receive, h]

theorem diskAfter_of_closed (locate : Bytes → Option L) {r : Receiver L} {chunk : Chunk}
    (h : r.client.incomingFiles.find? chunk.filename = none) :
    r.diskAfter locate (.fileChunk chunk) = r.disk := by
  simp only [Receiver.diskAfter, h]

theorem diskAfter_of_open (locate : Bytes → Option L) {r : Receiver L} {chunk : Chunk}
    {path : Bytes}
    (h : r.client.incomingFiles.find? chunk.filename = some path) :
    r.diskAfter locate (.fileChunk chunk) =
      if chunk.isLast then
        (r.disk.write chunk.filename (bytesOf chunk.chunkData)).close chunk.filename
      else r.disk.write chunk.filename (bytesOf chunk.chunkData) := by
  simp only [Receiver.diskAfter, h]

variable {locate : Bytes → Option L} {r : Receiver L} {frame : IncomingFrame}

@[simp] theorem pathOf_receive (client : State) (frame : IncomingFrame) (filename : String) :
    (client.receive frame).pathOf filename = client.pathOf filename := by
  cases frame with
  | notification name => rfl
  | fileChunk chunk =>
      cases hopen : client.incomingFiles.find? chunk.filename with
      | none => rw [receive_of_closed hopen]
      | some path =>
          rw [receive_of_open hopen]
          split <;> rfl

theorem find?_receive_of_ne {name : String} (h : name ≠ frame.filename) (client : State) :
    (client.receive frame).incomingFiles.find? name = client.incomingFiles.find? name := by
  cases frame with
  | notification filename => exact OrdMap.find?_insert_ne _ h _
  | fileChunk chunk =>
      have hne : name ≠ chunk.filename := h
      cases hopen : client.incomingFiles.find? chunk.filename with
      | none => rw [receive_of_closed hopen]
      | some path =>
          rw [receive_of_open hopen]
          split
          · exact (OrdMap.find?_eraseFirst_key _ _ _).trans (if_neg hne)
          · rfl

theorem stream_receive_of_ne {name : String} (h : name ≠ frame.filename) :
    (r.receive locate frame).disk.stream name = r.disk.stream name := by
  show (r.diskAfter locate frame).stream name = _
  cases frame with
  | notification filename => exact FileSystem.stream_openStream_of_ne h _
  | fileChunk chunk =>
      have hne : name ≠ chunk.filename := h
      cases hopen : r.client.incomingFiles.find? chunk.filename with
      | none => rw [diskAfter_of_closed _ hopen]
      | some path =>
          rw [diskAfter_of_open _ hopen]
          split
          · rw [FileSystem.stream_close_of_ne hne, FileSystem.stream_write_of_ne hne]
          · rw [FileSystem.stream_write_of_ne hne]

/-- A frame only changes the file of its own name, if the stream of the name writes to it. -/
theorem content_receive_of_ne {l : L}
    (hstream : ∀ s, r.disk.stream frame.filename = some s →
      locate (r.client.pathOf frame.filename) = some s.location)
    (h : locate (r.client.pathOf frame.filename) ≠ some l) :
    (r.receive locate frame).disk.content l = r.disk.content l := by
  show (r.diskAfter locate frame).content l = _
  cases frame with
  | notification filename => exact FileSystem.content_openStream_of_ne h
  | fileChunk chunk =>
      have hother : ∀ s, r.disk.stream chunk.filename = some s → s.location ≠ l := by
        intro s hs hsame
        exact h (hsame ▸ hstream s hs)
      cases hopen : r.client.incomingFiles.find? chunk.filename with
      | none => rw [diskAfter_of_closed _ hopen]
      | some path =>
          rw [diskAfter_of_open _ hopen]
          split
          · rw [FileSystem.content_close, FileSystem.content_write_of_ne hother]
          · rw [FileSystem.content_write_of_ne hother]

/-! ### The stages of a transfer -/

/-- The file of a name is open, and has the data so far. -/
structure Receiver.Writing (locate : Bytes → Option L) (r : Receiver L) (filename : String)
    (data : Bytes) : Prop where
  file : (r.client.incomingFiles.find? filename).isSome
  stream : r.disk.stream filename =
    (locate (r.client.pathOf filename)).map fun l => ⟨l, data.length⟩
  content : ∀ l, locate (r.client.pathOf filename) = some l → r.disk.content l = some data

/-- How far a transfer is, when these frames of it are still to come. -/
inductive Stage (locate : Bytes → Option L) (r : Receiver L) (t : IncomingTransfer)
    (rest : List IncomingFrame) : Prop where
  | waiting (hrest : rest = t.frames)
      (hfile : r.client.incomingFiles.find? t.filename = none)
      (hstream : r.disk.stream t.filename = none)
  | sending (sent remaining : List (String × UInt64)) (hchunks : t.chunks = sent ++ remaining)
      (hrest : rest = chunkFrames t.filename remaining) (hremaining : remaining ≠ [])
      (hwriting : r.Writing locate t.filename (dataOf sent))
  | finished (hrest : rest = [])
      (hfile : r.client.incomingFiles.find? t.filename = none)
      (hstream : r.disk.stream t.filename = none)
      (hcontent : ∀ l, locate (r.client.pathOf t.filename) = some l →
        r.disk.content l = some (dataOf t.chunks))

variable {t : IncomingTransfer} {rest : List IncomingFrame}

omit [DecidableEq L] in
/-- The stream of a transfer writes to the file of its name. -/
theorem Stage.located (h : Stage locate r t rest) {s : OutputStream L}
    (hs : r.disk.stream t.filename = some s) :
    locate (r.client.pathOf t.filename) = some s.location := by
  cases h with
  | waiting _ _ hstream =>
      rw [hstream] at hs
      cases hs
  | sending sent _ _ _ _ hwriting =>
      rw [hwriting.stream] at hs
      obtain ⟨l, hl, rfl⟩ := Option.map_eq_some_iff.mp hs
      exact hl
  | finished _ _ hstream _ =>
      rw [hstream] at hs
      cases hs

omit [DecidableEq L] in
/-- A stage only depends on the entry, the stream and the file of its name. -/
theorem Stage.congr (h : Stage locate r t rest) {r' : Receiver L}
    (hpath : r'.client.pathOf t.filename = r.client.pathOf t.filename)
    (hfile : r'.client.incomingFiles.find? t.filename = r.client.incomingFiles.find? t.filename)
    (hstream : r'.disk.stream t.filename = r.disk.stream t.filename)
    (hcontent : ∀ l, locate (r.client.pathOf t.filename) = some l →
      r'.disk.content l = r.disk.content l) : Stage locate r' t rest := by
  have hkept : ∀ data, (∀ l, locate (r.client.pathOf t.filename) = some l →
      r.disk.content l = some data) →
      ∀ l, locate (r'.client.pathOf t.filename) = some l → r'.disk.content l = some data := by
    intro data hdata l hl
    rw [hpath] at hl
    rw [hcontent l hl, hdata l hl]
  cases h with
  | waiting hrest hfile' hstream' =>
      exact .waiting hrest (hfile.trans hfile') (hstream.trans hstream')
  | sending sent remaining hchunks hrest hremaining hwriting =>
      refine .sending sent remaining hchunks hrest hremaining ⟨hfile ▸ hwriting.file, ?_,
        hkept _ hwriting.content⟩
      rw [hpath, hstream, hwriting.stream]
  | finished hrest hfile' hstream' hcontent' =>
      exact .finished hrest (hfile.trans hfile') (hstream.trans hstream') (hkept _ hcontent')

@[simp] theorem dataOf_append (chunks chunks' : List (String × UInt64)) :
    dataOf (chunks ++ chunks') = dataOf chunks ++ dataOf chunks' := List.flatMap_append

@[simp] theorem dataOf_singleton (chunk : String × UInt64) : dataOf [chunk] = bytesOf chunk.1 :=
  List.flatMap_singleton ..

/-- The notification opens the file. -/
theorem writing_receive_notification (locate : Bytes → Option L) (r : Receiver L)
    (filename : String) :
    (r.receive locate (.notification filename)).Writing locate filename [] where
  file := by
    show ((r.client.incomingFiles.insert filename _).find? filename).isSome
    rw [OrdMap.find?_insert_self, Option.isSome_some]
  stream := FileSystem.stream_openStream _
  content := by
    intro l hl
    show (r.disk.openStream filename (locate (r.client.pathOf filename))).content l = some []
    rw [show locate (r.client.pathOf filename) = some l from hl, FileSystem.content_openStream]

/-- A chunk is appended to an open file. -/
theorem content_write_of_writing {filename : String} {data : Bytes}
    (h : r.Writing locate filename data) (chunkData : Bytes) {l : L}
    (hl : locate (r.client.pathOf filename) = some l) :
    (r.disk.write filename chunkData).content l = some (data ++ chunkData) := by
  have hstream : r.disk.stream filename = some ⟨l, data.length⟩ := by
    rw [h.stream, hl, Option.map_some]
  exact FileSystem.content_write hstream (h.content l hl) chunkData

/-- A chunk that is not the last one leaves the file open. -/
theorem Receiver.Writing.append (chunk : Chunk) {data : Bytes}
    (h : r.Writing locate chunk.filename data) (hlast : chunk.isLast = false) :
    (r.receive locate (.fileChunk chunk)).Writing locate chunk.filename
      (data ++ bytesOf chunk.chunkData) := by
  obtain ⟨path, hopen⟩ := Option.isSome_iff_exists.mp h.file
  have hclient : (r.receive locate (.fileChunk chunk)).client =
      r.client.writeChunk path chunk.filename chunk.chunkData chunk.chunkNumber := by
    refine (receive_of_open hopen).trans ?_
    simp [hlast]
  have hdisk : (r.receive locate (.fileChunk chunk)).disk =
      r.disk.write chunk.filename (bytesOf chunk.chunkData) := by
    refine (diskAfter_of_open locate hopen).trans ?_
    simp [hlast]
  have hpath : (r.receive locate (.fileChunk chunk)).client.pathOf chunk.filename =
      r.client.pathOf chunk.filename := pathOf_receive _ _ _
  refine ⟨?_, ?_, ?_⟩
  · rw [hclient]
    exact h.file
  · rw [hdisk, hpath, FileSystem.stream_write, h.stream, Option.map_map, List.length_append]
    rfl
  · intro l hl
    rw [hpath] at hl
    rw [hdisk, content_write_of_writing h _ hl]

/-- The last chunk closes the file. -/
theorem Receiver.Writing.finish (chunk : Chunk) {data : Bytes}
    (h : r.Writing locate chunk.filename data) (hlast : chunk.isLast = true) :
    (r.receive locate (.fileChunk chunk)).client.incomingFiles.find? chunk.filename = none ∧
      (r.receive locate (.fileChunk chunk)).disk.stream chunk.filename = none ∧
      ∀ l, locate ((r.receive locate (.fileChunk chunk)).client.pathOf chunk.filename) = some l →
        (r.receive locate (.fileChunk chunk)).disk.content l =
          some (data ++ bytesOf chunk.chunkData) := by
  obtain ⟨path, hopen⟩ := Option.isSome_iff_exists.mp h.file
  have hclient : (r.receive locate (.fileChunk chunk)).client =
      (r.client.writeChunk path chunk.filename chunk.chunkData chunk.chunkNumber).closeFile
        chunk.filename := by
    refine (receive_of_open hopen).trans ?_
    simp [hlast]
  have hdisk : (r.receive locate (.fileChunk chunk)).disk =
      (r.disk.write chunk.filename (bytesOf chunk.chunkData)).close chunk.filename := by
    refine (diskAfter_of_open locate hopen).trans ?_
    simp [hlast]
  have hpath : (r.receive locate (.fileChunk chunk)).client.pathOf chunk.filename =
      r.client.pathOf chunk.filename := pathOf_receive _ _ _
  refine ⟨?_, ?_, ?_⟩
  · rw [hclient]
    exact (OrdMap.find?_eraseFirst_key _ _ _).trans (if_pos rfl)
  · rw [hdisk, FileSystem.stream_close]
  · intro l hl
    rw [hpath] at hl
    rw [hdisk, FileSystem.content_close, content_write_of_writing h _ hl]

/-- A chunk of an open file is acknowledged. -/
theorem written_receive {chunk : Chunk} {data : Bytes}
    (h : r.Writing locate chunk.filename data) :
    (r.receive locate (.fileChunk chunk)).client.written =
      r.client.written ++ [chunkReceived chunk] := by
  obtain ⟨path, hopen⟩ := Option.isSome_iff_exists.mp h.file
  show (r.client.receive (.fileChunk chunk)).written = _
  rw [receive_of_open hopen]
  split <;> rfl

/-- The next frame of a transfer advances it. -/
theorem Stage.advance (h : Stage locate r t (frame :: rest)) :
    Stage locate (r.receive locate frame) t rest ∧
      (r.receive locate frame).client.written = r.client.written ++ frame.acknowledgments := by
  cases h with
  | waiting hrest _ _ =>
      obtain ⟨rfl, rfl⟩ := List.cons.inj hrest
      exact ⟨.sending [] t.chunks rfl rfl t.nonempty (writing_receive_notification locate r _),
        (List.append_nil _).symm⟩
  | sending sent remaining hchunks hrest hremaining hwriting =>
      cases remaining with
      | nil => exact absurd rfl hremaining
      | cons chunk remaining =>
          obtain ⟨rfl, rfl⟩ := List.cons.inj hrest
          refine ⟨?_, written_receive hwriting⟩
          have hdata : dataOf (sent ++ [chunk]) = dataOf sent ++ bytesOf chunk.1 := by simp
          cases remaining with
          | nil =>
              obtain ⟨hfile, hstream, hcontent⟩ :=
                Receiver.Writing.finish ⟨t.filename, chunk.1, chunk.2, true⟩ hwriting rfl
              rw [← hdata, ← hchunks] at hcontent
              exact .finished rfl hfile hstream hcontent
          | cons chunk' remaining =>
              have hnext :=
                Receiver.Writing.append ⟨t.filename, chunk.1, chunk.2, false⟩ hwriting rfl
              rw [← hdata] at hnext
              exact .sending (sent ++ [chunk]) (chunk' :: remaining) (by simp [hchunks]) rfl
                (List.cons_ne_nil _ _) hnext
  | finished hrest _ _ _ => cases hrest

/-! ### Runs -/

/-- No two of the transfers are to one file. -/
def DifferentFiles (locate : Bytes → Option L) (client : State)
    (transfers : List IncomingTransfer) : Prop :=
  transfers.Pairwise fun t t' => ∀ l, locate (client.pathOf t.filename) = some l →
    locate (client.pathOf t'.filename) ≠ some l

variable {transfers : List IncomingTransfer}

omit [DecidableEq L] in
theorem DifferentFiles.ne {client : State} (h : DifferentFiles locate client transfers)
    {t t' : IncomingTransfer} (ht : t ∈ transfers) (ht' : t' ∈ transfers)
    (hname : t'.filename ≠ t.filename) {l : L} (hl : locate (client.pathOf t'.filename) = some l) :
    locate (client.pathOf t.filename) ≠ some l := by
  have hsymm : Std.Symm fun t t' : IncomingTransfer => ∀ l,
      locate (client.pathOf t.filename) = some l → locate (client.pathOf t'.filename) ≠ some l :=
    ⟨fun _ _ hne l hl hl' => hne l hl' hl⟩
  have hne : t' ≠ t := fun hsame => hname (hsame ▸ rfl)
  exact h.forall ht' ht hne l hl

theorem DifferentFiles.receive (h : DifferentFiles locate r.client transfers)
    (frame : IncomingFrame) : DifferentFiles locate (r.receive locate frame).client transfers := by
  have hpath : ∀ filename, (r.receive locate frame).client.pathOf filename =
      r.client.pathOf filename := pathOf_receive _ _
  unfold DifferentFiles at h ⊢
  simpa only [hpath] using h

/-- A frame advances its transfer, leaves the other ones where they are, and does not change a file
that none of them is to. -/
theorem stages_receive (hfiles : DifferentFiles locate r.client transfers)
    {rest : List IncomingFrame} (ht : t ∈ transfers) (hname : t.filename = frame.filename)
    (hstages : ∀ t ∈ transfers,
      Stage locate r t ((frame :: rest).filter (·.filename = t.filename))) :
    (∀ t ∈ transfers,
      Stage locate (r.receive locate frame) t (rest.filter (·.filename = t.filename))) ∧
    (r.receive locate frame).client.written = r.client.written ++ frame.acknowledgments ∧
    ∀ l, (∀ t ∈ transfers, locate (r.client.pathOf t.filename) ≠ some l) →
      (r.receive locate frame).disk.content l = r.disk.content l := by
  have hown := hstages t ht
  rw [List.filter_cons_of_pos (by simp [hname])] at hown
  obtain ⟨hadvanced, hwritten⟩ := hown.advance
  have hlocated : ∀ s, r.disk.stream frame.filename = some s →
      locate (r.client.pathOf frame.filename) = some s.location := by
    intro s hs
    rw [← hname] at hs ⊢
    exact hown.located hs
  refine ⟨?_, hwritten, ?_⟩
  · intro t' ht'
    have hother := hstages t' ht'
    by_cases hsame : t'.filename = frame.filename
    · rw [List.filter_cons_of_pos (by simp [hsame])] at hother
      exact hother.advance.1
    · rw [List.filter_cons_of_neg (by simpa using Ne.symm hsame)] at hother
      have hne : t'.filename ≠ t.filename := fun h => hsame (h.trans hname)
      refine hother.congr (pathOf_receive _ _ _) (find?_receive_of_ne hsame _)
        (stream_receive_of_ne hsame) ?_
      intro l hl
      refine content_receive_of_ne hlocated ?_
      rw [← hname]
      exact hfiles.ne ht ht' hne hl
  · intro l hl
    refine content_receive_of_ne hlocated ?_
    rw [← hname]
    exact hl t ht

/-- After all frames every transfer is finished, every chunk is acknowledged, and no other file is
changed. -/
theorem stages_run {frames : List IncomingFrame}
    (hfiles : DifferentFiles locate r.client transfers)
    (howned : ∀ frame ∈ frames, ∃ t ∈ transfers, t.filename = frame.filename)
    (hstages : ∀ t ∈ transfers, Stage locate r t (frames.filter (·.filename = t.filename))) :
    (∀ t ∈ transfers, Stage locate (frames.foldl (Receiver.receive locate) r) t []) ∧
    (frames.foldl (Receiver.receive locate) r).client.written =
      r.client.written ++ frames.flatMap IncomingFrame.acknowledgments ∧
    ∀ l, (∀ t ∈ transfers, locate (r.client.pathOf t.filename) ≠ some l) →
      (frames.foldl (Receiver.receive locate) r).disk.content l = r.disk.content l := by
  induction frames generalizing r with
  | nil => exact ⟨hstages, (List.append_nil _).symm, fun _ _ => rfl⟩
  | cons frame rest ih =>
      obtain ⟨⟨t, ht, hname⟩, hrest⟩ := List.forall_mem_cons.mp howned
      obtain ⟨hnext, hwritten, hcontent⟩ := stages_receive hfiles ht hname hstages
      obtain ⟨hfinal, hall, hcontents⟩ := ih (hfiles.receive frame) hrest hnext
      refine ⟨hfinal, ?_, ?_⟩
      · rw [List.foldl_cons, hall, hwritten, List.flatMap_cons, List.append_assoc]
      · intro l hl
        have hl' : ∀ t ∈ transfers,
            locate ((r.receive locate frame).client.pathOf t.filename) ≠ some l := by
          intro t ht
          rw [show (r.receive locate frame).client.pathOf t.filename = r.client.pathOf t.filename
            from pathOf_receive _ _ _]
          exact hl t ht
        rw [List.foldl_cons, hcontents l hl', hcontent l hl]

/-- What no frame is about stays as it is. -/
theorem foldl_receive_of_ne {frames : List IncomingFrame} {name : String}
    (h : ∀ frame ∈ frames, name ≠ frame.filename) :
    (frames.foldl (Receiver.receive locate) r).client.incomingFiles.find? name =
        r.client.incomingFiles.find? name ∧
      (frames.foldl (Receiver.receive locate) r).disk.stream name = r.disk.stream name := by
  induction frames generalizing r with
  | nil => exact ⟨rfl, rfl⟩
  | cons frame rest ih =>
      obtain ⟨hne, hrest⟩ := List.forall_mem_cons.mp h
      obtain ⟨hfile, hstream⟩ := @ih (r.receive locate frame) hrest
      rw [List.foldl_cons, hfile, hstream]
      exact ⟨find?_receive_of_ne hne _, stream_receive_of_ne hne⟩

theorem chunkFrames_eq_nil {filename : String} {chunks : List (String × UInt64)}
    (h : chunkFrames filename chunks = []) : chunks = [] := by
  cases chunks with
  | nil => rfl
  | cons chunk chunks => cases h

omit [DecidableEq L] in
/-- A transfer without frames to come is finished. -/
theorem Stage.of_nil (h : Stage locate r t []) :
    r.client.incomingFiles.find? t.filename = none ∧ r.disk.stream t.filename = none ∧
      ∀ l, locate (r.client.pathOf t.filename) = some l →
        r.disk.content l = some (dataOf t.chunks) := by
  cases h with
  | waiting hrest _ _ => cases hrest
  | sending _ _ _ hrest hremaining _ => exact absurd (chunkFrames_eq_nil hrest.symm) hremaining
  | finished _ hfile hstream hcontent => exact ⟨hfile, hstream, hcontent⟩

theorem pathOf_foldl_receive (frames : List IncomingFrame) (filename : String) :
    (frames.foldl (Receiver.receive locate) r).client.pathOf filename =
      r.client.pathOf filename := by
  induction frames generalizing r with
  | nil => rfl
  | cons frame rest ih =>
      rw [List.foldl_cons, ih]
      exact pathOf_receive _ _ _

theorem received_of_idle (hidle : r.Idle) {frames : List IncomingFrame}
    (hinterleaves : Interleaves transfers frames)
    (hfiles : DifferentFiles locate r.client transfers) :
    Received locate r transfers frames (frames.foldl (Receiver.receive locate) r) := by
  have hstages : ∀ t ∈ transfers,
      Stage locate r t (frames.filter (·.filename = t.filename)) := fun t ht =>
    .waiting (hinterleaves.ordered t ht) (hidle.incomingFiles _) (hidle.stream _)
  obtain ⟨hfinal, hwritten, hothers⟩ := stages_run hfiles hinterleaves.owned hstages
  have hclosed : ∀ name,
      (frames.foldl (Receiver.receive locate) r).client.incomingFiles.find? name = none ∧
        (frames.foldl (Receiver.receive locate) r).disk.stream name = none := by
    intro name
    by_cases hname : ∃ t ∈ transfers, t.filename = name
    · obtain ⟨t, ht, rfl⟩ := hname
      exact ⟨(hfinal t ht).of_nil.1, (hfinal t ht).of_nil.2.1⟩
    · have hother : ∀ frame ∈ frames, name ≠ frame.filename := by
        intro frame hframe hsame
        obtain ⟨t, ht, htname⟩ := hinterleaves.owned frame hframe
        exact hname ⟨t, ht, htname.trans hsame.symm⟩
      obtain ⟨hfile, hstream⟩ := @foldl_receive_of_ne _ _ locate r _ _ hother
      exact ⟨hfile.trans (hidle.incomingFiles _), hstream.trans (hidle.stream _)⟩
  refine ⟨?_, hothers, ⟨fun name => (hclosed name).1, fun name => (hclosed name).2⟩, hwritten⟩
  intro t ht l hl
  refine (hfinal t ht).of_nil.2.2 l ?_
  rw [pathOf_foldl_receive]
  exact hl

/-- Transfers to different files are received, in whatever order their frames arrive. -/
theorem received_of_interleaves (locate : Bytes → Option L) (system : Crypto.HybridCryptoSystem)
    {start : Receiver L} (hidle : start.Idle) {messages : List Json} {frames : List IncomingFrame}
    (hframes : List.Forall₂ (fun message frame => frameOf message = some frame) messages frames)
    {transfers : List IncomingTransfer} (hinterleaves : Interleaves transfers frames)
    (hfiles : DifferentFiles locate start.client transfers) :
    Received locate start transfers frames
      (messages.foldl (Receiver.handle locate system) start) := by
  rw [Receiver.foldl_handle hframes]
  exact received_of_idle hidle hinterleaves hfiles

end

/-! ### Two names of one file -/

/-- The file at the position of a path, where there are no symbolic links. -/
def locateIn (cwd : List Bytes) (path : Bytes) : Option (List Bytes) :=
  some (FileServer.position cwd (cString path))

/-- A client that works in the root directory, with an empty disk. -/
def idleReceiver : Receiver (List Bytes) :=
  ⟨State.withKeys .empty, ⟨fun _ => none, fun _ => none⟩⟩

theorem idleReceiver_idle : idleReceiver.Idle := ⟨fun _ => rfl, fun _ => rfl⟩

def notificationMessage (filename : String) : Json :=
  .object [("filename", .string filename), ("sender_id", .number 1),
    ("type", .string "incoming_file")]

def chunkMessage (filename chunkData : String) (chunkNumber : Int) (isLast : Bool) : Json :=
  .object [("chunk_data", .string chunkData), ("chunk_number", .number chunkNumber),
    ("filename", .string filename), ("is_last", .boolean isLast), ("type", .string "file_chunk")]

/-- Transfers of one and of two chunks. -/
def shortTransfer (filename : String) : IncomingTransfer :=
  ⟨filename, [("y", 0)], List.cons_ne_nil _ _⟩

def longTransfer (filename : String) : IncomingTransfer :=
  ⟨filename, [("x", 0), ("x", 1)], List.cons_ne_nil _ _⟩

/-- Both files are opened before the chunks come. -/
def interleavedFrames (filename : String) : List IncomingFrame := [
  .notification "a", .notification filename, .fileChunk ⟨"a", "x", 0, false⟩,
  .fileChunk ⟨"a", "x", 1, true⟩, .fileChunk ⟨filename, "y", 0, true⟩]

/-- The system of the keys does not matter here. -/
def anySystem : Crypto.HybridCryptoSystem := .ofKeys 4 2

def interleavedMessages (filename : String) : List Json := [
  notificationMessage "a", notificationMessage filename, chunkMessage "a" "x" 0 false,
  chunkMessage "a" "x" 1 true, chunkMessage filename "y" 0 true]

theorem frameOf_interleavedMessages (filename : String) :
    List.Forall₂ (fun message frame => frameOf message = some frame)
      (interleavedMessages filename) (interleavedFrames filename) :=
  .cons rfl (.cons rfl (.cons rfl (.cons rfl (.cons rfl .nil))))

theorem interleaves_interleavedFrames {filename : String} (h : filename ≠ "a") :
    Interleaves [longTransfer "a", shortTransfer filename] (interleavedFrames filename) where
  distinct := by simpa [longTransfer, shortTransfer] using Ne.symm h
  owned := by simp [interleavedFrames, longTransfer, shortTransfer, IncomingFrame.filename]
  ordered := by
    simp [interleavedFrames, longTransfer, shortTransfer, IncomingFrame.filename,
      IncomingTransfer.frames, chunkFrames, h, Ne.symm h]

/-- The names `a` and `./a` are different, but their transfers overwrite each other. -/
theorem sameFile_overwritten :
    Interleaves [longTransfer "a", shortTransfer "./a"] (interleavedFrames "./a") ∧
      List.Forall₂ (fun message frame => frameOf message = some frame)
        (interleavedMessages "./a") (interleavedFrames "./a") ∧
      ((interleavedMessages "./a").foldl (Receiver.handle (locateIn []) anySystem)
        idleReceiver).disk.content [bytesOf "user_files", bytesOf "a"] = some (bytesOf "yx") ∧
      ¬ Received (locateIn []) idleReceiver [longTransfer "a", shortTransfer "./a"]
        (interleavedFrames "./a")
        ((interleavedMessages "./a").foldl (Receiver.handle (locateIn []) anySystem)
          idleReceiver) := by
  have hcontent : ((interleavedMessages "./a").foldl
      (Receiver.handle (locateIn []) anySystem) idleReceiver).disk.content
      [bytesOf "user_files", bytesOf "a"] = some (bytesOf "yx") := by
    rw [Receiver.foldl_handle (frameOf_interleavedMessages "./a")]
    decide
  refine ⟨interleaves_interleavedFrames (by decide), frameOf_interleavedMessages _, hcontent, ?_⟩
  intro h
  have hshort := h.content (shortTransfer "./a") (by simp) [bytesOf "user_files", bytesOf "a"]
    (by decide)
  rw [hcontent] at hshort
  exact absurd hshort (by decide)

/-- The names `a` and `b` are those of two files. -/
theorem twoFiles_received :
    Received (locateIn []) idleReceiver [longTransfer "a", shortTransfer "b"]
      (interleavedFrames "b")
      ((interleavedMessages "b").foldl (Receiver.handle (locateIn []) anySystem)
        idleReceiver) := by
  refine received_of_interleaves (locateIn []) _ idleReceiver_idle
    (frameOf_interleavedMessages "b") (interleaves_interleavedFrames (by decide)) ?_
  refine List.pairwise_cons.mpr ⟨?_, List.pairwise_singleton _ _⟩
  intro t ht l hl hl'
  obtain rfl := List.mem_singleton.mp ht
  have hsame := hl.trans hl'.symm
  exact absurd hsame (by decide)

end Silence.Client
