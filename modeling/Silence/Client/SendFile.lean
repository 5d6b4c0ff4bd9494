import Silence.Client.Client

/-!
# Silence.Client.SendFile

`Client::send_file_chunks` and the messages that arrive while it runs.

The thread of the user reads a file in chunks, hands each to `async_write` and waits
for `_chunk_acknowledged`, for five seconds at most. The threads of the `io_service`
set this flag. An event is what one of them does next, or that the time is over, so a
list of events is one order in which they can meet.
-/

namespace Silence.Client

open Silence.Lib Silence.Lib.Effect
open Server (Json)

/-! ### Reading a file -/

/-- A `std::ifstream`; a read that ends before it has all its bytes sets its `eofbit` and its
`failbit`. -/
structure FileStream where
  content : Bytes
  position : Nat
  eof : Bool
  deriving DecidableEq, Repr

/-- `file.read(buffer, n)`: the bytes that were read. -/
def FileStream.read (file : FileStream) (n : Nat) : Bytes × FileStream :=
  let bytes := (file.content.drop file.position).take n
  (bytes, { file with position := file.position + bytes.length, eof := bytes.length < n })

def chunkSize : Nat := 512

/-- The number of chunks of a file. -/
def chunkCount (content : Bytes) : Nat := (content.length + (chunkSize - 1)) / chunkSize

/-- The state of a stream after `n` reads, the last of which found something. -/
structure FileStream.AfterChunks (file : FileStream) (n : Nat) : Prop where
  position : file.position = min (chunkSize * n) file.content.length
  eof : file.eof = decide (file.content.length < chunkSize * n)
  nonempty : n = 0 ∨ chunkSize * (n - 1) < file.content.length

namespace FileStream

theorem afterChunks_zero (content : Bytes) : AfterChunks ⟨content, 0, false⟩ 0 where
  position := by simp
  eof := by simp
  nonempty := .inl rfl

theorem length_read (file : FileStream) (n : Nat) :
    (file.read n).1.length = min n (file.content.length - file.position) := by
  rw [read, List.length_take, List.length_drop]

/-- The loop ends behind the last chunk. -/
theorem AfterChunks.chunkCount_eq {file : FileStream} {n : Nat} (h : file.AfterChunks n)
    (hend : file.eof = true ∨ (file.read chunkSize).1.length = 0) :
    chunkCount file.content = n := by
  have hposition := h.position
  have hnonempty := h.nonempty
  have hle : file.content.length ≤ chunkSize * n := by
    rcases hend with heof | hnone
    · rw [h.eof, decide_eq_true_eq] at heof
      exact heof.le
    · rw [length_read, hposition] at hnone
      simp only [chunkSize] at hnone ⊢
      omega
  simp only [chunkCount, chunkSize] at hle hnonempty ⊢
  omega

/-- A read that finds something has one chunk more behind it. -/
theorem AfterChunks.read {file : FileStream} {n : Nat} (h : file.AfterChunks n)
    (hsome : (file.read chunkSize).1.length ≠ 0) : (file.read chunkSize).2.AfterChunks (n + 1) := by
  have hposition := h.position
  have hlength := length_read file chunkSize
  rw [hlength, hposition] at hsome
  rw [hposition] at hlength
  have hnext : (file.read chunkSize).2 = { file with
    position := file.position + (file.read chunkSize).1.length
    eof := (file.read chunkSize).1.length < chunkSize } := rfl
  rw [hnext, hlength]
  refine ⟨?_, ?_, .inr ?_⟩
  all_goals
    simp only [chunkSize] at hsome hposition ⊢
  · omega
  · exact decide_eq_decide.mpr (by omega)
  · omega

end FileStream

/-! ### The sender -/

structure Transfer where
  file : FileStream
  filename : Bytes
  chunkNumber : Nat
  totalBytesSent : Nat
  deriving DecidableEq, Repr

/-- What the sender does and gets, as far as files are concerned. -/
inductive Action where
  /-- The file was opened, and has this content. -/
  | started (filename content : Bytes)
  | sent (filename : Bytes) (chunkNumber : Nat) (chunkData : Bytes) (isLast : Bool)
  /-- A message was handled. -/
  | received (message : Json)
  | timedOut (filename : Bytes) (chunkNumber : Nat)
  /-- "File transfer completed" -/
  | completed (filename : Bytes) (totalBytesSent chunks : Nat)

structure Sender where
  client : State
  /-- The call of `send_file_chunks` that waits for an acknowledgment. -/
  transfer : Option Transfer
  /-- No exception has ended the client. -/
  running : Bool
  /-- The actions so far, the oldest first. -/
  trace : List Action

def Sender.start (client : State) : Sender where
  client := { client with chunkAcknowledged := false }
  transfer := none
  running := true
  trace := []

def Sender.act (s : Sender) (action : Action) : Sender := { s with trace := s.trace ++ [action] }

/-- The request with a chunk. `dump` takes valid texts only. -/
def fileChunkRequest (filename : Bytes) (chunkData : Bytes) (chunkNumber : Nat) (isLast : Bool) :
    Except Server.Exn Json.Members := do
  let filename ← Server.dumpedText filename
  let chunkData ← Server.dumpedText chunkData
  return Json.Members.ofList [("type", .string "file_chunk"), ("filename", .string filename),
    ("chunk_data", .string chunkData), ("chunk_number", .number chunkNumber),
    ("is_last", .boolean isLast)]

/-- `async_write(request.dump())`. -/
def State.asyncWrite (client : State) (request : Json.Members) : State :=
  { client with written := client.written ++ [request] }

/-- The end of the loop. -/
def Sender.complete (s : Sender) (transfer : Transfer) : Sender :=
  { s with transfer := none }.act
    (.completed transfer.filename transfer.totalBytesSent (transfer.chunkNumber - 1))

/-- The loop from its head to the next wait, or to its end. -/
def Sender.sendNext (s : Sender) (transfer : Transfer) : Sender :=
  if transfer.file.eof then s.complete transfer
  else
    let (chunkData, file) := transfer.file.read chunkSize
    if chunkData.length = 0 then s.complete transfer
    else
      let isLast := file.eof || chunkData.length < chunkSize
      match fileChunkRequest transfer.filename chunkData transfer.chunkNumber isLast with
      | .error _ => { s with transfer := none, running := false }
      | .ok request =>
          { s with
            client := s.client.asyncWrite request
            transfer := some { transfer with
              file := file
              totalBytesSent := transfer.totalBytesSent + chunkData.length } }.act
            (.sent transfer.filename transfer.chunkNumber chunkData isLast)

/-! ### Events -/

inductive SenderEvent where
  /-- The user sends a file; none if it cannot be opened. -/
  | sendFileChunks (filename : Bytes) (content : Option Bytes)
  /-- A message arrives. -/
  | message (message : Json)
  /-- The waiting call finds the flag set. -/
  | wake
  /-- The five seconds are over, and the flag is not set. -/
  | timeout

/-- One call at a time: the user waits for `send_file_chunks` to return. -/
def Sender.sendFileChunks (s : Sender) (filename : Bytes) : Option Bytes → Sender
  | none => s
  | some content =>
      match s.transfer with
      | some _ => s
      | none => (s.act (.started filename content)).sendNext ⟨⟨content, 0, false⟩, filename, 1, 0⟩

/-- What leaves a handler ends the client. -/
def Sender.receive (system : Crypto.HybridCryptoSystem) (s : Sender) (message : Json) : Sender :=
  match exec (dispatchMessage system message) s.client with
  | (.ok _, client) => { s with client := client }.act (.received message)
  | (.error _, client) => { s with client := client, running := false }.act (.received message)

def Sender.wake (s : Sender) : Sender :=
  match s.transfer with
  | some transfer =>
      if s.client.chunkAcknowledged then
        { s with client := { s.client with chunkAcknowledged := false } }.sendNext
          { transfer with chunkNumber := transfer.chunkNumber + 1 }
      else s
  | none => s

def Sender.timeout (s : Sender) : Sender :=
  match s.transfer with
  | some transfer =>
      if s.client.chunkAcknowledged then s
      else { s with transfer := none }.act (.timedOut transfer.filename transfer.chunkNumber)
  | none => s

def Sender.step (system : Crypto.HybridCryptoSystem) (s : Sender) (event : SenderEvent) : Sender :=
  if s.running then
    match event with
    | .sendFileChunks filename content => s.sendFileChunks filename content
    | .message message => s.receive system message
    | .wake => s.wake
    | .timeout => s.timeout
  else s

end Silence.Client
