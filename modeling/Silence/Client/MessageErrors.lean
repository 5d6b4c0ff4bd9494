import Silence.Client.IncomingFiles
import Silence.Server.Framing
import Silence.Server.RequestErrors

/-!
# Silence.Client.MessageErrors

Which messages end normally inside `process_server_message`.

The function catches `parse_error` and nothing else. `json::parse` throws another
exception for a number that is too large, `[]` throws for a message that is neither an
object nor null, and the handlers read fields that need not be there. `Completes` says
what a message must be like; `returns_processServerMessage_iff` proves that this is exact.
Nothing is read in hexadecimal: the types that the dispatch knows are not the one that the
two handlers of keys look for.

On every other message the exception leaves `handle_async_read`, and with it the function
of a thread of the client.
-/

namespace Silence.Client

open Silence.Lib Silence.Lib.Effect Silence.Crypto
open Server (Json JsonParser frame)
open Server.Json (isString isInt)

/-! ### The condition -/

/-- The acknowledgment of a chunk reports a success, or an error with its text. -/
def AckCompletes (message : Json) : Prop :=
  message.member? "status" = some (.string "success") ∨
    message.contains "status" ∧ message.has isString "error"

def IncomingFileCompletes (message : Json) : Prop :=
  message.has isString "filename" ∧ message.has isInt "sender_id"

/-- The fields that the handler of a message reads are there, and they convert. -/
structure Completes (message : Json) : Prop where
  /-- `[]` makes an object of null. -/
  container : message = .null ∨ ∃ members, message = .object members
  chunkAcknowledgment : message.HasType "chunk_acknowledgment" → AckCompletes message
  incomingFile : message.HasType "incoming_file" → IncomingFileCompletes message
  fileChunk : message.HasType "file_chunk" → Server.FileChunkCompletes message

/-- The text of a message is no JSON text, or that of a message whose handler completes. -/
def TextCompletes (parse : JsonParser) (message : Bytes) : Prop :=
  parse message = .error .parseError ∨
    ∃ jsonMessage, parse message = .ok jsonMessage ∧ Completes jsonMessage

/-! ### The handlers -/

theorem returns_read_bind {α β : Type} {x : Except Server.Exn α} {f : α → Handler β}
    {client : State} :
    Returns (read x >>= f) client ↔ ∃ a, x = .ok a ∧ Returns (f a) client := by
  rw [read, returns_attempt_bind]
  simp only [mapError_eq_ok]

theorem returns_handleChunkAcknowledgment {message : Json} {client : State} :
    Returns (handleChunkAcknowledgment message) client ↔ AckCompletes message := by
  simp only [handleChunkAcknowledgment, returns_read_bind, Json.at?_eq_ok_iff, AckCompletes,
    Json.contains]
  cases message.member? "status" with
  | none => simp
  | some status =>
      simp only [Option.some.injEq, exists_eq_left', Option.isSome_some, true_and]
      by_cases hsuccess : status.isText "success" = true
      · rw [if_pos hsuccess]
        exact iff_of_true ⟨_, rfl⟩ (.inl (Json.isText_iff.mp hsuccess))
      · have hne : status ≠ .string "success" := fun h => hsuccess (Json.isText_iff.mpr h)
        rw [if_neg hsuccess, returns_read_bind, ← Json.exists_readString_iff]
        simp only [returns_pure, and_true, hne, false_or]

theorem exists_pure_eq_ok {α : Type} (a : α) : ∃ b, (pure a : Except Server.Exn α) = .ok b :=
  ⟨a, rfl⟩

/-- What the handler of a notification reads can be read. -/
theorem exists_readNotification_iff (message : Json) :
    (∃ filename, readNotification message = .ok filename) ↔ IncomingFileCompletes message := by
  simp only [readNotification, IncomingFileCompletes, ← Json.exists_readString_iff,
    ← Json.exists_readInt_iff, exists_bind_eq_ok, exists_pure_eq_ok, and_true, exists_and_right]

/-- What the handler of a chunk reads can be read. -/
theorem exists_readFileChunk_iff (message : Json) :
    (∃ chunk, readFileChunk message = .ok chunk) ↔ Server.FileChunkCompletes message := by
  simp only [readFileChunk, Server.FileChunkCompletes, ← Json.exists_readString_iff,
    ← Json.exists_readSize_iff, ← Json.exists_readBool_iff, exists_bind_eq_ok, exists_pure_eq_ok,
    and_true, exists_and_right]

theorem returns_handleIncomingFile {message : Json} {client : State} :
    Returns (handleIncomingFile message) client ↔ IncomingFileCompletes message := by
  rw [Returns, exec_handleIncomingFile, ← exists_readNotification_iff]
  cases readNotification message <;> simp [Except.mapError, Except.map]

theorem returns_handleIncomingFileChunk {message : Json} {client : State} :
    Returns (handleIncomingFileChunk message) client ↔ Server.FileChunkCompletes message := by
  rw [Returns, exec_handleIncomingFileChunk, ← exists_readFileChunk_iff]
  cases readFileChunk message <;> simp [Except.mapError, Except.map]

/-! ### The dispatch -/

theorem typeOf_isOk_iff (message : Json) :
    (∃ type, typeOf message = .ok type) ↔
      (message = .null ∨ ∃ members, message = .object members) := by
  cases message <;> simp [fieldOf]

/-- The type decides which handler a message is for. -/
theorem hasType_iff {message value : Json} (h : typeOf message = .ok value) (type : String) :
    message.HasType type ↔ value.isText type := by
  rw [Json.HasType, ← typeOf_eq_ok_iff, h, Json.isText_iff, Except.ok.injEq]

/-- The requests with keys come in under a type that is not the one their handlers look for. -/
theorem returns_ifSuccess {message : Json} {type : String} (h : message.HasType type)
    (htype : type ≠ "success") (x : Handler Unit) (client : State) :
    Returns (do if (← read (message.at? "type")).isText "success" then x) client := by
  rw [returns_read_bind]
  refine ⟨.string type, Json.at?_eq_ok_iff.mpr h, ?_⟩
  have hnot : (Json.string type).isText "success" = false := by simp [Json.isText, htype]
  rw [hnot]
  exact returns_pure _ _

theorem returns_dispatchMessage_iff (system : HybridCryptoSystem) (message : Json)
    (client : State) : Returns (dispatchMessage system message) client ↔ Completes message := by
  rw [dispatchMessage, returns_read_bind]
  constructor
  · intro h
    obtain ⟨type, htype, hreturns⟩ := h
    have hhas := hasType_iff htype
    refine ⟨(typeOf_isOk_iff message).mp ⟨type, htype⟩, ?_, ?_, ?_⟩
    · intro hack
      rw [hhas] at hack
      rw [if_pos hack] at hreturns
      exact returns_handleChunkAcknowledgment.mp hreturns
    · intro hfile
      rw [hhas, Json.isText_iff] at hfile
      subst hfile
      exact returns_handleIncomingFile.mp hreturns
    · intro hchunk
      rw [hhas, Json.isText_iff] at hchunk
      subst hchunk
      exact returns_handleIncomingFileChunk.mp hreturns
  · intro h
    obtain ⟨type, htype⟩ := (typeOf_isOk_iff message).mpr h.container
    have hhas := hasType_iff htype
    refine ⟨type, htype, ?_⟩
    by_cases hack : type.isText "chunk_acknowledgment" = true
    · rw [if_pos hack]
      exact returns_handleChunkAcknowledgment.mpr (h.chunkAcknowledgment ((hhas _).mpr hack))
    rw [if_neg hack]
    by_cases hfile : type.isText "incoming_file" = true
    · rw [if_pos hfile]
      exact returns_handleIncomingFile.mpr (h.incomingFile ((hhas _).mpr hfile))
    rw [if_neg hfile]
    by_cases hchunk : type.isText "file_chunk" = true
    · rw [if_pos hchunk]
      exact returns_handleIncomingFileChunk.mpr (h.fileChunk ((hhas _).mpr hchunk))
    rw [if_neg hchunk]
    by_cases hkeys : type.isText "receive_user_public_keys" = true
    · rw [if_pos hkeys]
      exact returns_ifSuccess ((hhas _).mpr hkeys) (by decide) _ _
    rw [if_neg hkeys]
    by_cases haes : type.isText "receive_aes_key" = true
    · rw [if_pos haes]
      exact returns_ifSuccess ((hhas _).mpr haes) (by decide) _ _
    rw [if_neg haes]
    exact returns_pure _ _

/-! ### The function -/

/-- For every parser, client and byte string: `process_server_message` returns exactly if the text
is no JSON text at all, or its handler finds the fields that it reads. -/
theorem returns_processServerMessage_iff (parse : JsonParser) (system : HybridCryptoSystem)
    (message : Bytes) (client : State) :
    Returns (processServerMessage parse system message) client ↔ TextCompletes parse message := by
  unfold processServerMessage TextCompletes
  cases parse message with
  | error failure =>
      cases failure with
      | parseError => simp [returns_pure]
      | outOfRange => simp [Returns]
  | ok jsonMessage => simp [returns_dispatchMessage_iff]

/-- Of an object that lacks a field that is read, and of a number, an exception leaves the function;
for a parser that knows these two messages. -/
theorem processServerMessage_escapes :
    let chunkText := frame (bytesOf "\x7b\"filename\":\"a\",\"type\":\"file_chunk\"\x7d")
    let numberText := frame (bytesOf "7")
    let parse : JsonParser := fun message =>
      if message = chunkText then
        .ok (.object [("filename", .string "a"), ("type", .string "file_chunk")])
      else if message = numberText then .ok (.number 7)
      else .error .parseError
    (exec (processServerMessage parse (.ofKeys 4 2) chunkText) (.withKeys .empty)).1 =
        .error (.json (.absentKey "chunk_data")) ∧
      (exec (processServerMessage parse (.ofKeys 4 2) numberText) (.withKeys .empty)).1 =
        .error (.json .typeError) ∧
      ¬ ∀ message, Returns (processServerMessage parse (.ofKeys 4 2) message)
        (.withKeys .empty) := by
  intro chunkText numberText parse
  have hchunk : (exec (processServerMessage parse (.ofKeys 4 2) chunkText) (.withKeys .empty)).1 =
      .error (.json (.absentKey "chunk_data")) := by
    decide +kernel
  refine ⟨hchunk, by decide +kernel, fun h => ?_⟩
  obtain ⟨a, ha⟩ := h chunkText
  rw [hchunk] at ha
  cases ha

end Silence.Client
