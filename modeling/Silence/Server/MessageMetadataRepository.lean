import Silence.Lib.SqlInsert
import Silence.Server.UserRows

/-!
# Silence.Server.MessageMetadataRepository

The tables `chats` and `messages` (`database/message_metadata.sql`) and
`server/src/message_metadata_repository.cpp`.

`create` does not name the column `chat_id`, which is `NOT NULL` and has no default. So
no message can be created (`create_eq`), and whatever is called, no message appears
(`ids_run`). With the chat the statement would go in (`insert_withChat`).
-/

namespace Silence.Server

open Silence.Lib
open Common (MessageMetadata UtcOffset formatTimestamp parseTimestamp toTimeT)

/-! ### Tables -/

/-- A value in a row. -/
inductive Datum where
  | integer (value : Int32)
  | boolean (value : Bool)
  | timestamp (value : Instant)
  deriving DecidableEq, Repr

/-- The values of the columns, `none` for `NULL`. -/
abbrev MessageRow := List (Option Datum)

/-- The columns of `chats` that the constraints of `messages` look at. -/
structure ChatRow where
  id : Int32
  user1Id : Int32
  user2Id : Int32
  deriving DecidableEq, Repr

structure MessagesDatabase where
  chats : List ChatRow
  messages : List MessageRow

/-- What the defaults of `messages` are at the time of a statement. -/
structure MessageDraw where
  id : Int32
  now : Instant

def messagesColumns (draw : MessageDraw) : List (Column Datum) := [
  ⟨"id", true, some (.integer draw.id)⟩, ⟨"chat_id", true, none⟩, ⟨"sender_id", true, none⟩,
  ⟨"receiver_id", true, none⟩, ⟨"deleted", false, some (.boolean false)⟩,
  ⟨"created_timestamp", false, some (.timestamp draw.now)⟩, ⟨"deleted_timestamp", false, none⟩,
  ⟨"last_edited_timestamp", false, none⟩]

/-- The position of a column in the table. -/
def messagesColumn (column : String) : Nat :=
  ["id", "chat_id", "sender_id", "receiver_id", "deleted", "created_timestamp",
    "deleted_timestamp", "last_edited_timestamp"].idxOf column

/-- `row[column]`. -/
def MessageRow.value (row : MessageRow) (column : String) : Option Datum :=
  row.getD (messagesColumn column) none

/-- The row with a value in a column. -/
def MessageRow.setValue (row : MessageRow) (column : String) (value : Datum) : MessageRow :=
  row.set (messagesColumn column) (some value)

def MessageRow.hasId (id : Int32) (row : MessageRow) : Bool :=
  MessageRow.value row "id" = some (.integer id)

/-- The users are the two of the chat. -/
def ChatRow.joins (chat : ChatRow) (senderId receiverId : Option Datum) : Bool :=
  (some (.integer chat.user1Id) = senderId ∧ some (.integer chat.user2Id) = receiverId) ∨
    (some (.integer chat.user1Id) = receiverId ∧ some (.integer chat.user2Id) = senderId)

/-- The constraints of the table: a new id, and a chat that is there and has the two users. -/
def MessagesDatabase.admits (db : MessagesDatabase) (row : MessageRow) : Bool :=
  !db.messages.any (fun other => MessageRow.value other "id" = MessageRow.value row "id") &&
    db.chats.any fun chat => some (.integer chat.id) = MessageRow.value row "chat_id" &&
      chat.joins (MessageRow.value row "sender_id") (MessageRow.value row "receiver_id")

/-- `INSERT INTO messages` with named values. -/
def MessagesDatabase.insert (db : MessagesDatabase) (draw : MessageDraw)
    (values : List (String × Option Datum)) : Option MessagesDatabase := do
  let row ← fillRow (messagesColumns draw) values
  if db.admits row then some { db with messages := db.messages ++ [row] } else none

/-- `UPDATE messages` of the row with an id. -/
def MessagesDatabase.set (db : MessagesDatabase) (id : Int32) (values : List (String × Datum)) :
    MessagesDatabase :=
  { db with messages := db.messages.map fun row =>
      if MessageRow.hasId id row then
        values.foldl (fun row value => MessageRow.setValue row value.1 value.2) row
      else row }

/-! ### The repository -/

/-- The columns that `create` names. -/
def messageValues (s : SqlSession) (message : MessageMetadata) : List (String × Option Datum) := [
  ("sender_id", some (.integer message.senderId)),
  ("receiver_id", some (.integer message.receiverId)),
  ("created_timestamp", some (.timestamp (s.instantOf (formatTimestamp message.createdTimestamp))))]

/-- `MessageMetadataRepository::create`. Nothing is drawn if there is no connection. -/
def MessagesDatabase.create (s : SqlSession) (db : MessagesDatabase) (draw : Option MessageDraw)
    (message : MessageMetadata) : Int32 × MessagesDatabase :=
  match draw with
  | none => (0, db)
  | some draw =>
      match db.insert draw (messageValues s message) with
      | none => (0, db)
      | some db' => (draw.id, db')

/-- `as<int>()`. -/
def Datum.asInt : Datum → Option Int32
  | .integer value => some value
  | _ => none

/-- `as<bool>()`. -/
def Datum.asBool : Datum → Option Bool
  | .boolean value => some value
  | _ => none

/-- `parse_timestamp` of `as<std::string>()`. -/
def Datum.asTimestamp (s : SqlSession) (offset : UtcOffset) : Datum → Option Common.Timestamp
  | .timestamp value => some (parseTimestamp offset (bytesOf (s.display value)))
  | _ => none

/-- `construct_message`; none where it throws. -/
def constructMessage (s : SqlSession) (offset : UtcOffset) (row : MessageRow) :
    Option MessageMetadata := do
  let id ← (← MessageRow.value row "id").asInt
  let senderId ← (← MessageRow.value row "sender_id").asInt
  let receiverId ← (← MessageRow.value row "receiver_id").asInt
  let chatId ← (← MessageRow.value row "chat_id").asInt
  let deleted ← (← MessageRow.value row "deleted").asBool
  let createdTimestamp ← (← MessageRow.value row "created_timestamp").asTimestamp s offset
  return { id := id, senderId := senderId, receiverId := receiverId, chatId := chatId,
           deleted := deleted, createdTimestamp := createdTimestamp
           deletedTimestamp :=
             (MessageRow.value row "deleted_timestamp").bind (Datum.asTimestamp s offset)
           lastEditedTimestamp :=
             (MessageRow.value row "last_edited_timestamp").bind (Datum.asTimestamp s offset) }

/-- `MessageMetadataRepository::read`. -/
def MessagesDatabase.read (s : SqlSession) (offset : UtcOffset) (db : MessagesDatabase)
    (id : Int32) : Option MessageMetadata :=
  (db.messages.find? (MessageRow.hasId id)).bind (constructMessage s offset)

/-- `MessageMetadataRepository::update`, at some time. -/
def MessagesDatabase.update (s : SqlSession) (db : MessagesDatabase) (now : Common.Timestamp)
    (message : MessageMetadata) : Bool × MessagesDatabase :=
  let edited := s.instantOf (formatTimestamp (message.lastEditedTimestamp.getD now))
  (db.messages.any (MessageRow.hasId message.id),
    db.set message.id [("last_edited_timestamp", .timestamp edited)])

/-- `MessageMetadataRepository::remove`, at some time. The row stays. -/
def MessagesDatabase.remove (s : SqlSession) (db : MessagesDatabase) (now : Common.Timestamp)
    (id : Int32) : Bool × MessagesDatabase :=
  (db.messages.any (MessageRow.hasId id),
    db.set id [("deleted", .boolean true),
      ("deleted_timestamp", .timestamp (s.instantOf (formatTimestamp now)))])

/-- The message gets an id, and what is read under it are its columns, the time to the second. -/
def MessagesDatabase.Stores (s : SqlSession) (offset : UtcOffset) (db : MessagesDatabase)
    (draw : Option MessageDraw) (message : MessageMetadata) : Prop :=
  (db.create s draw message).1 ≠ 0 ∧
    ∃ stored, (db.create s draw message).2.read s offset (db.create s draw message).1 =
        some stored ∧
      stored.senderId = message.senderId ∧ stored.receiverId = message.receiverId ∧
      stored.chatId = message.chatId ∧ stored.deleted = message.deleted ∧
      toTimeT stored.createdTimestamp = toTimeT message.createdTimestamp

/-! ### No message is created -/

/-- The chat of a message is missing, whatever the message is. -/
theorem MessagesDatabase.create_eq (s : SqlSession) (db : MessagesDatabase)
    (draw : Option MessageDraw) (message : MessageMetadata) :
    db.create s draw message = (0, db) := by
  cases draw with
  | none => rfl
  | some draw =>
      have hchat : (⟨"chat_id", true, none⟩ : Column Datum) ∈ messagesColumns draw := by
        simp [messagesColumns]
      have hrow : fillRow (messagesColumns draw) (messageValues s message) = none :=
        fillRow_eq_none hchat rfl rfl rfl
      have hinsert : db.insert draw (messageValues s message) = none := by
        unfold MessagesDatabase.insert
        rw [hrow]
        rfl
      simp only [MessagesDatabase.create, hinsert]

/-- The row of a message, if its chat is named. -/
def messageRow (s : SqlSession) (draw : MessageDraw) (message : MessageMetadata) : MessageRow := [
  some (.integer draw.id), some (.integer message.chatId), some (.integer message.senderId),
  some (.integer message.receiverId), some (.boolean false),
  some (.timestamp (s.instantOf (formatTimestamp message.createdTimestamp))), none, none]

/-- With its chat a message goes in if the chat is there and has its users. -/
theorem MessagesDatabase.insert_withChat (s : SqlSession) {db : MessagesDatabase}
    {draw : MessageDraw} {message : MessageMetadata}
    (hadmits : db.admits (messageRow s draw message) = true) :
    db.insert draw (("chat_id", some (.integer message.chatId)) :: messageValues s message) =
      some { db with messages := db.messages ++ [messageRow s draw message] } := by
  have hrow : fillRow (messagesColumns draw)
      (("chat_id", some (.integer message.chatId)) :: messageValues s message) =
      some (messageRow s draw message) := rfl
  unfold MessagesDatabase.insert
  rw [hrow, Option.bind_eq_bind, Option.bind_some, if_pos hadmits]

/-- No message is ever given back. -/
theorem message_neverStored (s : SqlSession) (offset : UtcOffset) (db : MessagesDatabase)
    (draw : Option MessageDraw) (message : MessageMetadata) :
    ¬ db.Stores s offset draw message := by
  intro h
  refine h.1 ?_
  rw [db.create_eq]

/-- The chat of the users 1 and 2. -/
def oneChat : MessagesDatabase := ⟨[⟨1, 1, 2⟩], []⟩

/-- A message in that chat. -/
def chatMessage : MessageMetadata := ⟨100, 1, 2, 1, false, 0, none, none⟩

/-- Its chat is there and its row would be admitted, but it gets no id. -/
theorem chatMessage_refused :
    oneChat.admits (messageRow utcSession ⟨1, .ofSeconds 0⟩ chatMessage) = true ∧
      (oneChat.create utcSession (some ⟨1, .ofSeconds 0⟩) chatMessage).1 = 0 ∧
      ¬ oneChat.Stores utcSession .utc (some ⟨1, .ofSeconds 0⟩) chatMessage := by
  have hcreate := oneChat.create_eq utcSession (some ⟨1, .ofSeconds 0⟩) chatMessage
  refine ⟨by decide, by rw [hcreate], fun h => h.1 ?_⟩
  rw [hcreate]

/-! ### Runs -/

/-- A call that can change the tables. -/
inductive MessageCall where
  | create (draw : Option MessageDraw) (message : MessageMetadata)
  | update (now : Common.Timestamp) (message : MessageMetadata)
  | remove (now : Common.Timestamp) (id : Int32)

def MessagesDatabase.call (s : SqlSession) (db : MessagesDatabase) : MessageCall → MessagesDatabase
  | .create draw message => (db.create s draw message).2
  | .update now message => (db.update s now message).2
  | .remove now id => (db.remove s now id).2

def MessagesDatabase.ids (db : MessagesDatabase) : List (Option Datum) :=
  db.messages.map (MessageRow.value · "id")

/-- Other columns than the id can be set. -/
theorem MessagesDatabase.ids_set (db : MessagesDatabase) (id : Int32)
    {values : List (String × Datum)} (h : ∀ value ∈ values, messagesColumn value.1 ≠ 0) :
    (db.set id values).ids = db.ids := by
  have hvalues : ∀ row : MessageRow, MessageRow.value (values.foldl
      (fun row value => MessageRow.setValue row value.1 value.2) row) "id" =
      MessageRow.value row "id" := by
    induction values with
    | nil => exact fun _ => rfl
    | cons value values ih =>
        obtain ⟨hvalue, hrest⟩ := List.forall_mem_cons.mp h
        intro row
        have hkept : MessageRow.value (MessageRow.setValue row value.1 value.2) "id" =
            MessageRow.value row "id" := by
          show (row.set (messagesColumn value.1) (some value.2)).getD 0 none = row.getD 0 none
          rw [List.getD_eq_getElem?_getD, List.getD_eq_getElem?_getD, List.getElem?_set_ne hvalue]
        rw [List.foldl_cons, ih hrest, hkept]
  unfold MessagesDatabase.ids MessagesDatabase.set
  rw [List.map_map]
  refine List.map_congr_left ?_
  intro row _
  rw [Function.comp_apply]
  split
  · exact hvalues row
  · rfl

/-- One call leaves the ids of the messages as they are. -/
theorem MessagesDatabase.ids_call (s : SqlSession) (db : MessagesDatabase) (call : MessageCall) :
    (db.call s call).ids = db.ids := by
  cases call with
  | create draw message => rw [MessagesDatabase.call, db.create_eq]
  | update now message => exact db.ids_set message.id (by simp [messagesColumn])
  | remove now id => exact db.ids_set id (by simp [messagesColumn])

/-- So no message appears in any run. -/
theorem MessagesDatabase.ids_run (s : SqlSession) (db : MessagesDatabase)
    (calls : List MessageCall) : (calls.foldl (MessagesDatabase.call s) db).ids = db.ids := by
  induction calls generalizing db with
  | nil => rfl
  | cons call calls ih => rw [List.foldl_cons, ih, db.ids_call]

end Silence.Server
