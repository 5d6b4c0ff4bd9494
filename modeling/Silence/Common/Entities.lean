import Silence.Server.JsonText
import Silence.Server.RequestHandler

/-!
# Silence.Common.Entities

The classes of `common` with their `to_json` and `from_json`: users, chats, and the
metadata and texts of messages.

In memory the strings of a JSON value are any bytes, as those of the objects are; only
`dump` wants valid UTF-8. A timestamp is a count of nanoseconds.
-/

namespace Silence.Common

open Silence.Lib
open Server (Json Exn dumpedText)

/-! ### Values in memory -/

/-- A member of an object: a JSON value, or a string of any bytes. -/
inductive Value where
  | json (value : Json)
  | bytes (value : Bytes)

/-- The members of an object, in the order in which they are set. -/
abbrev Fields := List (String × Value)

namespace Value

/-- The conversion to `int`. -/
def getInt : Value → Except Exn Int32
  | .json value => return Int32.ofInt (← value.getInt)
  | .bytes _ => .error .typeError

/-- The conversion to `int64_t`. -/
def getInt64 : Value → Except Exn Int64
  | .json value => return Int64.ofInt (← value.getInt64)
  | .bytes _ => .error .typeError

/-- The conversion to `bool`. -/
def getBool : Value → Except Exn Bool
  | .json value => value.getBool
  | .bytes _ => .error .typeError

/-- The conversion to `std::string`. -/
def getString : Value → Except Exn Bytes
  | .json value => return bytesOf (← value.getString)
  | .bytes value => .ok value

/-- The value that `dump` writes. -/
def dumped : Value → Except Exn Json
  | .json value => .ok value
  | .bytes value => return .string (← dumpedText value)

def ofInt (n : Int32) : Value := .json (.number n.toInt)

def ofInt64 (n : Int64) : Value := .json (.number n.toInt)

def ofBool (b : Bool) : Value := .json (.boolean b)

end Value

namespace Fields

/-- `j[key]` on a constant value. -/
def at? (fields : Fields) (key : String) : Except Exn Value :=
  match fields.lookup key with
  | some value => .ok value
  | none => .error (.absentKey key)

/-- `j.contains(key)`, with the value. -/
def optionalInt64 (fields : Fields) (key : String) : Except Exn (Option Int64) :=
  match fields.lookup key with
  | some value => return some (← value.getInt64)
  | none => return none

/-- What `dump` writes, the members in the order of their keys. -/
def dumped (fields : Fields) : Except Exn Json.Members :=
  return Json.Members.ofList (← fields.mapM fun (key, value) => return (key, ← value.dumped))

/-- An object that was parsed. -/
def ofMembers (members : Json.Members) : Fields :=
  members.map fun (key, value) => (key, .json value)

end Fields

/-- The member of a timestamp that is there. -/
def optionalField (key : String) : Option Int64 → Fields
  | some timestamp => [(key, .ofInt64 timestamp)]
  | none => []

/-! ### Users -/

structure User where
  id : Int32
  nickname : Bytes
  password : Bytes
  registeredTimestamp : Int64
  lastOnlineTimestamp : Int64
  online : Bool
  deriving DecidableEq, Repr

def User.toJson (user : User) : Fields := [
  ("id", .ofInt user.id), ("nickname", .bytes user.nickname), ("password", .bytes user.password),
  ("registered_timestamp", .ofInt64 user.registeredTimestamp),
  ("last_online_timestamp", .ofInt64 user.lastOnlineTimestamp), ("online", .ofBool user.online)]

/-- The timestamps stay those of `User()`. -/
def User.fromJson (j : Fields) : Except Exn User := do
  let id ← (← j.at? "id").getInt
  let nickname ← (← j.at? "nickname").getString
  let password ← (← j.at? "password").getString
  let online ← (← j.at? "online").getBool
  return { id := id, nickname := nickname, password := password, registeredTimestamp := 0,
           lastOnlineTimestamp := 0, online := online }

/-! ### Chats -/

structure Chat where
  id : Int32
  user1Id : Int32
  user2Id : Int32
  deleted : Bool
  deletedTimestamp : Option Int64
  createdTimestamp : Int64
  lastEditedTimestamp : Option Int64
  deriving DecidableEq, Repr

def Chat.toJson (chat : Chat) : Fields := [
  ("id", .ofInt chat.id), ("user1_id", .ofInt chat.user1Id), ("user2_id", .ofInt chat.user2Id),
  ("deleted", .ofBool chat.deleted), ("created_timestamp", .ofInt64 chat.createdTimestamp)] ++
  optionalField "deleted_timestamp" chat.deletedTimestamp ++
  optionalField "last_edited_timestamp" chat.lastEditedTimestamp

def Chat.fromJson (j : Fields) : Except Exn Chat := do
  let id ← (← j.at? "id").getInt
  let user1Id ← (← j.at? "user1_id").getInt
  let user2Id ← (← j.at? "user2_id").getInt
  let deleted ← (← j.at? "deleted").getBool
  let createdTimestamp ← (← j.at? "created_timestamp").getInt64
  let deletedTimestamp ← j.optionalInt64 "deleted_timestamp"
  let lastEditedTimestamp ← j.optionalInt64 "last_edited_timestamp"
  return { id := id, user1Id := user1Id, user2Id := user2Id, deleted := deleted,
           deletedTimestamp := deletedTimestamp, createdTimestamp := createdTimestamp,
           lastEditedTimestamp := lastEditedTimestamp }

/-! ### Messages -/

structure MessageMetadata where
  id : Int32
  senderId : Int32
  receiverId : Int32
  chatId : Int32
  deleted : Bool
  createdTimestamp : Int64
  deletedTimestamp : Option Int64
  lastEditedTimestamp : Option Int64
  deriving DecidableEq, Repr

def MessageMetadata.toJson (msg : MessageMetadata) : Fields := [
  ("id", .ofInt msg.id), ("sender_id", .ofInt msg.senderId),
  ("receiver_id", .ofInt msg.receiverId), ("chat_id", .ofInt msg.chatId),
  ("deleted", .ofBool msg.deleted), ("created_timestamp", .ofInt64 msg.createdTimestamp)] ++
  optionalField "deleted_timestamp" msg.deletedTimestamp ++
  optionalField "last_edited_timestamp" msg.lastEditedTimestamp

def MessageMetadata.fromJson (j : Fields) : Except Exn MessageMetadata := do
  let id ← (← j.at? "id").getInt
  let senderId ← (← j.at? "sender_id").getInt
  let receiverId ← (← j.at? "receiver_id").getInt
  let chatId ← (← j.at? "chat_id").getInt
  let deleted ← (← j.at? "deleted").getBool
  let createdTimestamp ← (← j.at? "created_timestamp").getInt64
  let deletedTimestamp ← j.optionalInt64 "deleted_timestamp"
  let lastEditedTimestamp ← j.optionalInt64 "last_edited_timestamp"
  return { id := id, senderId := senderId, receiverId := receiverId, chatId := chatId,
           deleted := deleted, createdTimestamp := createdTimestamp,
           deletedTimestamp := deletedTimestamp, lastEditedTimestamp := lastEditedTimestamp }

structure MessageText where
  id : Int32
  text : Bytes
  deriving DecidableEq, Repr

def MessageText.toJson (msg : MessageText) : Fields := [
  ("id", .ofInt msg.id), ("text", .bytes msg.text)]

def MessageText.fromJson (j : Fields) : Except Exn MessageText := do
  let id ← (← j.at? "id").getInt
  let text ← (← j.at? "text").getString
  return { id := id, text := text }

/-! ### Round trips -/

@[simp] theorem Value.getInt_ofInt (n : Int32) : (Value.ofInt n).getInt = .ok n := by
  have hlow := n.le_toInt
  have hhigh := n.toInt_lt
  have hbmod : n.toInt.bmod (2 ^ 32) = n.toInt := Int.bmod_eq_of_le (by omega) (by omega)
  have hget : (Value.ofInt n).getInt = .ok (Int32.ofInt (n.toInt.bmod (2 ^ 32))) := rfl
  rw [hget, hbmod, Int32.ofInt_toInt]

@[simp] theorem Value.getInt64_ofInt64 (n : Int64) : (Value.ofInt64 n).getInt64 = .ok n := by
  have hlow := n.le_toInt
  have hhigh := n.toInt_lt
  have hbmod : n.toInt.bmod (2 ^ 64) = n.toInt := Int.bmod_eq_of_le (by omega) (by omega)
  have hget : (Value.ofInt64 n).getInt64 = .ok (Int64.ofInt (n.toInt.bmod (2 ^ 64))) := rfl
  rw [hget, hbmod, Int64.ofInt_toInt]

@[simp] theorem Value.getBool_ofBool (b : Bool) : (Value.ofBool b).getBool = .ok b := rfl

@[simp] theorem Value.getString_bytes (bytes : Bytes) :
    (Value.bytes bytes).getString = .ok bytes := rfl

/-- Everything comes back but the timestamps. -/
theorem User.fromJson_toJson (user : User) :
    User.fromJson user.toJson =
      .ok { user with registeredTimestamp := 0, lastOnlineTimestamp := 0 } := by
  have hid : user.toJson.at? "id" = .ok (.ofInt user.id) := rfl
  have hnickname : user.toJson.at? "nickname" = .ok (.bytes user.nickname) := rfl
  have hpassword : user.toJson.at? "password" = .ok (.bytes user.password) := rfl
  have honline : user.toJson.at? "online" = .ok (.ofBool user.online) := rfl
  simp [User.fromJson, hid, hnickname, hpassword, honline, bind, Except.bind, pure, Except.pure]

theorem Chat.fromJson_toJson (chat : Chat) : Chat.fromJson chat.toJson = .ok chat := by
  obtain ⟨id, user1Id, user2Id, deleted, _ | deletedTimestamp, createdTimestamp,
    _ | lastEditedTimestamp⟩ := chat <;>
  simp [Chat.fromJson, Chat.toJson, Fields.at?, Fields.optionalInt64, optionalField,
    List.lookup_cons, bind, Except.bind, pure, Except.pure]

theorem MessageMetadata.fromJson_toJson (msg : MessageMetadata) :
    MessageMetadata.fromJson msg.toJson = .ok msg := by
  obtain ⟨id, senderId, receiverId, chatId, deleted, createdTimestamp, _ | deletedTimestamp,
    _ | lastEditedTimestamp⟩ := msg <;>
  simp [MessageMetadata.fromJson, MessageMetadata.toJson, Fields.at?, Fields.optionalInt64,
    optionalField, List.lookup_cons, bind, Except.bind, pure, Except.pure]

theorem MessageText.fromJson_toJson (msg : MessageText) :
    MessageText.fromJson msg.toJson = .ok msg := by
  have hid : msg.toJson.at? "id" = .ok (.ofInt msg.id) := rfl
  have htext : msg.toJson.at? "text" = .ok (.bytes msg.text) := rfl
  simp [MessageText.fromJson, hid, htext, bind, Except.bind, pure, Except.pure]

end Silence.Common
