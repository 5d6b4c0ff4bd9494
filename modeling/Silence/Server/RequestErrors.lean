import Silence.Server.RequestHandler

/-!
# Silence.Server.RequestErrors

Which requests end normally inside `handle_request`.

`Completes` says what a request and its environment must be like: the fields that
a handler reads are there and convert, and the writes to sockets that are not
protected succeed. `returns_handleRequestLine_iff` proves that this is exact; on
every other request an exception, or the access to an absent field, leaves
`handle_request` and ends the loop of the connection.
-/

namespace Silence.Server

open Silence.Lib.Effect
open Json (isString isBool isInt isSize)

/-! ### The condition -/

/-- The first `n` writes of the request succeed. -/
def WritesSucceed (env : Environment) (n : Nat) : Prop := ∀ i < n, env.writeOk i = true

def RegisterCompletes (env : Environment) (request : Json) : Prop :=
  request.has isString "nickname" ∧ request.has isString "password" ∧
    request.has isString "el_gamal_public_key" ∧ request.has isString "dsa_public_key" ∧
    WritesSucceed env 1

def AuthorizeCompletes (env : Environment) (request : Json) : Prop :=
  request.has isString "nickname" ∧ request.has isString "password" ∧
    request.has isInt "user_id" ∧ WritesSucceed env 1

/-- The name of an attached file, if there is one, is a string. -/
def FileNameConverts (request : Json) : Prop :=
  ∀ fileName ∈ request.member? "file_name", fileName.isString

/-- Sender and receiver are both answered twice. -/
def SendMessageCompletes (env : Environment) (w : World) (request : Json) : Prop :=
  ∃ senderId, request.readInt "sender_id" = .ok senderId ∧
    ∃ receiverNickname, request.readString "receiver_nickname" = .ok receiverNickname ∧
    ∃ text, request.readString "message_text" = .ok text ∧
    let receiverId := env.getUserId receiverNickname
    if receiverId = 0 ∨ env.createMessage (.create env.now senderId receiverId text) = 0 then
      WritesSucceed env 1
    else
      FileNameConverts request ∧
        WritesSucceed env (if (w.connectedClients.getClientSocket receiverId).isSome then 4 else 2)

/-- No condition on the writes: all of them are protected. -/
def FileChunkCompletes (request : Json) : Prop :=
  request.has isString "filename" ∧ request.has isString "chunk_data" ∧
    request.has isSize "chunk_number" ∧ request.has isBool "is_last"

/-- The keys can be printed in hexadecimal. -/
def UserCryptoKeys.Printable (keys : UserCryptoKeys) : Prop :=
  0 ≤ keys.dsaPublicKey ∧ 0 ≤ keys.elGamalPublicKey

def GetUserKeysCompletes (env : Environment) (request : Json) : Prop :=
  ∃ nickname, request.readString "nickname" = .ok nickname ∧ WritesSucceed env 1 ∧
    (env.getUserId nickname ≠ 0 →
      ∀ keys ∈ env.getPublicKeys (env.getUserId nickname), keys.Printable)

def SendAesKeyCompletes (env : Environment) (w : World) (request : Json) : Prop :=
  request.has isInt "sender_id" ∧
    ∃ receiverNickname, request.readString "receiver_nickname" = .ok receiverNickname ∧
    request.has isString "encrypted_aes_key_c1" ∧ request.has isString "encrypted_aes_key_c2" ∧
    request.has isString "dsa_r" ∧ request.has isString "dsa_signrature" ∧
    let receiverId := env.getUserId receiverNickname
    WritesSucceed env
      (if receiverId ≠ 0 ∧ (w.connectedClients.getClientSocket receiverId).isSome then 2 else 1)

/-- The request, as `parse` reads it, ends normally. -/
def Completes (env : Environment) (w : World) : Except ParseFailure Json → Prop
  | .error .parseError => True
  | .error .outOfRange => False
  | .ok request =>
      match request.member? "type" with
      | none => True
      | some type =>
          if type.isText "register" then RegisterCompletes env request
          else if type.isText "authorize" then AuthorizeCompletes env request
          else if type.isText "send_message" then SendMessageCompletes env w request
          else if type.isText "file_chunk" then FileChunkCompletes request
          else if type.isText "get_user_keys" then GetUserKeysCompletes env request
          else if type.isText "send_aes_key" then SendAesKeyCompletes env w request
          else True

/-! ### Writes -/

theorem writesSucceed_zero (env : Environment) : WritesSucceed env 0 ↔ True := by
  simp [WritesSucceed]

theorem writesSucceed_succ (env : Environment) (n : Nat) :
    WritesSucceed env (n + 1) ↔ WritesSucceed env n ∧ env.writeOk n = true :=
  Nat.forall_lt_succ_right

theorem writesSucceed_one (env : Environment) : WritesSucceed env 1 ↔ env.writeOk 0 = true := by
  rw [writesSucceed_succ, writesSucceed_zero, true_and]

theorem returns_write {env : Environment} {socket : Socket} {recipient : Option Int}
    {frame : Json.Members} {w : World} :
    Returns (write env socket recipient frame) w ↔ env.writeOk w.writes = true := by
  rw [Returns, exec_write]
  cases env.writeOk w.writes <;> simp

theorem returns_write_bind {α : Type} {env : Environment} {socket : Socket}
    {recipient : Option Int} {frame : Json.Members} {f : Unit → Handler α} {w : World} :
    Returns (write env socket recipient frame >>= f) w ↔
      env.writeOk w.writes = true ∧
        Returns (f ()) (w.recordWrite (.wrote socket recipient frame true)) := by
  rw [returns_seq_iff, returns_write, exec_write]
  exact and_congr_right fun h => by rw [h]

theorem returns_observe_bind {α : Type} {o : Observation} {f : Unit → Handler α} {w : World} :
    Returns (observe o >>= f) w ↔ Returns (f ()) (w.observe o) := returns_modify_bind

theorem returns_reply (env : Environment) (socket : Socket) (response : String) (w : World) :
    Returns (reply env socket response) w := ⟨(), rfl⟩

/-! ### Handlers -/

theorem returns_handleRegister {env : Environment} {socket : Socket} {request : Json} {w : World}
    (hw : w.writes = 0) :
    Returns (handleRegister env socket request) w ↔ RegisterCompletes env request := by
  simp only [handleRegister, returns_attempt_bind, returns_observe_bind, returns_ite,
    returns_write, World.observe_writes, hw, ite_self, RegisterCompletes, writesSucceed_one,
    ← Json.exists_readString_iff]
  simp only [exists_and_right, ← and_assoc]

theorem returns_handleAuthorize {env : Environment} {socket : Socket} {request : Json} {w : World}
    (hw : w.writes = 0) :
    Returns (handleAuthorize env socket request) w ↔ AuthorizeCompletes env request := by
  simp only [handleAuthorize, returns_attempt_bind, returns_modify_bind,
    returns_ite, returns_write, World.authorize_writes, hw, ite_self, AuthorizeCompletes,
    writesSucceed_one, ← Json.exists_readString_iff, ← Json.exists_readInt_iff]
  simp only [exists_and_right, ← and_assoc]

theorem returns_hexText_bind {α : Type} {num : Int} {f : String → Handler α} {P : Prop} {w : World}
    (h : ∀ text, Returns (f text) w ↔ P) :
    Returns (attempt (hexText num) >>= f) w ↔ 0 ≤ num ∧ P := by
  rw [returns_attempt_bind, hexText, Crypto.cppIntToHex]
  by_cases hneg : num < 0
  · simp [hneg]
  · simp [hneg, h, Int.not_lt.mp hneg]

theorem returns_handleGetUserKeys {env : Environment} {socket : Socket} {request : Json}
    {w : World} (hw : w.writes = 0) :
    Returns (handleGetUserKeys env socket request) w ↔ GetUserKeysCompletes env request := by
  simp only [handleGetUserKeys, returns_attempt_bind, returns_ite, GetUserKeysCompletes,
    writesSucceed_one]
  refine exists_congr fun nickname => and_congr_right fun _ => ?_
  split
  · rename_i hfound
    simp [returns_write, hw, hfound]
  · rename_i hfound
    cases env.getPublicKeys (env.getUserId nickname) with
    | none => simp [returns_write, hw]
    | some keys =>
        rw [returns_hexText_bind fun _ => returns_hexText_bind fun _ => returns_write, hw]
        simp [UserCryptoKeys.Printable, hfound]
        tauto

theorem returns_writeToClient_bind {α : Type} {env : Environment} {clientSocket : Option Socket}
    {userId : Int} {frame : Json.Members} {f : Unit → Handler α} {w : World} :
    Returns (writeToClient env clientSocket userId frame >>= f) w ↔
      match clientSocket with
      | some socket => env.writeOk w.writes = true ∧
          Returns (f ()) (w.recordWrite (.wrote socket (some userId) frame true))
      | none => Returns (f ()) w := by
  cases clientSocket with
  | none => exact Iff.rfl
  | some socket => exact returns_write_bind

theorem returns_writeToClient {env : Environment} {clientSocket : Option Socket} {userId : Int}
    {frame : Json.Members} {w : World} :
    Returns (writeToClient env clientSocket userId frame) w ↔
      (clientSocket.isSome → env.writeOk w.writes = true) := by
  cases clientSocket with
  | none => simp [writeToClient, returns_pure]
  | some socket => simp [writeToClient, returns_write]

/-- The file part fails exactly on a name that is not a string. It writes nothing. -/
theorem returns_announceFile_bind {α : Type} {request : Json} {senderId receiverId : Int}
    {f : Option String → Handler α} {w : World} {P : Prop}
    (h : ∀ filename w', w'.writes = w.writes → (Returns (f filename) w' ↔ P)) :
    Returns (announceFile request senderId receiverId >>= f) w ↔ FileNameConverts request ∧ P := by
  rw [announceFile, FileNameConverts]
  cases request.member? "file_name" with
  | none => simpa using h none w rfl
  | some fileName =>
      simp only [Option.mem_some_iff, forall_eq']
      cases fileName with
      | string text =>
          by_cases htext : text = "none"
          · simpa [Json.isText, Json.isString, htext] using h none w rfl
          · have hnone : ¬ (Json.string text).isText "none" = true := by simp [Json.isText, htext]
            simp only [hnone, if_false, Bool.false_eq_true, bind_assoc, pure_bind, Json.getString,
              returns_attempt_bind, returns_modify_bind, Except.ok.injEq, exists_eq_left',
              Json.isString, true_and]
            exact h (some text) (w.announce ⟨text, senderId, receiverId⟩) rfl
      | _ => simp [Json.isText, Json.isString, Json.getString, returns_attempt_bind]

theorem returns_deliverMessage {env : Environment} {socket : Socket} {request : Json}
    {newMsg : Message} {w : World} (hw : w.writes = 0) :
    Returns (deliverMessage env socket request newMsg) w ↔ FileNameConverts request ∧
      WritesSucceed env
        (if (w.connectedClients.getClientSocket newMsg.receiverId).isSome then 4 else 2) := by
  simp only [deliverMessage, returns_write_bind, returns_get_bind, hw,
    World.recordWrite_connectedClients, returns_writeToClient_bind]
  cases w.connectedClients.getClientSocket newMsg.receiverId with
  | none =>
      rw [returns_announceFile_bind (P := env.writeOk 1 = true)]
      · simp [writesSucceed_succ, writesSucceed_zero]
        tauto
      · intro filename w' hw'
        simp [returns_write_bind, returns_writeToClient, hw', hw]
  | some receiverSocket =>
      simp only
      rw [returns_announceFile_bind (P := env.writeOk 2 = true ∧ env.writeOk 3 = true)]
      · simp [writesSucceed_succ, writesSucceed_zero, hw]
        tauto
      · intro filename w' hw'
        simp [returns_write_bind, returns_writeToClient, hw', hw]

theorem returns_handleSendMessage {env : Environment} {socket : Socket} {request : Json}
    {w : World} (hw : w.writes = 0) :
    Returns (handleSendMessage env socket request) w ↔ SendMessageCompletes env w request := by
  simp only [handleSendMessage, returns_attempt_bind, returns_ite, SendMessageCompletes,
    writesSucceed_one, returns_write, hw]
  refine exists_congr fun senderId => and_congr_right fun _ => exists_congr fun receiverNickname =>
    and_congr_right fun _ => exists_congr fun text => and_congr_right fun _ => ?_
  by_cases hreceiver : env.getUserId receiverNickname = 0
  · simp [hreceiver]
  · by_cases hstored : env.createMessage (.create env.now senderId
        (env.getUserId receiverNickname) text) = 0
    · simp [hreceiver, hstored]
    · rw [if_neg hreceiver, if_neg hstored, if_neg (not_or.mpr ⟨hreceiver, hstored⟩),
        returns_observe_bind, returns_deliverMessage (by exact hw)]
      rfl

theorem returns_handleSendAesKey {env : Environment} {socket : Socket} {request : Json}
    {w : World} (hw : w.writes = 0) :
    Returns (handleSendAesKey env socket request) w ↔ SendAesKeyCompletes env w request := by
  simp only [handleSendAesKey, returns_attempt_bind, returns_ite, SendAesKeyCompletes,
    ← Json.exists_readString_iff, ← Json.exists_readInt_iff, returns_write, hw,
    returns_write_bind, returns_get_bind, returns_writeToClient, World.recordWrite_connectedClients,
    World.recordWrite_writes]
  simp only [exists_and_right]
  refine and_congr_right fun _ => exists_congr fun receiverNickname => and_congr_right fun _ =>
    and_congr_right fun _ => and_congr_right fun _ => and_congr_right fun _ =>
    and_congr_right fun _ => ?_
  by_cases hreceiver : env.getUserId receiverNickname = 0
  · simp [hreceiver, writesSucceed_one]
  · cases w.connectedClients.getClientSocket (env.getUserId receiverNickname) with
    | none => simp [hreceiver, writesSucceed_one]
    | some receiverSocket => simp [hreceiver, writesSucceed_succ, writesSucceed_zero]

/-! ### Chunks -/

/-- What `catch (const std::exception&)` catches. -/
def IsException (e : Exn) : Prop := ∀ key, e ≠ .absentKey key

theorem throws_catchException {α : Type} {E : Exn → Prop} {x handler : Handler α}
    (hx : Throws IsException x) (hh : Throws E handler) : Throws E (catchException x handler) := by
  refine throws_tryCatch hx fun e he => ?_
  cases e with
  | absentKey key => exact absurd rfl (he key)
  | _ => exact hh

theorem throws_write (env : Environment) (socket : Socket) (recipient : Option Int)
    (frame : Json.Members) : Throws IsException (write env socket recipient frame) := by
  intro w e h
  rw [exec_write] at h
  split at h
  · cases h
  · cases h
    rintro key ⟨⟩

theorem throws_sendChunk (env : Environment) (clientSocket : Socket) (userId : Int)
    (filename : String) (i : Nat) (chunk : Bytes) (isLast : Bool) :
    Throws (fun _ => False) (sendChunk env clientSocket userId filename i chunk isLast) := by
  refine throws_catchException ?_ (throws_pure _)
  refine throws_bind (throws_attempt fun e he => ?_) fun text =>
    throws_bind (throws_write _ _ _ _) fun _ => throws_pure _
  rw [dumpedText] at he
  split at he
  · cases he
  · cases he
    rintro key ⟨⟩

/-- By induction on the chunks that are left. -/
theorem throws_sendChunks (env : Environment) (clientSocket : Socket) (userId : Int)
    (filename : String) (i : Nat) (chunks : List Bytes) :
    Throws (fun _ => False) (sendChunks env clientSocket userId filename i chunks) := by
  induction chunks generalizing i with
  | nil => exact throws_pure _
  | cons chunk chunks ih =>
      refine throws_bind (throws_sendChunk env clientSocket userId filename i chunk _)
        fun goOn => ?_
      cases goOn with
      | true => exact ih (i + 1)
      | false => exact throws_pure _

theorem throws_completeTransfer (env : Environment) (filename : String) :
    Throws (fun _ => False) (completeTransfer env filename) := by
  refine throws_bind throws_get fun w => ?_
  split
  · exact throws_pure _
  · split
    · exact throws_pure _
    · refine throws_catchException ?_ (throws_pure _)
      refine throws_bind (throws_write _ _ _ _) fun _ => throws_bind ?_ fun _ => throws_modify _
      exact fun s e he => (throws_sendChunks _ _ _ _ _ _ s e he).elim

theorem throws_acknowledge (env : Environment) (socket : Socket) (response : Json.Members) :
    Throws (fun _ => False) (acknowledge env socket response) :=
  throws_catchException (throws_write _ _ _ _) (throws_pure _)

theorem throws_uploadFileChunk (env : Environment) (filename chunkData : String) :
    Throws (fun _ => False) (uploadFileChunk env filename chunkData) :=
  throws_bind throws_get fun _ => throws_bind (throws_set _) fun _ => throws_pure _

theorem throws_processChunk (env : Environment) (socket : Socket) (filename chunkData : String)
    (chunkNumber : UInt64) (isLast : Bool) :
    Throws (fun _ => False) (processChunk env socket filename chunkData chunkNumber isLast) := by
  refine throws_bind (throws_modify _) fun _ => throws_bind throws_get fun w => ?_
  dsimp only
  split
  · exact throws_acknowledge _ _ _
  · refine throws_bind (throws_uploadFileChunk env filename chunkData) fun success => ?_
    split
    · refine throws_bind (throws_modify _) fun _ => ?_
      split
      · exact throws_bind (throws_completeTransfer env filename) fun _ => throws_acknowledge _ _ _
      · exact throws_acknowledge _ _ _
    · exact throws_acknowledge _ _ _

theorem returns_handleFileChunk (env : Environment) (socket : Socket) (request : Json)
    (w : World) : Returns (handleFileChunk env socket request) w ↔ FileChunkCompletes request := by
  have hrest := fun filename chunkData chunkNumber isLast =>
    returns_of_throws (throws_processChunk env socket filename chunkData chunkNumber isLast) w
  simp only [handleFileChunk, returns_attempt_bind, FileChunkCompletes, hrest, and_true,
    ← Json.exists_readString_iff, ← Json.exists_readSize_iff, ← Json.exists_readBool_iff]
  simp only [exists_and_right]

/-! ### Requests -/

/-- A request line ends normally, whatever its bytes and however the writes go,
exactly if `Completes` holds. -/
theorem returns_handleRequestLine_iff (parse : JsonParser) (env : Environment)
    (socket : Socket) (line : Bytes) (w : World) :
    Returns (handleRequestLine parse env socket line) w ↔ Completes env w (parse line) := by
  have hw : w.beginRequest.writes = 0 := rfl
  rw [handleRequestLine, returns_modify_bind]
  cases parse line with
  | error failure =>
      cases failure with
      | parseError => exact iff_true_intro (returns_reply env socket _ _)
      | outOfRange =>
          rw [processRequest, Completes]
          exact iff_false_intro fun h => Exists.elim h fun _ hok => nomatch hok
  | ok request =>
      rw [processRequest, dispatch, Completes]
      cases request.member? "type" with
      | none => exact iff_true_intro (returns_reply env socket _ _)
      | some type =>
          simp only [returns_ite, returns_handleRegister hw, returns_handleAuthorize hw,
            returns_handleSendMessage hw, returns_handleFileChunk, returns_handleGetUserKeys hw,
            returns_handleSendAesKey hw, iff_true_intro (returns_reply env socket _ _)]
          rfl

/-- The line of a request without any field but its type. -/
def bareRegisterLine : Bytes := bytesOf "\x7b\"type\":\"register\"\x7d\r"

/-- What `parse` makes of that line. -/
def parseBareRegister : JsonParser := fun line =>
  if line = bareRegisterLine then .ok (.object [("type", .string "register")])
  else .error .parseError

/-- The request to register without a nickname does not end normally. -/
theorem not_returns_bareRegister :
    let run := handleRequestLine parseBareRegister .working 0 bareRegisterLine
    (exec run (.start .fresh)).1 = .error (.absentKey "nickname") ∧
      ¬ Returns run (.start .fresh) := by
  intro run
  have hrun : (exec run (.start .fresh)).1 = .error (.absentKey "nickname") := by rfl
  refine ⟨hrun, ?_⟩
  rintro ⟨a, ha⟩
  rw [hrun] at ha
  cases ha

end Silence.Server
