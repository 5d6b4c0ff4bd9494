import Silence.Client.AesKeyDelivery
import Silence.Server.Acknowledgments
import Silence.Server.MessageMetadataRepository
import Silence.Server.Recipients

/-!
# Silence.System.Messages

The server over its tables of messages, as `database/message_metadata.sql` makes them.

No statement of the server names the chat of a message, so the tables refuse every message
and `send_message` goes no further than its first reply. A file is announced behind that
reply only. What is left for other clients are AES keys, and these do not change a client
(`nothing_delivered`).
-/

namespace Silence.System

open Silence.Lib Silence.Lib.Effect
open Client (processServerMessage exec_processServerMessage_aesKey)
open Common (MessageMetadata)
open Server (Json JsonParser World Environment Socket Message MessageDraw MessagesDatabase
  SqlSession Observation)

/-! ### The server and its messages -/

/-- `Message::get_metadata`. -/
def metadataOf (message : Message) : MessageMetadata where
  id := Int32.ofInt message.id
  senderId := Int32.ofInt message.senderId
  receiverId := Int32.ofInt message.receiverId
  chatId := Int32.ofInt message.chatId
  deleted := message.deleted
  createdTimestamp := Int64.ofInt message.createdTimestamp
  deletedTimestamp := none
  lastEditedTimestamp := none

/-- The environment in which messages are created in the tables. -/
def recording (env : Environment) (messages : MessagesDatabase) (session : SqlSession)
    (draw : Option MessageDraw) : Environment :=
  { env with createMessage := fun message =>
      (messages.create session draw (metadataOf message)).1.toInt }

/-- The message that a request makes the server create, if there is one. -/
def messageOf (env : Environment) (request : Json) : Option Message :=
  match request.member? "type", request.readInt "sender_id",
    request.readString "receiver_nickname", request.readString "message_text" with
  | some type, .ok senderId, .ok receiverNickname, .ok text =>
      if type.isText "send_message" ∧ env.getUserId receiverNickname ≠ 0 then
        some (.create env.now senderId (env.getUserId receiverNickname) text)
      else none
  | _, _, _, _ => none

structure Relay where
  world : World
  messages : MessagesDatabase

inductive RelayEvent where
  | request (socket : Socket) (env : Environment) (session : SqlSession)
      (draw : Option MessageDraw) (line : Bytes)
  | disconnect (socket : Socket)

def Relay.step (parse : JsonParser) (t : Relay) : RelayEvent → Relay
  | .request socket env session draw line => {
      world := t.world.step parse (.request socket (recording env t.messages session draw) line)
      messages :=
        match messageOf env (parse.value line) with
        | some message => (t.messages.create session draw (metadataOf message)).2
        | none => t.messages }
  | .disconnect socket => { t with world := t.world.step parse (.disconnect socket) }

/-- The runs of a server that is started over some tables. -/
abbrev RelayRun (parse : JsonParser) (fileServer : FileServer.State)
    (messages : MessagesDatabase) (history : List (RelayEvent × Relay)) (t : Relay) : Prop :=
  Run (Relay.step parse) (fun _ _ => True) ⟨.start fileServer, messages⟩ history t

/-- The tables refuse every message. -/
theorem createMessage_recording (env : Environment) (messages : MessagesDatabase)
    (session : SqlSession) (draw : Option MessageDraw) (message : Message) :
    (recording env messages session draw).createMessage message = 0 := by
  rw [recording]
  dsimp only
  rw [messages.create_eq]
  rfl

/-! ### What is recorded -/

/-- Nothing is stored or announced, and other clients only get AES keys. -/
def Quiet : Observation → Prop
  | .wrote _ recipient frame _ =>
      recipient = none ∨ frame.lookup "type" = some (.string "receive_aes_key")
  | .stored _ => False
  | .announced _ => False
  | _ => True

/-- Only quiet observations so far, and no transfer waits. -/
structure IsQuiet (w : World) : Prop where
  log : ∀ o ∈ w.log, Quiet o
  pendingFileTransfers : w.pendingFileTransfers = []

/-- The request has at most written an error, to the requester. -/
def OnlyError (socket : Socket) (w : World) : Prop :=
  w.log = [] ∨ ∃ response ok, w.log = [.wrote socket none
    (Json.Members.ofList [("status", .string "error"), ("response", .string response)]) ok]

section Handlers

variable {env : Environment} {socket : Socket} {request : Json}

theorem IsQuiet.append {w w' : World} (h : IsQuiet w) {o : Observation}
    (hlog : w'.log = w.log ++ [o]) (hpending : w'.pendingFileTransfers = w.pendingFileTransfers)
    (ho : Quiet o) : IsQuiet w' where
  log := Server.forall_mem_log hlog h.log ho
  pendingFileTransfers := hpending.trans h.pendingFileTransfers

theorem preserves_quiet_write {recipient : Option Int} {frame : Json.Members}
    (hquiet : recipient = none ∨ frame.lookup "type" = some (.string "receive_aes_key")) :
    Preserves IsQuiet (Server.write env socket recipient frame) :=
  Server.triple_write (fun _ hw _ => hw.append rfl rfl hquiet)
    fun _ hw _ => hw.append rfl rfl hquiet

theorem preserves_quiet_observe {o : Observation} (ho : Quiet o) :
    Preserves IsQuiet (Server.observe o) :=
  preserves_modify fun _ hw => hw.append rfl rfl ho

theorem quiet_handleRegister :
    Preserves IsQuiet (Server.handleRegister env socket request) := by
  refine preserves_attempt_bind fun nickname _ => preserves_attempt_bind fun password _ =>
    preserves_attempt_bind fun elGamalPublicKey _ => preserves_attempt_bind fun dsaPublicKey _ => ?_
  refine preserves_bind (preserves_quiet_observe trivial) fun _ => ?_
  refine preserves_bind (preserves_quiet_observe trivial) fun _ => ?_
  exact triple_ite (fun _ => preserves_quiet_write (.inl rfl))
    fun _ => preserves_quiet_write (.inl rfl)

theorem quiet_handleAuthorize :
    Preserves IsQuiet (Server.handleAuthorize env socket request) := by
  refine preserves_attempt_bind fun nickname _ => preserves_attempt_bind fun password _ =>
    preserves_attempt_bind fun userId _ => ?_
  refine triple_ite (fun _ => ?_) fun _ => preserves_quiet_write (.inl rfl)
  refine preserves_bind (preserves_modify fun w hw => ?_) fun _ => preserves_quiet_write (.inl rfl)
  exact hw.append rfl rfl trivial

/-- The first reply is an error. -/
theorem quiet_handleSendMessage (hnone : ∀ message, env.createMessage message = 0) :
    Preserves IsQuiet (Server.handleSendMessage env socket request) := by
  refine preserves_attempt_bind fun senderId _ => preserves_attempt_bind fun nickname _ =>
    preserves_attempt_bind fun text _ => ?_
  refine triple_ite (fun _ => preserves_quiet_write (.inl rfl)) fun _ => ?_
  exact triple_ite (fun _ => preserves_quiet_write (.inl rfl)) fun h => absurd (hnone _) h

theorem quiet_handleGetUserKeys :
    Preserves IsQuiet (Server.handleGetUserKeys env socket request) := by
  refine preserves_attempt_bind fun nickname _ => ?_
  refine triple_ite (fun _ => preserves_quiet_write (.inl rfl)) fun _ => ?_
  split
  · exact preserves_quiet_write (.inl rfl)
  · exact preserves_attempt_bind fun _ _ => preserves_attempt_bind fun _ _ =>
      preserves_quiet_write (.inl rfl)

theorem quiet_handleSendAesKey :
    Preserves IsQuiet (Server.handleSendAesKey env socket request) := by
  refine preserves_attempt_bind fun senderId _ => preserves_attempt_bind fun nickname _ =>
    preserves_attempt_bind fun c1 _ => preserves_attempt_bind fun c2 _ =>
    preserves_attempt_bind fun dsaR _ => preserves_attempt_bind fun dsaSignature _ => ?_
  refine triple_ite (fun _ => preserves_quiet_write (.inl rfl)) fun _ => ?_
  refine preserves_bind (preserves_quiet_write (.inl rfl)) fun _ => triple_get_bind fun w hw => ?_
  refine triple_weaken (P := IsQuiet) (Q := fun _ => IsQuiet) ?_ (fun s hs => hs ▸ hw)
    fun _ _ hs => hs
  cases w.connectedClients.getClientSocket (env.getUserId nickname) with
  | none => exact preserves_pure _
  | some receiverSocket => exact preserves_quiet_write (.inr (by simp))

/-- A completed file is for nobody. -/
theorem quiet_handleChunk {w : World} (h : IsQuiet w) (chunk : Server.Chunk) :
    IsQuiet (w.handleChunk env chunk) := by
  have htaken : IsQuiet (w.takeChunk env chunk) := by
    have hpending := Server.takeChunk_pendingFileTransfers w env chunk
    rcases Server.takeChunk_log w env chunk with hlog | hlog
    · exact ⟨hlog ▸ h.log, hpending.trans h.pendingFileTransfers⟩
    · exact h.append hlog hpending trivial
  unfold Server.World.handleChunk
  split
  · rcases Server.completeTransfer_cases env chunk.filename (w.takeChunk env chunk) with
      ⟨transfer, receiverSocket, hfind, -⟩ | ⟨-, hrun⟩
    · rw [htaken.pendingFileTransfers] at hfind
      cases hfind
    · rw [hrun]
      exact htaken
  · exact htaken

theorem quiet_reply {w : World} (h : IsQuiet w) (response : String) :
    IsQuiet (exec (Server.reply env socket response) w).2 := by
  rw [Server.exec_reply]
  exact h.append rfl rfl (.inl rfl)

theorem quiet_dispatch (hnone : ∀ message, env.createMessage message = 0)
    (hchunk : ∀ chunk, ¬ Server.Brings request chunk) {w : World} (h : IsQuiet w) :
    IsQuiet (exec (Server.dispatch env socket request) w).2 := by
  unfold Server.dispatch
  cases hmember : request.member? "type" with
  | none => exact quiet_reply h _
  | some type =>
      dsimp only
      -- one case for each type of request, in the order of the source
      split
      · exact quiet_handleRegister.exec_snd h
      split
      · exact quiet_handleAuthorize.exec_snd h
      split
      · exact (quiet_handleSendMessage hnone).exec_snd h
      split
      · rename_i htext
        have htype : request.HasType "file_chunk" :=
          hmember.trans (congrArg some (Server.Json.isText_iff.mp htext))
        rw [Server.exec_handleFileChunk_of_not_brings htype hchunk]
        exact h
      split
      · exact quiet_handleGetUserKeys.exec_snd h
      split
      · exact quiet_handleSendAesKey.exec_snd h
      · exact quiet_reply h _

/-- One request. -/
theorem quiet_step {parse : JsonParser} {line : Bytes}
    (hnone : ∀ message, env.createMessage message = 0) {w : World}
    (hpending : w.pendingFileTransfers = []) :
    IsQuiet (w.step parse (.request socket env line)) := by
  have hbegin : IsQuiet w.beginRequest := ⟨by simp [Server.World.beginRequest], hpending⟩
  by_cases hchunk : ∃ chunk, Server.Brings (parse.value line) chunk
  · obtain ⟨chunk, hchunk⟩ := hchunk
    rw [Server.step_chunk hchunk]
    exact (quiet_handleChunk hbegin chunk).append rfl rfl (.inl rfl)
  · cases hparse : parse line with
    | error failure =>
        rw [Server.World.step, Server.handleRequestLine, exec_bind, exec_modify, hparse]
        cases failure with
        | parseError => exact quiet_reply hbegin _
        | outOfRange => exact hbegin
    | ok request =>
        rw [JsonParser.value_of_ok hparse] at hchunk
        rw [Server.step_request_of_parse hparse]
        exact quiet_dispatch hnone (not_exists.mp hchunk) hbegin

/-- A request to send a message is answered with an error, or not at all. -/
theorem log_sendMessage {parse : JsonParser} {line : Bytes}
    (hnone : ∀ message, env.createMessage message = 0)
    (htype : (parse.value line).HasType "send_message") (w : World) :
    OnlyError socket (w.step parse (.request socket env line)) := by
  cases hparse : parse line with
  | error failure =>
      rw [JsonParser.value_of_error hparse] at htype
      cases htype
  | ok request =>
      rw [JsonParser.value_of_ok hparse] at htype
      have hdispatch : Server.dispatch env socket request =
          Server.handleSendMessage env socket request := by
        rw [Server.dispatch, htype]
        rfl
      rw [Server.step_request_of_parse hparse, hdispatch, Server.handleSendMessage, exec_bind,
        exec_attempt]
      -- the three fields that are read
      cases request.readInt "sender_id" with
      | error e => exact .inl rfl
      | ok senderId =>
          dsimp only
          rw [exec_bind, exec_attempt]
          cases request.readString "receiver_nickname" with
          | error e => exact .inl rfl
          | ok receiverNickname =>
              dsimp only
              rw [exec_bind, exec_attempt]
              cases request.readString "message_text" with
              | error e => exact .inl rfl
              | ok text =>
                  dsimp only
                  split
                  · rw [Server.exec_write]
                    exact .inr ⟨_, _, rfl⟩
                  · rw [if_pos (hnone _), Server.exec_write]
                    exact .inr ⟨_, _, rfl⟩

end Handlers

/-! ### Runs -/

/-- The tables stay as they are. -/
theorem messages_step (parse : JsonParser) (t : Relay) (event : RelayEvent) :
    (t.step parse event).messages = t.messages := by
  cases event with
  | disconnect socket => rfl
  | request socket env session draw line =>
      show (match messageOf env (parse.value line) with
        | some message => (t.messages.create session draw (metadataOf message)).2
        | none => t.messages) = _
      cases messageOf env (parse.value line) with
      | none => rfl
      | some message => exact congrArg Prod.snd (t.messages.create_eq _ _ _)

/-- The server is quiet behind each event, and answers no message but with an error. -/
structure QuietStep (parse : JsonParser) (entry : RelayEvent × Relay) : Prop where
  isQuiet : IsQuiet entry.2.world
  sendMessage : ∀ socket env session draw line, entry.1 = .request socket env session draw line →
    (parse.value line).HasType "send_message" → OnlyError socket entry.2.world

theorem quietStep_step (parse : JsonParser) {t : Relay} (event : RelayEvent)
    (hpending : t.world.pendingFileTransfers = []) :
    QuietStep parse (event, t.step parse event) := by
  cases event with
  | disconnect socket =>
      refine ⟨⟨fun o hmem => ?_, hpending⟩, fun _ _ _ _ _ heq => by cases heq⟩
      cases hmem
  | request socket env session draw line =>
      have hnone := createMessage_recording env t.messages session draw
      refine ⟨quiet_step hnone hpending, ?_⟩
      rintro _ _ _ _ _ ⟨⟩ htype
      exact log_sendMessage hnone htype t.world

/-- In every run no message is stored and no transfer waits; a request to send a message is answered
with an error, or not at all; and what is written for another client is a frame that does not
change this client. -/
theorem nothing_delivered {parse : JsonParser} {fileServer : FileServer.State}
    {messages : MessagesDatabase} {history : List (RelayEvent × Relay)} {t : Relay}
    (hrun : RelayRun parse fileServer messages history t) :
    (t.messages = messages ∧ t.world.pendingFileTransfers = []) ∧
      (∀ entry ∈ history, ∀ socket env session draw line,
        entry.1 = .request socket env session draw line →
        (parse.value line).HasType "send_message" → OnlyError socket entry.2.world) ∧
      ∀ entry ∈ history, ∀ socket userId frame ok,
        .wrote socket (some userId) frame ok ∈ entry.2.world.log →
        ∀ parse' message, parse' message = .ok (.object frame) → ∀ system client,
          exec (processServerMessage parse' system message) client = (.ok (), client) := by
  obtain ⟨hmessages, hpending, hsteps⟩ : t.messages = messages ∧
      t.world.pendingFileTransfers = [] ∧ ∀ entry ∈ history, QuietStep parse entry := by
    refine hrun.invariant (I := fun history t => t.messages = messages ∧
      t.world.pendingFileTransfers = [] ∧ ∀ entry ∈ history, QuietStep parse entry)
      ⟨rfl, rfl, by simp⟩ ?_
    rintro history t event ⟨hmessages, hpending, hsteps⟩ -
    have hstep := quietStep_step parse event hpending
    exact ⟨(messages_step parse t event).trans hmessages, hstep.isQuiet.pendingFileTransfers,
      List.forall_mem_append.mpr ⟨hsteps, List.forall_mem_singleton.mpr hstep⟩⟩
  refine ⟨⟨hmessages, hpending⟩, fun entry hmem => (hsteps entry hmem).sendMessage, ?_⟩
  intro entry hmem socket userId frame ok hwrote parse' message hparse system client
  -- the frame is one with an AES key
  have hquiet : some userId = none ∨ frame.lookup "type" = some (.string "receive_aes_key") :=
    (hsteps entry hmem).isQuiet.log _ hwrote
  exact exec_processServerMessage_aesKey hparse (hquiet.resolve_left (Option.some_ne_none _))
    system client

/-- A message between two users who have a chat. -/
def messageEvent : RelayEvent :=
  .request 8 .working Server.utcSession (some ⟨1, .ofSeconds 0⟩) (Server.lineOf Server.textForA)

theorem nothing_delivered_text :
    let t := (Relay.mk (.start .fresh) Server.oneChat).step Server.parseText messageEvent
    (t.messages = Server.oneChat ∧ t.world.pendingFileTransfers = []) ∧ OnlyError 8 t.world := by
  intro t
  have hrun : RelayRun Server.parseText .fresh Server.oneChat [(messageEvent, t)] t :=
    .snoc messageEvent .nil trivial
  obtain ⟨hstate, hsend, -⟩ := nothing_delivered hrun
  exact ⟨hstate, hsend _ (List.mem_singleton.mpr rfl) _ _ _ _ _ rfl rfl⟩

end Silence.System
