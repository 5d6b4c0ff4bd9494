import Silence.Server.RequestErrors
import Silence.Server.Transfers

/-!
# Silence.Server.MessageReplies

How often a request with a message is answered.

`handle_send_message` answers the sender and tells the receiver of the message, and
behind the branch for an attached file it does both once more, whether or not
there is a file. `sendMessage_answersOnce_iff` says for which requests this does not
show: for those that are refused, and for those whose branch for the file throws.
-/

namespace Silence.Server

open Silence.Lib.Effect
open Json.Members (ofList)

/-! ### The frames of a request -/

/-- The frame, if it is a reply to the requester that is written. -/
def Observation.reply? : Observation → Option Json.Members
  | .wrote _ none message true => some message
  | _ => none

/-- The frame, if it is one for the user that is written. -/
def Observation.frameFor? (userId : Int) : Observation → Option Json.Members
  | .wrote _ (some recipient) message true => if recipient = userId then some message else none
  | _ => none

/-- The replies that the requester gets. -/
def World.replies (w : World) : List Json.Members := w.log.filterMap Observation.reply?

/-- The frames that the user gets. -/
def World.framesFor (w : World) (userId : Int) : List Json.Members :=
  w.log.filterMap (Observation.frameFor? userId)

/-- No write to the socket fails. -/
def World.Live (w : World) (socket : Socket) : Prop :=
  ∀ recipient message ok, .wrote socket recipient message ok ∈ w.log → ok = true

/-- The message that is stored for the request, if its receiver exists and storing it succeeds. -/
def storedMessage (env : Environment) (request : Json) : Option Message :=
  match request.readInt "sender_id", request.readString "receiver_nickname",
    request.readString "message_text" with
  | .ok senderId, .ok receiverNickname, .ok text =>
      let message := Message.create env.now senderId (env.getUserId receiverNickname) text
      if env.getUserId receiverNickname = 0 ∨ env.createMessage message = 0 then none
      else some (message.setId (env.createMessage message))
  | _, _, _ => none

/-- The request that leads from `w` to `w'` is answered once: with success, and the receiver gets
the message if it is connected, or with an error and without any other effect. -/
def AnswersOnce (env : Environment) (request : Json) (w w' : World) : Prop :=
  match storedMessage env request with
  | some message =>
      (∃ reply, w'.replies = [reply] ∧ reply.lookup "status" = some (.string "success")) ∧
        ((w.connectedClients.getClientSocket message.receiverId).isSome →
          ∃ received, w'.framesFor message.receiverId = [received] ∧
            received.lookup "type" = some (.string "receive_msg") ∧
              received.lookup "id" = some (.number message.id))
  | none =>
      (∃ reply, w'.replies = [reply] ∧ reply.lookup "status" = some (.string "error")) ∧
        (∀ userId, w'.framesFor userId = []) ∧
          w'.pendingFileTransfers = w.pendingFileTransfers

/-! ### The condition -/

/-- The fields of a request with a message are there and convert. -/
def MessageFields (request : Json) : Prop :=
  request.has Json.isInt "sender_id" ∧ request.has Json.isString "receiver_nickname" ∧
    request.has Json.isString "message_text"

/-- The message is refused, or the name of its file does not convert, after the receiver has got
the message. -/
def AnsweredBeforeFile (env : Environment) (w : World) (request : Json) : Prop :=
  match storedMessage env request with
  | some message => ¬ FileNameConverts request ∧
      ((w.connectedClients.getClientSocket message.receiverId).isSome → env.writeOk 1 = true)
  | none => MessageFields request

/-! ### Counting -/

section Counting

variable {w : World}

theorem replies_recordWrite (socket : Socket) (message : Json.Members) (ok : Bool) :
    (w.recordWrite (.wrote socket none message ok)).replies =
      w.replies ++ if ok then [message] else [] := by
  unfold World.replies
  rw [World.recordWrite_log, List.filterMap_append]
  cases ok <;> rfl

theorem replies_recordWrite_client (socket : Socket) (userId : Int) (message : Json.Members)
    (ok : Bool) :
    (w.recordWrite (.wrote socket (some userId) message ok)).replies = w.replies := by
  unfold World.replies
  rw [World.recordWrite_log, List.filterMap_append]
  cases ok <;> exact List.append_nil _

theorem framesFor_recordWrite (socket : Socket) (userId : Int) (message : Json.Members)
    (ok : Bool) :
    (w.recordWrite (.wrote socket none message ok)).framesFor userId = w.framesFor userId := by
  unfold World.framesFor
  rw [World.recordWrite_log, List.filterMap_append]
  cases ok <;> exact List.append_nil _

theorem framesFor_recordWrite_client (socket : Socket) (userId : Int) (message : Json.Members)
    (ok : Bool) :
    (w.recordWrite (.wrote socket (some userId) message ok)).framesFor userId =
      w.framesFor userId ++ if ok then [message] else [] := by
  unfold World.framesFor
  rw [World.recordWrite_log, List.filterMap_append]
  cases ok
  · rfl
  · simp [Observation.frameFor?]

end Counting

theorem World.Live.of_log {w w' : World} {socket : Socket} {back : List Observation}
    (h : w'.Live socket) (hlog : w'.log = w.log ++ back) : w.Live socket := by
  intro recipient message ok hmem
  refine h recipient message ok ?_
  rw [hlog]
  exact List.mem_append_left _ hmem

/-! ### One round of answers -/

/-- The requester is answered, and the other user is told if it is connected. -/
def answer (env : Environment) (socket : Socket) (reply : Json.Members)
    (clientSocket : Option Socket) (userId : Int) (frame : Json.Members) : Handler Unit := do
  write env socket none reply
  writeToClient env clientSocket userId frame

section Answer

variable {env : Environment} {socket : Socket} {reply frame : Json.Members}
  {clientSocket : Option Socket} {userId : Int} {w : World}

theorem exec_answer_of_ok (hok : env.writeOk w.writes = true) :
    exec (answer env socket reply clientSocket userId frame) w =
      exec (writeToClient env clientSocket userId frame)
        (w.recordWrite (.wrote socket none reply true)) := by
  unfold answer
  rw [exec_bind, exec_write, hok]
  rfl

theorem log_answer : ∃ back,
    (exec (answer env socket reply clientSocket userId frame) w).2.log =
      w.log ++ .wrote socket none reply (env.writeOk w.writes) :: back := by
  cases hok : env.writeOk w.writes with
  | false =>
      refine ⟨[], ?_⟩
      unfold answer
      rw [exec_bind, exec_write, hok]
      rfl
  | true =>
      rw [exec_answer_of_ok hok]
      cases clientSocket with
      | none => exact ⟨[], rfl⟩
      | some client =>
          unfold writeToClient
          rw [exec_write, World.recordWrite_log, World.recordWrite_log, List.append_assoc]
          exact ⟨_, rfl⟩

/-- The requester gets its reply, and the other user its frame unless that cannot be written. -/
theorem answer_cases
    (hlive : (exec (answer env socket reply clientSocket userId frame) w).2.Live socket) :
    let run := exec (answer env socket reply clientSocket userId frame) w
    run.2.replies = w.replies ++ [reply] ∧
      ((run.1 = .ok () ∧ (clientSocket.isSome → env.writeOk (w.writes + 1) = true) ∧
          run.2.framesFor userId =
            w.framesFor userId ++ if clientSocket.isSome then [frame] else []) ∨
        (run.1 = .error .systemError ∧ clientSocket.isSome ∧
          env.writeOk (w.writes + 1) = false ∧ run.2.framesFor userId = w.framesFor userId)) := by
  have hok : env.writeOk w.writes = true := by
    obtain ⟨back, hlog⟩ := @log_answer env socket reply frame clientSocket userId w
    refine hlive none reply _ ?_
    rw [hlog]
    exact List.mem_append_right _ List.mem_cons_self
  rw [exec_answer_of_ok hok]
  cases clientSocket with
  | none =>
      refine ⟨replies_recordWrite socket reply true, .inl ⟨rfl, nofun, ?_⟩⟩
      exact (framesFor_recordWrite socket userId reply true).trans (List.append_nil _).symm
  | some client =>
      unfold writeToClient
      dsimp only
      rw [exec_write, World.recordWrite_writes, replies_recordWrite_client,
        framesFor_recordWrite_client, framesFor_recordWrite]
      refine ⟨replies_recordWrite socket reply true, ?_⟩
      cases hclient : env.writeOk (w.writes + 1) with
      | true => exact .inl ⟨rfl, fun _ => rfl, rfl⟩
      | false => exact .inr ⟨rfl, rfl, rfl, List.append_nil _⟩

end Answer

/-! ### The handler -/

section Handler

variable {env : Environment} {request : Json} {w : World}

/-- The file part throws on a name that is not a string, and writes nothing. -/
theorem announceFile_cases (request : Json) (senderId receiverId : Int) (w : World) :
    (¬ FileNameConverts request ∧
      ∃ e, exec (announceFile request senderId receiverId) w = (.error e, w)) ∨
    (FileNameConverts request ∧ ∃ filename w' back,
      exec (announceFile request senderId receiverId) w = (.ok filename, w') ∧
        w'.log = w.log ++ back ∧ w'.replies = w.replies) := by
  unfold announceFile FileNameConverts
  cases request.member? "file_name" with
  | none => exact .inr ⟨nofun, none, w, [], rfl, (List.append_nil _).symm, rfl⟩
  | some fileName =>
      simp only [Option.mem_some_iff, forall_eq']
      split
      · rename_i hnone
        rw [Json.isText_iff.mp hnone]
        exact .inr ⟨rfl, none, w, [], rfl, (List.append_nil _).symm, rfl⟩
      · cases fileName with
        | string text =>
            refine .inr ⟨rfl, some text, w.announce ⟨text, senderId, receiverId⟩,
              [.announced ⟨text, senderId, receiverId⟩], rfl, rfl, ?_⟩
            show (w.log ++ [Observation.announced _]).filterMap Observation.reply? = _
            rw [List.filterMap_append]
            exact List.append_nil _
        | _ => exact .inl ⟨nofun, _, rfl⟩

/-- The reply to the sender of a stored message. -/
def senderReply (message : Message) : Json.Members :=
  (ofList [("status", .string "success"), ("response", .string "Message sent successfully")]).update
    message.toJson

/-- The frame with a stored message. -/
def messageFrame (message : Message) : Json.Members :=
  message.toJson.set "type" (.string "receive_msg")

theorem lookup_senderReply (message : Message) :
    (senderReply message).lookup "status" = some (.string "success") := by
  simp [senderReply, Message.toJson]

theorem lookup_messageFrame (message : Message) :
    (messageFrame message).lookup "type" = some (.string "receive_msg") ∧
      (messageFrame message).lookup "id" = some (.number message.id) := by
  simp [messageFrame, Message.toJson]

/-- The reply behind the branch for the file. -/
def senderReplyAgain (message : Message) (filename : Option String) : Json.Members :=
  (((setFileName (senderReply message) filename).set "status" (.string "success")).set
    "response" (.string "Message sent successfully")).update message.toJson

/-- The frame behind the branch for the file. -/
def messageFrameAgain (message : Message) (filename : Option String) : Json.Members :=
  setFileName (((messageFrame message).update message.toJson).set "type" (.string "receive_msg"))
    filename

/-- The handler answers twice, with the branch for the file in between. -/
theorem exec_deliverMessage (socket : Socket) (message : Message) :
    let receiverSocket := w.connectedClients.getClientSocket message.receiverId
    exec (deliverMessage env socket request message) w =
      exec (do
        answer env socket (senderReply message) receiverSocket message.receiverId
          (messageFrame message)
        let filename ← announceFile request message.senderId message.receiverId
        answer env socket (senderReplyAgain message filename) receiverSocket message.receiverId
          (messageFrameAgain message filename)) w := by
  unfold deliverMessage answer
  simp only [exec_bind, exec_write, exec_get]
  cases env.writeOk w.writes with
  | false => rfl
  | true => rfl

/-- Either the file part throws behind the first round, or the receiver cannot be told of the
message, or the sender is answered twice. -/
theorem deliverMessage_cases {socket : Socket} {message : Message}
    (hlive : (exec (deliverMessage env socket request message) w).2.Live socket) :
    let w' := (exec (deliverMessage env socket request message) w).2
    let connected := (w.connectedClients.getClientSocket message.receiverId).isSome
    (¬ FileNameConverts request ∧ (connected → env.writeOk (w.writes + 1) = true) ∧
      w'.replies = w.replies ++ [senderReply message] ∧
      w'.framesFor message.receiverId =
        w.framesFor message.receiverId ++ if connected then [messageFrame message] else []) ∨
    (connected ∧ env.writeOk (w.writes + 1) = false ∧
      w'.framesFor message.receiverId = w.framesFor message.receiverId) ∨
    (FileNameConverts request ∧ ∃ reply,
      w'.replies = w.replies ++ [senderReply message] ++ [reply]) := by
  intro w' connected
  have hw' : w' = (exec (deliverMessage env socket request message) w).2 := rfl
  rw [← hw'] at hlive
  rw [exec_deliverMessage, exec_bind] at hw'
  have hround := @answer_cases env socket (senderReply message) (messageFrame message)
    (w.connectedClients.getClientSocket message.receiverId) message.receiverId w
  rcases hrun : exec (answer env socket (senderReply message)
    (w.connectedClients.getClientSocket message.receiverId) message.receiverId
      (messageFrame message)) w with ⟨result, w₁⟩
  rw [hrun] at hw' hround
  dsimp only at hround
  cases result with
  | error e =>
      -- the first round throws, and the handler ends
      rw [hw'] at hlive ⊢
      obtain ⟨-, ⟨hok, -⟩ | ⟨-, hconnected, hfail, hframes⟩⟩ := hround hlive
      · cases hok
      · exact .inr (.inl ⟨hconnected, hfail, hframes⟩)
  | ok =>
      dsimp only at hw'
      rw [exec_bind] at hw'
      rcases announceFile_cases request message.senderId message.receiverId w₁ with
        ⟨hfile, e, hannounce⟩ | ⟨hfile, filename, w₂, back, hannounce, hlog, hsame⟩
      · rw [hannounce] at hw'
        dsimp only at hw'
        rw [hw'] at hlive ⊢
        obtain ⟨hreplies, ⟨-, hclient, hframes⟩ | ⟨herror, -⟩⟩ := hround hlive
        · exact .inl ⟨hfile, hclient, hreplies, hframes⟩
        · cases herror
      · rw [hannounce] at hw'
        dsimp only at hw'
        have hlive₂ := hlive
        rw [hw'] at hlive₂
        have hagain := (answer_cases hlive₂).1
        obtain ⟨back', hlog'⟩ := @log_answer env socket (senderReplyAgain message filename)
          (messageFrameAgain message filename)
          (w.connectedClients.getClientSocket message.receiverId) message.receiverId w₂
        rw [hlog, List.append_assoc] at hlog'
        have hreplies := (hround (hlive₂.of_log hlog')).1
        refine .inr (.inr ⟨hfile, senderReplyAgain message filename, ?_⟩)
        rw [hw', hagain, hsame, hreplies]

/-- The error that a refused message is answered with. -/
def refusal (response : String) : Json.Members :=
  ofList [("status", .string "error"), ("response", .string response)]

theorem lookup_refusal (response : String) :
    (refusal response).lookup "status" = some (.string "error") := by
  simp [refusal]

theorem handleSendMessage_cases (env : Environment) (socket : Socket) (request : Json)
    (w : World) :
    let w' := (exec (handleSendMessage env socket request) w).2
    (storedMessage env request = none ∧ ¬ MessageFields request ∧ w' = w) ∨
    (storedMessage env request = none ∧ MessageFields request ∧ ∃ response,
      w' = w.recordWrite (.wrote socket none (refusal response) (env.writeOk w.writes))) ∨
    (∃ message, storedMessage env request = some message ∧
      w' = (exec (deliverMessage env socket request message) (w.observe (.stored message))).2) := by
  unfold handleSendMessage storedMessage MessageFields
  rw [← Json.exists_readInt_iff, ← Json.exists_readString_iff, ← Json.exists_readString_iff]
  cases request.readInt "sender_id" with
  | error e => exact .inl ⟨rfl, by simp, rfl⟩
  | ok senderId =>
      cases request.readString "receiver_nickname" with
      | error e => exact .inl ⟨rfl, by simp, rfl⟩
      | ok receiverNickname =>
          cases request.readString "message_text" with
          | error e => exact .inl ⟨rfl, by simp, rfl⟩
          | ok text =>
              refine .inr ?_
              have hfields : (∃ n, Except.ok (ε := Exn) senderId = .ok n) ∧
                  (∃ t, Except.ok (ε := Exn) receiverNickname = .ok t) ∧
                  ∃ t, Except.ok (ε := Exn) text = .ok t := ⟨⟨_, rfl⟩, ⟨_, rfl⟩, ⟨_, rfl⟩⟩
              simp only [exec_bind, exec_attempt]
              by_cases hfound : env.getUserId receiverNickname = 0
              · rw [if_pos hfound, if_pos (Or.inl hfound), exec_write]
                exact .inl ⟨rfl, hfields, _, rfl⟩
              · rw [if_neg hfound]
                by_cases hsaved : env.createMessage (.create env.now senderId
                    (env.getUserId receiverNickname) text) = 0
                · rw [if_pos hsaved, if_pos (Or.inr hsaved), exec_write]
                  exact .inl ⟨rfl, hfields, _, rfl⟩
                · rw [if_neg hsaved, if_neg (by tauto)]
                  exact .inr ⟨_, rfl, rfl⟩

end Handler

/-- For a refused message the requester is answered once exactly if the fields can be read. -/
theorem answersOnce_iff_of_none {env : Environment} {w : World} {socket : Socket} {request : Json}
    (hlive : (exec (handleSendMessage env socket request) w.beginRequest).2.Live socket)
    (hnone : storedMessage env request = none) :
    AnswersOnce env request w (exec (handleSendMessage env socket request) w.beginRequest).2 ↔
      MessageFields request := by
  unfold AnswersOnce
  rw [hnone]
  dsimp only
  rcases handleSendMessage_cases env socket request w.beginRequest with
    ⟨-, hfields, hrun⟩ | ⟨-, hfields, response, hrun⟩ | ⟨message, hsome, -⟩
  · refine iff_of_false ?_ hfields
    rw [hrun]
    intro hanswers
    obtain ⟨reply, hreplies, -⟩ := hanswers.1
    cases hreplies
  · refine iff_of_true ?_ hfields
    have hok : env.writeOk w.beginRequest.writes = true := by
      rw [hrun] at hlive
      exact hlive none _ _ List.mem_cons_self
    rw [hrun, hok]
    refine ⟨⟨refusal response, ?_, lookup_refusal response⟩, fun userId => ?_, rfl⟩
    · rw [replies_recordWrite]
      rfl
    · rw [framesFor_recordWrite]
      rfl
  · rw [hnone] at hsome
    cases hsome

/-- For a stored message the requester and the receiver are answered once exactly if the handler
throws behind the first round. -/
theorem answersOnce_iff_of_some {env : Environment} {w : World} {socket : Socket} {request : Json}
    {message : Message}
    (hlive : (exec (handleSendMessage env socket request) w.beginRequest).2.Live socket)
    (hsome : storedMessage env request = some message) :
    AnswersOnce env request w (exec (handleSendMessage env socket request) w.beginRequest).2 ↔
      ¬ FileNameConverts request ∧
        ((w.connectedClients.getClientSocket message.receiverId).isSome →
          env.writeOk 1 = true) := by
  unfold AnswersOnce
  rw [hsome]
  dsimp only
  rcases handleSendMessage_cases env socket request w.beginRequest with
    ⟨hnone, -⟩ | ⟨hnone, -⟩ | ⟨message', hsome', hrun⟩
  · rw [hsome] at hnone
    cases hnone
  · rw [hsome] at hnone
    cases hnone
  · obtain rfl : message = message' := Option.some.inj (hsome.symm.trans hsome')
    rw [hrun] at hlive ⊢
    rcases deliverMessage_cases hlive with
      ⟨hfile, hclient, hreplies, hframes⟩ | ⟨hconnected, hfail, hframes⟩ | ⟨hfile, reply, hreplies⟩
    · refine iff_of_true ⟨⟨_, hreplies, lookup_senderReply message⟩, fun hconnected => ?_⟩
        ⟨hfile, hclient⟩
      refine ⟨messageFrame message, hframes.trans ?_, lookup_messageFrame message⟩
      exact congrArg (_ ++ ·) (if_pos hconnected)
    · refine iff_of_false (fun h => ?_) fun h => ?_
      · obtain ⟨received, hone, -⟩ := h.2 hconnected
        rw [hframes] at hone
        cases hone
      · exact absurd (hfail.symm.trans (h.2 hconnected)) Bool.false_ne_true
    · refine iff_of_false ?_ fun h => h.1 hfile
      intro hanswers
      obtain ⟨reply', hone, -⟩ := hanswers.1
      rw [hreplies] at hone
      cases hone

/-- A request with a message whose requester can be written to is answered once exactly if the
message is refused, or the handler throws in the branch for the file. -/
theorem sendMessage_answersOnce_iff {env : Environment} {w : World} {socket : Socket}
    {request : Json}
    (hlive : (exec (handleSendMessage env socket request) w.beginRequest).2.Live socket) :
    AnswersOnce env request w (exec (handleSendMessage env socket request) w.beginRequest).2 ↔
      AnsweredBeforeFile env w request := by
  unfold AnsweredBeforeFile
  cases hstored : storedMessage env request with
  | none => exact answersOnce_iff_of_none hlive hstored
  | some message => exact answersOnce_iff_of_some hlive hstored

/-! ### A message without a file -/

/-- A message of user 7 for user 1. -/
def messageForA : Json :=
  .object [("message_text", .string "t"), ("receiver_nickname", .string "a"),
    ("sender_id", .number 7), ("type", .string "send_message")]

/-- User 1 does not exist. -/
def noUsers : Environment := { Environment.working with getUserId := fun _ => 0 }

/-- The message is refused, with one reply. -/
theorem sendMessage_answersOnce_iff_refused :
    AnswersOnce noUsers messageForA (.start .fresh)
      (exec (handleSendMessage noUsers 1 messageForA) (World.start .fresh).beginRequest).2 := by
  have hrefused : AnsweredBeforeFile noUsers (.start .fresh) messageForA :=
    show MessageFields messageForA from ⟨rfl, rfl, rfl⟩
  refine (sendMessage_answersOnce_iff ?_).mpr hrefused
  intro recipient message ok hmem
  cases List.mem_singleton.mp hmem
  rfl

/-- User 1 is connected. -/
def loggedInA : World :=
  (World.start .fresh).step parseTwoUsers (.request 1 twoUsers (lineOf loginRequest))

/-- The sender gets two replies, and the receiver two frames. -/
theorem sendMessage_answersTwice :
    let w := (exec (handleSendMessage twoUsers 2 messageForA) loggedInA.beginRequest).2
    w.Live 2 ∧ w.replies.length = 2 ∧ (w.framesFor 1).length = 2 ∧
      ¬ AnswersOnce twoUsers messageForA loggedInA w := by
  intro w
  refine ⟨?_, rfl, rfl, ?_⟩
  · intro recipient message ok hmem
    have hlog : ∃ stored reply frame reply' frame', w.log = [.stored stored,
        .wrote 2 none reply true, .wrote 1 (some 1) frame true,
        .wrote 2 none reply' true, .wrote 1 (some 1) frame' true] := ⟨_, _, _, _, _, rfl⟩
    obtain ⟨stored, reply, frame, reply', frame', hlog⟩ := hlog
    rw [hlog] at hmem
    simp only [List.mem_cons, Observation.wrote.injEq, reduceCtorEq, List.not_mem_nil,
      false_or, or_false] at hmem
    rcases hmem with h | h | h | h <;> exact h.2.2.2
  · intro hanswers
    obtain ⟨reply, hone, -⟩ := hanswers.1
    have htwo := congrArg List.length hone
    cases htwo

end Silence.Server
