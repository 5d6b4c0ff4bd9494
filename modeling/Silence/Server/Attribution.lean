import Silence.Server.Runs

/-!
# Silence.Server.Attribution

On whose behalf the server acts.

Messages are stored and delivered, keys relayed and files announced in the name of
the `sender_id` that a request carries. `handle_authorize` is the only handler that
checks credentials, and no other handler asks whether the socket of a request has
passed it: `attributions_requested` is what is left, and `unauthorized_forged` shows
that nothing stronger holds.
-/

namespace Silence.Server

open Silence.Lib Silence.Lib.Effect

/-! ### Attribution -/

/-- The transfer that an observation announces. -/
def Observation.announcement : Observation → Option PendingFileTransfer
  | .announced transfer => some transfer
  | _ => none

/-- The announcement that started the current upload of a file. -/
def lastAnnouncement (filename : String) (history : History) : Option PendingFileTransfer :=
  (history.flatMap fun entry => entry.2.log.filterMap Observation.announcement).reverse.find?
    (·.filename = filename)

/-- What the server does in the name of a user, after the steps `before`. -/
def AttributedTo (before : History) (userId : Int) : Observation → Prop
  | .stored message => message.senderId = userId
  | .wrote _ _ frame ok => ok = true ∧ CarriesFrom frame userId
  | .accepted filename _ =>
      ∃ transfer, lastAnnouncement filename before = some transfer ∧ transfer.senderId = userId
  | _ => False

/-- The user has authorized on the socket. -/
def AuthorizedOn (before : History) (socket : Socket) (userId : Int) : Prop :=
  ∃ entry ∈ before, entry.1.socket = socket ∧ .authorized userId ∈ entry.2.log

/-- A step does something in the name of a user who has not authorized on the socket it
comes from. -/
def Unauthorized (history : History) (userId : Int) (o : Observation) : Prop :=
  ∃ before entry after, history = before ++ entry :: after ∧ o ∈ entry.2.log ∧
    AttributedTo before userId o ∧ ¬ AuthorizedOn before entry.1.socket userId

/-! ### What a step records -/

/-- What a request must be like to cause the observation. -/
def CausedBy (request : Json) : Observation → Prop
  | .stored message => NamesSender request message.senderId
  | .wrote _ _ frame _ => ∀ userId, CarriesFrom frame userId → NamesSender request userId
  | .announced transfer => NamesSender request transfer.senderId ∧
      request.member? "file_name" = some (.string transfer.filename)
  | .accepted filename chunkData =>
      ∃ chunk, Brings request chunk ∧ chunk.filename = filename ∧ chunk.chunkData = chunkData
  | _ => True

/-- Everything in the log is caused by the request. -/
def LogCausedBy (request : Json) (w : World) : Prop := ∀ o ∈ w.log, CausedBy request o

theorem causedBy_of_makes {env : Environment} {w₀ : World} {requester : Socket}
    {request : Json} {o : Observation} (h : Makes env w₀ requester request o) :
    CausedBy request o := by
  cases o with
  | wrote => exact h.2.1
  | stored => exact ⟨Or.inl h.1, h.2⟩
  | announced => exact h.elim
  | accepted => exact h.elim
  | _ => trivial

theorem LogCausedBy.append {request : Json} {w w' : World} {o : Observation}
    (h : LogCausedBy request w) (hlog : w'.log = w.log ++ [o]) (ho : CausedBy request o) :
    LogCausedBy request w' :=
  forall_mem_log hlog h ho

theorem closed_logCausedBy (env : Environment) (w₀ : World) (requester : Socket)
    (request : Json) : Closed env w₀ requester request (LogCausedBy request) := by
  have hgrows : ∀ w, w₀.Grows env requester request w → LogCausedBy request w :=
    fun w hw o ho => causedBy_of_makes (hw.log o ho)
  exact {
    unchanged := hgrows
    authorize := fun w userId hw hmakes => (hgrows w hw).append rfl trivial
    announce := fun w transfer hw ha =>
      (hgrows w hw).append rfl ⟨⟨Or.inl ha.type, ha.sender⟩, ha.file⟩
    takeChunk := fun w chunk hw hb => by
      rcases takeChunk_log w env chunk with hlog | hlog
      · intro o ho
        rw [hlog] at ho
        exact hgrows w hw o ho
      · exact (hgrows w hw).append hlog ⟨chunk, hb, rfl, rfl⟩
    recordWrite := fun w o hmakes hw => hw.append rfl (causedBy_of_makes hmakes)
    eraseTransfer := fun w chunk hb _ hw => hw }

/-- The log of every step is caused by its request. -/
theorem logCausedBy_step (parse : JsonParser) (w : World) (event : Event) :
    LogCausedBy (event.parsed parse) (w.step parse event) := by
  cases event with
  | request socket env line => exact step_request (closed_logCausedBy env w.beginRequest socket _)
  | disconnect socket => exact fun o ho => by cases ho

/-! ### Runs -/

/-- An announcement that is found was made by an earlier step. -/
theorem exists_announced {filename : String} {history : History} {transfer : PendingFileTransfer}
    (h : lastAnnouncement filename history = some transfer) :
    transfer.filename = filename ∧ ∃ entry ∈ history, .announced transfer ∈ entry.2.log := by
  have hname := List.find?_some h
  have hmem := List.mem_reverse.mp (List.mem_of_find?_eq_some h)
  obtain ⟨entry, hentry, hlog⟩ := List.mem_flatMap.mp hmem
  obtain ⟨o, ho, hannounced⟩ := List.mem_filterMap.mp hlog
  refine ⟨of_decide_eq_true hname, entry, hentry, ?_⟩
  cases o with
  | announced transfer' =>
      obtain rfl : transfer' = transfer := by simpa [Observation.announcement] using hannounced
      exact ho
  | _ => simp [Observation.announcement] at hannounced

/-- What the observation, attributed to the user, was requested by. -/
def RequestedFor (parse : JsonParser) (before : History) (event : Event) (userId : Int) :
    Observation → Prop
  | .accepted filename chunkData =>
      (∃ chunk, Brings (event.parsed parse) chunk ∧ chunk.filename = filename ∧
        chunk.chunkData = chunkData) ∧
      ∃ entry ∈ before, NamesSender (entry.1.parsed parse) userId ∧
        (entry.1.parsed parse).member? "file_name" = some (.string filename)
  | _ => NamesSender (event.parsed parse) userId

/-- In every run, whatever is stored, delivered or relayed in the name of a user was
requested by a request that names this user as its sender, and every chunk that is accepted
into a file that the user announced was sent for this file, after a request naming the user
had announced it. -/
theorem attributions_requested {parse : JsonParser} {fileServer : FileServer.State}
    {history : History} {w : World} (hrun : ServerRun parse fileServer history w)
    {before after : History} {entry : Event × World} (hhistory : history = before ++ entry :: after)
    {o : Observation} (ho : o ∈ entry.2.log) {userId : Int}
    (hattributed : AttributedTo before userId o) :
    RequestedFor parse before entry.1 userId o := by
  have hcaused : ∀ entry ∈ history, LogCausedBy (entry.1.parsed parse) entry.2 :=
    hrun.forall_mem fun w event _ => logCausedBy_step parse w event
  have ho := hcaused entry (by simp [hhistory]) o ho
  cases o with
  | stored message =>
      obtain rfl : message.senderId = userId := hattributed
      exact ho
  | wrote socket recipient frame ok => exact ho userId hattributed.2
  | accepted filename chunkData =>
      obtain ⟨transfer, hlast, rfl⟩ := hattributed
      obtain ⟨rfl, earlier, hearlier, hannounced⟩ := exists_announced hlast
      exact ⟨ho, earlier, hearlier,
        hcaused earlier (by simp [hhistory, hearlier]) _ hannounced⟩
  | _ => exact hattributed.elim

/-! ### Requests in the name of another user -/

/-- A login of user 1, and a message, a key and a chunk sent in the name of user 7. -/
def forgedRequests : List Json.Members := [
  authorizeRequest "a" 1,
  fileMessage 7 "a" "0123456789abcdef",
  [("dsa_r", .string "3"), ("dsa_signrature", .string "4"), ("encrypted_aes_key_c1", .string "1"),
    ("encrypted_aes_key_c2", .string "2"), ("receiver_nickname", .string "a"),
    ("sender_id", .number 7), ("type", .string "send_aes_key")],
  fileChunk "0123456789abcdef" "d" 1 false]

/-- User 1 logs in on socket 5; the rest comes from socket 0, on which nobody ever logs in. -/
def forgedEvents : List Event :=
  forgedRequests.zipIdx.map fun (request, i) =>
    .request (if i = 0 then 5 else 0) .working (lineOf request)

def forgedHistory : History := historyFrom (parseLines forgedRequests) .fresh forgedEvents

/-- The step with the number `n` does something in the name of a user who never logs in. -/
theorem unauthorized_of_getElem? {history : History} {n : Nat} {entry : Event × World}
    {userId : Int} {o : Observation} (hentry : history[n]? = some entry) (ho : o ∈ entry.2.log)
    (hattributed : AttributedTo (history.take n) userId o)
    (hnever : ∀ entry ∈ history, .authorized userId ∉ entry.2.log) :
    Unauthorized history userId o := by
  obtain ⟨hlt, rfl⟩ := List.getElem?_eq_some_iff.mp hentry
  refine ⟨history.take n, history[n], history.drop (n + 1), ?_, ho, hattributed, ?_⟩
  · rw [← List.drop_eq_getElem_cons hlt, List.take_append_drop]
  · rintro ⟨earlier, hearlier, -, hlogin⟩
    exact hnever earlier (List.mem_of_mem_take hearlier) hlogin

/-- The user that an observation logs in. -/
def Observation.login : Observation → Option Int
  | .authorized userId => some userId
  | _ => none

/-- Whoever does not occur among the logins never logs in. -/
theorem never_authorized {history : History} {userId : Int}
    (h : userId ∉ history.flatMap fun entry => entry.2.log.filterMap Observation.login) :
    ∀ entry ∈ history, .authorized userId ∉ entry.2.log := by
  intro entry hentry hlogin
  exact h (List.mem_flatMap.mpr ⟨entry, hentry, List.mem_filterMap.mpr ⟨_, hlogin, rfl⟩⟩)

set_option maxRecDepth 4000 in
/-- A message is stored, a key relayed and a chunk accepted in the name of user 7, who has
not authorized on any socket. -/
theorem unauthorized_forged :
    ServerRun (parseLines forgedRequests) .fresh forgedHistory
        (forgedEvents.foldl (World.step (parseLines forgedRequests)) (.start .fresh)) ∧
      Unauthorized forgedHistory 7 (.stored ⟨1, 7, 1, 0, false, 0, "m"⟩) ∧
      Unauthorized forgedHistory 7 (.wrote 5 (some 1) [("dsa_r", .string "3"),
        ("dsa_signature", .string "4"), ("encrypted_aes_key_c1", .string "1"),
        ("encrypted_aes_key_c2", .string "2"), ("sender_id", .number 7),
        ("type", .string "receive_aes_key")] true) ∧
      Unauthorized forgedHistory 7 (.accepted "0123456789abcdef" "d") := by
  have hnever : ∀ entry ∈ forgedHistory, .authorized 7 ∉ entry.2.log := by
    refine never_authorized ?_
    have hlogins : forgedHistory.flatMap (fun entry => entry.2.log.filterMap Observation.login) =
        [1] := by rfl
    rw [hlogins]
    decide
  refine ⟨serverRun_historyFrom _ _ _, ?_, ?_, ?_⟩
  · refine unauthorized_of_getElem? (n := 1) rfl (List.mem_of_getElem? (i := 0) ?_) rfl hnever
    rfl
  · refine unauthorized_of_getElem? (n := 2) rfl (List.mem_of_getElem? (i := 1) ?_) ?_ hnever
    · rfl
    · exact ⟨rfl, Or.inr rfl, rfl⟩
  · refine unauthorized_of_getElem? (n := 3) rfl (List.mem_of_getElem? (i := 0) ?_) ?_ hnever
    · rfl
    · exact ⟨⟨"0123456789abcdef", 7, 1⟩, rfl, rfl⟩

set_option maxRecDepth 4000 in
/-- The accepted chunk of that run was sent for its file, which user 7 is named as the
sender of. -/
theorem attributions_requested_forged :
    ∃ entry, forgedHistory[3]? = some entry ∧
      RequestedFor (parseLines forgedRequests) (forgedHistory.take 3) entry.1 7
        (.accepted "0123456789abcdef" "d") := by
  refine ⟨_, rfl, attributions_requested (serverRun_historyFrom _ .fresh forgedEvents)
    (List.take_append_drop 3 forgedHistory).symm (List.mem_of_getElem? (i := 0) ?_) ?_⟩
  · rfl
  · exact ⟨⟨"0123456789abcdef", 7, 1⟩, rfl, rfl⟩

end Silence.Server
