import Silence.Server.Sessions

/-!
# Silence.Server.Recipients

Messages, keys and files only go to sockets of their receivers.

All frames for other users than the requester are written to the socket that
`ConnectedClientsManager` has for them, and only `handle_authorize` adds to its map,
after the check of the credentials. So whatever happens in between, a user is only
mapped to sockets on which it has authorized (`authorized_of_mapped`).
-/

namespace Silence.Server

open Silence.Lib Silence.Lib.Effect

/-- The user has authorized on the socket. -/
def LoggedInOn (parse : JsonParser) (history : History) (userId : Int)
    (socket : Socket) : Prop :=
  ∃ entry ∈ history, entry.1.socket = socket ∧ entry.1.login parse = some userId

/-! ### The map of the clients -/

/-- What an event leaves in the map was there before, or is a login on the socket of the event. -/
theorem mapped_step {parse : JsonParser} {w : World} {event : Event} {userId : Int}
    {socket : Socket}
    (h : (w.step parse event).connectedClients.getClientSocket userId = some socket) :
    w.connectedClients.getClientSocket userId = some socket ∨
      (event.socket = socket ∧ event.login parse = some userId) := by
  rw [connectedClients_step] at h
  cases event with
  | request requester env line =>
      cases hlogin : (Event.request requester env line).login parse with
      | none =>
          rw [hlogin] at h
          exact .inl h
      | some userId' =>
          simp only [hlogin, ConnectedClients.getClientSocket, ConnectedClients.addClient,
            OrdMap.find?_insert] at h
          split at h
          · rename_i heq
            exact .inr ⟨Option.some.inj h, by rw [heq]⟩
          · exact .inl h
  | disconnect closed =>
      dsimp only at h
      rw [getClientSocket_remove] at h
      split at h
      · cases h
      · exact .inl h

/-- In every run, users are mapped to sockets on which they have authorized. -/
theorem authorized_of_mapped {parse : JsonParser} {fileServer : FileServer.State}
    {history : History} {w : World} (hrun : ServerRun parse fileServer history w) :
    ∀ userId socket, w.connectedClients.getClientSocket userId = some socket →
      LoggedInOn parse history userId socket := by
  refine hrun.invariant (I := fun history w => ∀ userId socket,
    w.connectedClients.getClientSocket userId = some socket →
      LoggedInOn parse history userId socket) ?_ ?_
  · intro userId socket h
    cases h
  · intro history w event ih _ userId socket h
    rcases mapped_step h with hold | ⟨hsocket, hlogin⟩
    · obtain ⟨entry, hentry, hauthorized⟩ := ih userId socket hold
      exact ⟨entry, List.mem_append_left _ hentry, hauthorized⟩
    · exact ⟨_, List.mem_append_right _ List.mem_cons_self, hsocket, hlogin⟩

/-! ### The frames of a request -/

/-- All frames that are written in the log are those of the request. -/
def WritesFor (env : Environment) (w₀ : World) (requester : Socket) (request : Json) (w : World) :
    Prop :=
  ∀ socket recipient frame ok, .wrote socket recipient frame ok ∈ w.log →
    Makes env w₀ requester request (.wrote socket recipient frame ok)

theorem WritesFor.append {env : Environment} {w₀ w w' : World} {requester : Socket}
    {request : Json} (h : WritesFor env w₀ requester request w) {o : Observation}
    (hlog : w'.log = w.log ++ [o])
    (ho : ∀ socket recipient frame ok, o = .wrote socket recipient frame ok →
      Makes env w₀ requester request o) :
    WritesFor env w₀ requester request w' := by
  -- an observation that is no frame adds nothing to show
  intro socket recipient frame ok hmem
  rw [hlog] at hmem
  rcases List.mem_append.mp hmem with hold | hnew
  · exact h _ _ _ _ hold
  · have heq := (List.mem_singleton.mp hnew).symm
    exact heq ▸ ho _ _ _ _ heq

theorem closed_writesFor (env : Environment) (w₀ : World) (requester : Socket) (request : Json) :
    Closed env w₀ requester request (WritesFor env w₀ requester request) := by
  have hgrows : ∀ w, w₀.Grows env requester request w → WritesFor env w₀ requester request w :=
    fun w hw _ _ _ _ hmem => hw.log _ hmem
  exact {
    unchanged := hgrows
    authorize := fun w userId hw _ => (hgrows w hw).append rfl nofun
    announce := fun w transfer hw _ => (hgrows w hw).append rfl nofun
    takeChunk := fun w chunk hw _ => by
      rcases takeChunk_log w env chunk with hlog | hlog
      · intro socket recipient frame ok hmem
        rw [hlog] at hmem
        exact hgrows w hw _ _ _ _ hmem
      · exact (hgrows w hw).append hlog nofun
    recordWrite := fun w o hmakes hw => hw.append rfl fun _ _ _ _ _ => hmakes
    eraseTransfer := fun w chunk _ _ hw => hw }

/-- A frame is meant for one user at most. -/
theorem MeantFor.unique {env : Environment} {w₀ : World} {request : Json} {frame : Json.Members}
    {userId userId' : Int} (h : MeantFor env w₀ request frame userId)
    (h' : MeantFor env w₀ request frame userId') : userId = userId' := by
  rcases h with ⟨htype, nickname, hnickname, rfl⟩ | ⟨filename, hfile, transfer, hfind, rfl⟩
  · rcases h' with ⟨-, nickname', hnickname', rfl⟩ | ⟨filename', hfile', -⟩
    · rw [hnickname, Except.ok.injEq] at hnickname'
      rw [hnickname']
    · rcases htype with h | h <;> simp [CarriesFile, h] at hfile'
  · rcases h' with ⟨htype, -⟩ | ⟨filename', hfile', transfer', hfind', rfl⟩
    · rcases htype with h | h <;> simp [CarriesFile, h] at hfile
    · obtain rfl : filename = filename' := by simpa using hfile.2.symm.trans hfile'.2
      rw [hfind, Option.some.injEq] at hfind'
      rw [hfind']

/-- In every run, with any event after it: a message, a key or a file that the event writes is
meant for a user, and it is written to a socket on which this user has authorized. -/
theorem frames_to_authorized {parse : JsonParser} {fileServer : FileServer.State}
    {history : History} {w : World} (hrun : ServerRun parse fileServer history w)
    {requester : Socket} {env : Environment} {line : Bytes} {socket : Socket}
    {recipient : Option Int} {frame : Json.Members} {ok : Bool}
    (hwrote : .wrote socket recipient frame ok ∈
      (w.step parse (.request requester env line)).log) (hprivate : IsPrivate frame) :
    ∃ userId, (recipient = some userId ∧ MeantFor env w (parse.value line) frame userId) ∧
      ∀ userId', recipient = some userId' ∨
        MeantFor env w (parse.value line) frame userId' →
        LoggedInOn parse history userId' socket := by
  have hmakes := @step_request parse w requester env line _
    (closed_writesFor env w.beginRequest requester (parse.value line))
    socket recipient frame ok hwrote
  obtain ⟨haddressed, -, -, hrecipient⟩ := hmakes
  obtain ⟨userId, rfl, hmeant⟩ := hrecipient hprivate
  refine ⟨userId, ⟨rfl, hmeant⟩, fun userId' h' => ?_⟩
  obtain rfl : userId = userId' := by
    rcases h' with h' | h'
    · exact Option.some.inj h'
    · exact MeantFor.unique hmeant h'
  exact authorized_of_mapped hrun userId socket haddressed

/-! ### A message -/

def textForA : Json.Members := fileMessage 5 "a" "none"

def parseText : JsonParser := parseLines [authorizeRequest "a" 1, textForA]

/-- What user 1 gets of a message. -/
def receivedText : Json.Members :=
  ((Message.create 0 5 1 "m").setId 1).toJson.set "type" (.string "receive_msg")

set_option maxRecDepth 2000 in
/-- User 1 logs in on socket 7, and a message for it comes from socket 8. -/
theorem frames_to_authorized_text :
    let w := (World.start .fresh).step parseText (loginEvent "a" 1)
    ∃ userId, (some 1 = some userId ∧ MeantFor .working w (.object textForA) receivedText userId) ∧
      ∀ userId', some 1 = some userId' ∨
        MeantFor .working w (.object textForA) receivedText userId' →
        LoggedInOn parseText (historyFrom parseText .fresh [loginEvent "a" 1]) userId' 7 := by
  intro w
  have hparse : parseText (lineOf textForA) = .ok (.object textForA) := rfl
  have hwrote : Observation.wrote 7 (some 1) receivedText true ∈
      (w.step parseText (.request 8 .working (lineOf textForA))).log :=
    List.mem_of_getElem? (i := 2) rfl
  have hsent := frames_to_authorized (serverRun_historyFrom parseText .fresh [loginEvent "a" 1])
    hwrote (Or.inl (by simp [receivedText]))
  rwa [JsonParser.value_of_ok hparse] at hsent

end Silence.Server
