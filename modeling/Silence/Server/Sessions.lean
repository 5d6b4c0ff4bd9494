import Silence.Server.Runs

/-!
# Silence.Server.Sessions

Which users the server takes for connected.

`handle_authorize` maps a user to its socket, and a disconnect is to remove whoever
is mapped to the socket. `remove_client_by_socket` stops behind the first entry, so
a second user of the socket stays mapped to it. `Sessions` runs the server next to
the latest logins and the closed sockets, and `sessions_exact` says that its map is
right as long as no two users share a socket that is closed.
-/

namespace Silence.Server

open Silence.Lib Silence.Lib.Effect

/-! ### Logins -/

/-- The user that a request authorizes. -/
def loginOf (env : Environment) (request : Json) : Option Int := do
  let type ← request.member? "type"
  let nickname ← (request.readString "nickname").toOption
  let password ← (request.readString "password").toOption
  let userId ← (request.readInt "user_id").toOption
  if type.isText "authorize" && env.authorizeUser userId nickname password then some userId
  else none

/-- The user that an event authorizes on its socket. -/
def Event.login (parse : JsonParser) : Event → Option Int
  | .request _ env line => loginOf env (parse.value line)
  | .disconnect _ => none

/-- A request authorizes a user if it has the type and the fields, and the credentials are right. -/
theorem loginOf_eq_some_iff {env : Environment} {request : Json} {userId : Int} :
    loginOf env request = some userId ↔
      request.HasType "authorize" ∧ request.readInt "user_id" = .ok userId ∧
        ∃ nickname password, request.readString "nickname" = .ok nickname ∧
          request.readString "password" = .ok password ∧
          env.authorizeUser userId nickname password = true := by
  simp only [loginOf, Option.bind_eq_bind, Option.bind_eq_some_iff, toOption_eq_some_iff,
    Json.HasType]
  constructor
  · rintro ⟨type, htype, nickname, hnickname, password, hpassword, id, hid, hauth⟩
    split at hauth
    · rename_i hok
      cases hauth
      rw [Bool.and_eq_true, Json.isText_iff] at hok
      exact ⟨hok.1 ▸ htype, hid, nickname, password, hnickname, hpassword, hok.2⟩
    · cases hauth
  · rintro ⟨htype, hid, nickname, password, hnickname, hpassword, hok⟩
    refine ⟨_, htype, nickname, hnickname, password, hpassword, userId, hid, ?_⟩
    have htext : (Json.string "authorize").isText "authorize" = true := Json.isText_iff.mpr rfl
    rw [htext, hok]
    rfl

/-- A request that authorizes a user adds it with its socket, also if the reply fails. -/
theorem exec_dispatch_login {env : Environment} {request : Json} {userId : Int}
    (h : loginOf env request = some userId) (socket : Socket) (w : World) :
    ∃ o, (exec (dispatch env socket request) w).2 = (w.authorize userId socket).recordWrite o := by
  obtain ⟨htype, hid, nickname, password, hnickname, hpassword, hok⟩ := loginOf_eq_some_iff.mp h
  have hdispatch : dispatch env socket request = handleAuthorize env socket request := by
    rw [dispatch, htype]
    rfl
  rw [hdispatch, handleAuthorize, hnickname, hpassword, hid]
  simp only [exec_bind, exec_attempt, hok, if_true, exec_modify, exec_write]
  exact ⟨_, rfl⟩

/-- Any other request leaves the map alone. -/
theorem connectedClients_of_not_login {env : Environment} {w : World} {socket : Socket}
    {request : Json} (h : loginOf env request = none) {w' : World}
    (hw' : ∀ J, Closed env w socket request J → J w') :
    w'.connectedClients = w.connectedClients :=
  hw' (fun w' => w'.connectedClients = w.connectedClients) {
    unchanged := fun _ hw => hw.connectedClients
    authorize := fun _ userId _ hmakes => by
      rw [loginOf_eq_some_iff.mpr hmakes] at h
      cases h
    announce := fun _ _ hw _ => hw.connectedClients
    takeChunk := fun w₁ chunk hw _ =>
      (takeChunk_connectedClients w₁ env chunk).trans hw.connectedClients
    recordWrite := fun _ _ _ hw => hw
    eraseTransfer := fun _ _ _ _ hw => hw }

/-- The step of a request is that of its dispatch, if the line parses. -/
theorem step_request_of_parse {parse : JsonParser} {line : Bytes} {request : Json}
    (h : parse line = .ok request) (w : World) (socket : Socket) (env : Environment) :
    w.step parse (.request socket env line) =
      (exec (dispatch env socket request) w.beginRequest).2 := by
  rw [World.step, handleRequestLine, exec_bind, exec_modify, h]
  rfl

/-- The step of a request that authorizes a user. -/
theorem step_login {parse : JsonParser} {env : Environment} {line : Bytes} {userId : Int}
    (h : loginOf env (parse.value line) = some userId) (w : World) (socket : Socket) :
    ∃ o, w.step parse (.request socket env line) =
      (w.beginRequest.authorize userId socket).recordWrite o := by
  cases hparse : parse line with
  | error failure =>
      rw [JsonParser.value_of_error hparse] at h
      cases h
  | ok request =>
      rw [JsonParser.value_of_ok hparse] at h
      rw [step_request_of_parse hparse]
      exact exec_dispatch_login h socket w.beginRequest

/-- What an event does to the map of the connected clients. -/
theorem connectedClients_step (parse : JsonParser) (w : World) (event : Event) :
    (w.step parse event).connectedClients =
      match event with
      | .request socket _ _ =>
          match event.login parse with
          | some userId => w.connectedClients.addClient userId socket
          | none => w.connectedClients
      | .disconnect socket => w.connectedClients.removeClientBySocket socket := by
  cases event with
  | request socket env line =>
      dsimp only [Event.login]
      cases hlogin : loginOf env (parse.value line) with
      | some userId =>
          obtain ⟨o, hstep⟩ := step_login hlogin w socket
          rw [hstep]
          rfl
      | none =>
          exact connectedClients_of_not_login (w := w.beginRequest) hlogin fun J hJ =>
            step_request hJ
  | disconnect socket => rfl

/-! ### Sessions -/

/-- The server, with the socket of each user's latest login and the sockets that are closed. -/
structure Sessions where
  world : World
  latest : Int → Option Socket
  closed : Socket → Prop

def Sessions.start (fileServer : FileServer.State) : Sessions where
  world := .start fileServer
  latest _ := none
  closed _ := False

def Sessions.step (parse : JsonParser) (t : Sessions) (event : Event) : Sessions where
  world := t.world.step parse event
  latest :=
    match event.login parse with
    | some userId => Function.update t.latest userId (some event.socket)
    | none => t.latest
  closed :=
    match event with
    | .request _ _ _ => t.closed
    | .disconnect socket => fun s => s = socket ∨ t.closed s

/-- A user is mapped to a socket exactly if it is open and the user's latest login was on it. -/
def Sessions.Exact (t : Sessions) : Prop :=
  ∀ userId socket, t.world.connectedClients.getClientSocket userId = some socket ↔
    t.latest userId = some socket ∧ ¬ t.closed socket

/-- The condition: of at most one user the latest login was on a socket that is closed. -/
def Sessions.Single (t : Sessions) : Event → Prop
  | .request _ _ _ => True
  | .disconnect socket => ∀ userId userId', t.latest userId = some socket →
      t.latest userId' = some socket → userId = userId'

/-- The event happens on an open socket and meets the condition. -/
def Sessions.Guard (t : Sessions) (event : Event) : Prop :=
  ¬ t.closed event.socket ∧ t.Single event

/-! ### Steps -/

/-- Requests keep the map right. -/
theorem Sessions.Exact.request {parse : JsonParser} {t : Sessions} (h : t.Exact)
    {socket : Socket} (hopen : ¬ t.closed socket) (env : Environment) (line : Bytes) :
    (t.step parse (.request socket env line)).Exact := by
  intro userId socket'
  have hclients := connectedClients_step parse t.world (.request socket env line)
  simp only [Sessions.step, Event.socket, hclients]
  cases (Event.request socket env line).login parse with
  | none => exact h userId socket'
  | some userId' =>
      simp only [ConnectedClients.getClientSocket, ConnectedClients.addClient,
        OrdMap.find?_insert, Function.update_apply]
      split
      · constructor
        · intro hsocket
          exact ⟨hsocket, Option.some.inj hsocket ▸ hopen⟩
        · exact And.left
      · exact h userId socket'

/-- What a user is mapped to when a socket is closed. -/
theorem getClientSocket_remove (clients : ConnectedClients) (socket : Socket) (userId : Int) :
    (clients.removeClientBySocket socket).getClientSocket userId =
      if (clients.entries.find? fun entry => entry.2 = socket).map (·.1) = some userId then none
      else clients.getClientSocket userId :=
  OrdMap.find?_eraseFirst clients _ userId

/-- One of two users of a closed socket stays mapped to it. -/
theorem exists_left_of_ne {clients : ConnectedClients} {socket : Socket} {userId userId' : Int}
    (hne : userId ≠ userId') (h : clients.getClientSocket userId = some socket)
    (h' : clients.getClientSocket userId' = some socket) :
    ∃ left, (clients.removeClientBySocket socket).getClientSocket left = some socket := by
  by_cases hremoved : (clients.entries.find? fun entry => entry.2 = socket).map (·.1) = some userId
  · refine ⟨userId', ?_⟩
    have hother : (clients.entries.find? fun entry => entry.2 = socket).map (·.1) ≠ some userId' :=
      fun heq => hne (Option.some.inj (hremoved.symm.trans heq))
    rw [getClientSocket_remove, if_neg hother, h']
  · refine ⟨userId, ?_⟩
    rw [getClientSocket_remove, if_neg hremoved, h]

/-- The only user of a socket is removed with it. -/
theorem getClientSocket_remove_of_single {clients : ConnectedClients} {socket : Socket}
    (hsingle : ∀ userId userId', clients.getClientSocket userId = some socket →
      clients.getClientSocket userId' = some socket → userId = userId') (userId : Int)
    (socket' : Socket) :
    (clients.removeClientBySocket socket).getClientSocket userId = some socket' ↔
      clients.getClientSocket userId = some socket' ∧ socket' ≠ socket := by
  rw [getClientSocket_remove]
  cases hfirst : clients.entries.find? fun entry => entry.2 = socket with
  | none =>
      -- nobody is mapped to the socket, so nothing is erased
      have habsent : clients.getClientSocket userId ≠ some socket := by
        intro hmapped
        have hentry := List.find?_eq_none.mp hfirst _ (OrdMap.mem_of_find? hmapped)
        exact hentry (decide_eq_true rfl)
      simp only [Option.map_none, reduceCtorEq, if_false]
      constructor
      · intro hmapped
        refine ⟨hmapped, ?_⟩
        rintro rfl
        exact habsent hmapped
      · exact And.left
  | some entry =>
      obtain ⟨user, entrySocket⟩ := entry
      -- the first entry of the socket is erased, which is that of its only user
      have hentry : entrySocket = socket := by simpa using List.find?_some hfirst
      have huser : clients.getClientSocket user = some socket :=
        hentry ▸ OrdMap.find?_of_mem (List.mem_of_find?_eq_some hfirst)
      simp only [Option.map_some, Option.some.injEq]
      by_cases heq : user = userId
      · rw [if_pos heq, ← heq, huser]
        simp [eq_comm]
      · rw [if_neg heq]
        constructor
        · intro hmapped
          refine ⟨hmapped, ?_⟩
          rintro rfl
          exact heq (hsingle user userId huser hmapped)
        · exact And.left

/-- A disconnect keeps the map right if and only if the socket has at most one user. -/
theorem Sessions.Exact.disconnect_iff {parse : JsonParser} {t : Sessions} (h : t.Exact)
    {socket : Socket} (hopen : ¬ t.closed socket) :
    (t.step parse (.disconnect socket)).Exact ↔ t.Single (.disconnect socket) := by
  have hclients : (t.step parse (.disconnect socket)).world.connectedClients =
      t.world.connectedClients.removeClientBySocket socket := rfl
  have hmapped : ∀ userId, t.latest userId = some socket →
      t.world.connectedClients.getClientSocket userId = some socket :=
    fun userId hlatest => (h userId socket).mpr ⟨hlatest, hopen⟩
  constructor
  · intro hexact userId userId' hlatest hlatest'
    by_contra hne
    obtain ⟨left, hleft⟩ := exists_left_of_ne hne (hmapped _ hlatest) (hmapped _ hlatest')
    rw [← hclients] at hleft
    exact ((hexact left socket).mp hleft).2 (.inl rfl)
  · intro hsingle userId socket'
    have hone : ∀ userId userId',
        t.world.connectedClients.getClientSocket userId = some socket →
        t.world.connectedClients.getClientSocket userId' = some socket → userId = userId' :=
      fun userId userId' hm hm' =>
        hsingle userId userId' ((h userId socket).mp hm).1 ((h userId' socket).mp hm').1
    rw [hclients, getClientSocket_remove_of_single hone, h userId socket']
    simp only [Sessions.step, Event.login, not_or]
    tauto

theorem Sessions.Exact.step_iff {parse : JsonParser} {t : Sessions} (h : t.Exact)
    {event : Event} (hopen : ¬ t.closed event.socket) :
    (t.step parse event).Exact ↔ t.Single event := by
  cases event with
  | request socket env line => exact iff_of_true (h.request hopen env line) trivial
  | disconnect socket => exact h.disconnect_iff hopen

/-! ### Runs -/

/-- In every run in which a socket is closed only when at most one user has its latest login
there, users are mapped to open sockets exactly by their latest logins, and the next event on an
open socket keeps this if and only if it meets the condition as well. -/
theorem sessions_exact {parse : JsonParser} {fileServer : FileServer.State}
    {history : List (Event × Sessions)} {t : Sessions}
    (hrun : Run (Sessions.step parse) Sessions.Guard (.start fileServer) history t) :
    t.Exact ∧ ∀ event, ¬ t.closed event.socket →
      ((t.step parse event).Exact ↔ t.Single event) := by
  have hexact : t.Exact := by
    refine hrun.invariant (I := fun _ t => t.Exact) ?_ ?_
    · intro userId socket
      exact iff_of_false nofun fun h => nomatch h.1
    · exact fun _ t event h hguard => (h.step_iff hguard.1).mpr hguard.2
  exact ⟨hexact, fun event hopen => hexact.step_iff hopen⟩

/-! ### Users of one socket -/

/-- The login of a user on socket 7. -/
def loginEvent (nickname : String) (userId : Int) : Event :=
  .request 7 .working (lineOf (authorizeRequest nickname userId))

def parseLogins : JsonParser := parseLines [authorizeRequest "a" 1, authorizeRequest "b" 2]

/-- User 1 and then another user log in on one socket. -/
def afterLogins (nickname : String) (userId : Int) : Sessions :=
  ((Sessions.start .fresh).step parseLogins (loginEvent "a" 1)).step parseLogins
    (loginEvent nickname userId)

/-- The disconnect removes user 1, and user 2 stays mapped to the closed socket. -/
theorem user_left :
    let t := (afterLogins "b" 2).step parseLogins (.disconnect 7)
    t.closed 7 ∧ t.world.connectedClients.getClientSocket 1 = none ∧
      t.world.connectedClients.getClientSocket 2 = some 7 := by
  refine ⟨.inl rfl, ?_, ?_⟩
  · decide +kernel
  · decide +kernel

/-- User 1 logs in twice, and disconnects. -/
theorem sessions_exact_twice :
    let t := (afterLogins "a" 1).step parseLogins (.disconnect 7)
    t.Exact ∧ ∀ event, ¬ t.closed event.socket →
      ((t.step parseLogins event).Exact ↔ t.Single event) := by
  have hfirst : Run (Sessions.step parseLogins) Sessions.Guard (.start .fresh) _ _ :=
    .snoc (loginEvent "a" 1) .nil ⟨nofun, trivial⟩
  have hsecond : Run (Sessions.step parseLogins) Sessions.Guard (.start .fresh) _
      (afterLogins "a" 1) := hfirst.snoc (loginEvent "a" 1) ⟨nofun, trivial⟩
  have hlogin : (loginEvent "a" 1).login parseLogins = some 1 := by decide +kernel
  have hlatest : ∀ userId, (afterLogins "a" 1).latest userId = some 7 → userId = 1 := by
    intro userId h
    by_contra hne
    simp [afterLogins, Sessions.step, hlogin, Sessions.start, hne] at h
  have hsingle : (afterLogins "a" 1).Single (.disconnect 7) :=
    fun userId userId' h h' => (hlatest userId h).trans (hlatest userId' h').symm
  exact sessions_exact (hsecond.snoc (.disconnect 7) ⟨nofun, hsingle⟩)

end Silence.Server
