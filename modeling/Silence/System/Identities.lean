import Silence.Client.Identity
import Silence.Server.Acknowledgments
import Silence.System.Accounts

/-!
# Silence.System.Identities

Clients that are being started, the files of their users, the server and its database.

A registration is recorded on both sides: the server has a row, and the client a file with
the id. The reply that carries the id travels between the two, while the server handles the
requests of anybody else. `Community.Sound` relates what is stored and on its way, so a
client that finds a user in its file logs in with the registered password
(`login_of_saved_iff`), and two files have one id only if they are of one nickname
(`saved_ids_eq_iff`).

Which file a nickname leads to is up to the file system.
-/

namespace Silence.System

open Silence.Lib Silence.Lib.Effect
open Client (Starting Awaiting startUser registration authorization)
open Common (User)
open Server (Json JsonParser World Environment Socket Database Accounts RegisterFields
  readRegisterFields sqlParameter varchar loginOf dumpedText ParsesTexts Observation)

/-! ### The system -/

/-- A client that is not authorized yet: its request on the way to the server, and the frames on
their way back. -/
structure Connection where
  client : Starting
  isOpen : Bool
  request : Option Json.Members
  frames : List Json.Members

structure Community (File : Type) where
  server : Deployment
  connections : Socket → Option Connection
  disk : File → Option Bytes

inductive CommunityEvent where
  /-- A client is started under a nickname. -/
  | start (socket : Socket) (system : Crypto.HybridCryptoSystem) (nick : Bytes)
  /-- A password is typed in. The request takes the place of one that has not been served yet, which
  can only be a login whose response did not parse. -/
  | ask (socket : Socket) (password : Bytes)
  /-- The server handles the request of a client that is not authorized, which it gets as a line. -/
  | serve (socket : Socket) (env : Environment) (queries : Queries) (line : Bytes)
  /-- The server handles something of anybody else, or notices that a connection has ended. -/
  | other (event : DeploymentEvent)
  /-- A client reads its response, which is the next frame. -/
  | answer (socket : Socket) (opens : Bool)
  /-- A client reads something that does not parse: an error, or more than one frame. -/
  | garbled (socket : Socket) (lost : Nat)
  /-- A client ends. -/
  | stop (socket : Socket)
  /-- The server is started again over its database. -/
  | restart (fileServer : FileServer.State)

section Step

variable {File : Type} [DecidableEq File]

/-- Before anybody has registered. -/
def Community.start (fileServer : FileServer.State) : Community File where
  server := .start fileServer
  connections _ := none
  disk _ := none

def Community.setConnection (t : Community File) (socket : Socket)
    (connection : Option Connection) : Community File :=
  { t with connections := Function.update t.connections socket connection }

/-- The server handles an event, and writes frames. -/
def Community.serverStep (parse : JsonParser) (t : Community File)
    (event : DeploymentEvent) : Community File :=
  let server := t.server.step parse event
  { t with
    server := server
    connections := fun socket => (t.connections socket).map fun c =>
      { c with frames := c.frames ++ server.world.framesTo socket } }

/-- A client goes on with its response, and behind it are these frames. -/
def Community.answer (fileOf : Bytes → File) (t : Community File) (socket : Socket)
    (c : Connection) (opens : Bool) (response : Option Json) (frames : List Json.Members) :
    Community File :=
  let file := fileOf c.client.user.nickname
  let (client, content) := c.client.answer opens response (t.disk file)
  { t with
    connections := Function.update t.connections socket
      (client.map fun client => { c with client := client, frames := frames })
    disk := Function.update t.disk file content }

def Community.step (parse : JsonParser) (fileOf : Bytes → File) (t : Community File) :
    CommunityEvent → Community File
  | .start socket system nick =>
      match startUser parse nick (t.disk (fileOf nick)) with
      | .error _ => t
      | .ok user => t.setConnection socket (some ⟨⟨system, user, .nothing⟩, true, none, []⟩)
  | .ask socket password =>
      match t.connections socket with
      | none => t
      | some c => t.setConnection socket ((c.client.ask password).map fun (client, request) =>
          { c with client := client, request := request })
  | .serve socket env queries line =>
      (t.setConnection socket ((t.connections socket).map fun c =>
        { c with request := none })).serverStep parse (.request socket env queries line)
  | .other event => t.serverStep parse event
  | .answer socket opens =>
      match t.connections socket with
      | none => t
      | some c =>
          match c.frames with
          | [] => t
          | frame :: frames => t.answer fileOf socket c opens (some (.object frame)) frames
  | .garbled socket lost =>
      match t.connections socket with
      | none => t
      | some c => t.answer fileOf socket c true none (c.frames.drop lost)
  | .stop socket => t.setConnection socket none
  | .restart fileServer => { t with
      server := { t.server with world := .start fileServer }
      connections := fun socket => (t.connections socket).map fun c =>
        { c with isOpen := false, request := none } }

/-- The ids of users are drawn from a sequence of integers. -/
def DeploymentEvent.DrawsInts : DeploymentEvent → Prop
  | .request _ _ queries _ =>
      ∀ id, queries.transactions.draws.user.id = some id → 0 < id ∧ id < 2 ^ 31
  | .disconnect _ => True

/-- A connection is new when a client is started, a client reads when it waits, and the server gets
the requests that are sent. -/
def Community.Guard (parse : JsonParser) (t : Community File) : CommunityEvent → Prop
  | .start socket _ _ => t.connections socket = none ∧
      ∀ userId, t.server.world.connectedClients.getClientSocket userId ≠ some socket
  | .ask socket _ => ∀ c, t.connections socket = some c → c.client.waiting = .nothing
  | .serve socket env queries line =>
      (∃ c request, t.connections socket = some c ∧ c.isOpen = true ∧ c.request = some request ∧
        parse line = .ok (.object request)) ∧
      t.server.Guard (.request socket env queries line) ∧
      (DeploymentEvent.request socket env queries line).DrawsInts
  | .other event =>
      (∀ socket env queries line, event = .request socket env queries line →
        t.connections socket = none) ∧ t.server.Guard event ∧ event.DrawsInts
  | .answer socket _ => ∀ c, t.connections socket = some c → c.client.waiting ≠ .nothing
  | .garbled socket _ => ∀ c, t.connections socket = some c → c.client.waiting ≠ .nothing
  | .stop _ => True
  | .restart _ => True

/-- The runs from the beginning. -/
abbrev CommunityRun (parse : JsonParser) (fileOf : Bytes → File)
    (fileServer : FileServer.State) (history : List (CommunityEvent × Community File))
    (t : Community File) : Prop :=
  Run (Community.step parse fileOf) (Community.Guard parse) (.start fileServer) history t

end Step

/-! ### Users that are registered -/

/-- The account of the user is there, with what the columns hold of its nickname and password. -/
structure Known (accounts : Accounts) (user : User) (nickname password storedNickname
    storedPassword : String) : Prop where
  nicknameText : dumpedText user.nickname = .ok nickname
  passwordText : dumpedText user.password = .ok password
  nicknameFits : varchar 50 (sqlParameter nickname) = some storedNickname
  passwordFits : varchar 255 (sqlParameter password) = some storedPassword
  account : accounts.users user.id.toInt = some (storedNickname, storedPassword)

def IsKnown (accounts : Accounts) (user : User) : Prop :=
  ∃ nickname password storedNickname storedPassword,
    Known accounts user nickname password storedNickname storedPassword

/-- The response makes the user one that is known. -/
def Grants (accounts : Accounts) (user : User) (password : Bytes) (response : Json) : Prop :=
  ∀ saved, Client.registered user password response = .ok (some saved) →
    saved.id ≠ 0 ∧ IsKnown accounts saved

/-- What is on the way for a client that has no user yet: nothing, or its registration, or the reply
to this. -/
inductive Unsettled (accounts : Accounts) (c : Connection) : Prop where
  | idle : c.client.waiting = .nothing → c.request = none → c.frames = [] → Unsettled accounts c
  | asked (password : Bytes) (request : Json.Members) :
      c.client.waiting = .registration password →
      registration c.client.system c.client.user password = .ok request →
      c.request = some request → c.frames = [] → Unsettled accounts c
  | answered (password : Bytes) : c.client.waiting = .registration password →
      c.request = none → c.frames.length ≤ 1 →
      (∀ frame ∈ c.frames, Grants accounts c.client.user password (.object frame)) →
      Unsettled accounts c

/-- A client has a user that is known, or its socket is that of nobody. -/
structure Connection.Sound (accounts : Accounts) (world : World) (socket : Socket)
    (c : Connection) : Prop where
  known : c.client.user.id ≠ 0 → IsKnown accounts c.client.user
  settled : c.client.user.id ≠ 0 → ∀ password, c.client.waiting ≠ .registration password
  unmapped : c.client.user.id = 0 →
    ∀ userId, world.connectedClients.getClientSocket userId ≠ some socket
  unsettled : c.client.user.id = 0 → Unsettled accounts c

/-- The user in a file is known. -/
def SavedKnown (parse : JsonParser) (accounts : Accounts) (content : Option Bytes) :
    Prop :=
  ∀ text user, content = some text → User.loadUserDataFromJson parse (some text) = .ok user →
    user.id ≠ 0 → IsKnown accounts user

/-- The tables are those of the accounts, and the users in files and clients are among these. -/
structure Community.Sound {File : Type} (parse : JsonParser) (t : Community File)
    (accounts : Accounts) : Prop where
  represents : ∃ users keys, t.server.db.Represents accounts users keys
  saved : ∀ file, SavedKnown parse accounts (t.disk file)
  clients : ∀ socket c, t.connections socket = some c → c.Sound accounts t.server.world socket

/-! ### More accounts -/

section Mono

variable {accounts accounts' : Accounts}

theorem IsKnown.mono {user : User} (h : IsKnown accounts user)
    (hkept : ∀ id account, accounts.users id = some account → accounts'.users id = some account) :
    IsKnown accounts' user := by
  obtain ⟨nickname, password, storedNickname, storedPassword, hknown⟩ := h
  exact ⟨nickname, password, storedNickname, storedPassword,
    { hknown with account := hkept _ _ hknown.account }⟩

theorem Grants.mono {user : User} {password : Bytes} {response : Json}
    (h : Grants accounts user password response)
    (hkept : ∀ id account, accounts.users id = some account → accounts'.users id = some account) :
    Grants accounts' user password response := by
  intro saved hsaved
  obtain ⟨hid, hknown⟩ := h saved hsaved
  exact ⟨hid, hknown.mono hkept⟩

theorem Unsettled.mono {c : Connection} (h : Unsettled accounts c)
    (hkept : ∀ id account, accounts.users id = some account → accounts'.users id = some account) :
    Unsettled accounts' c := by
  cases h with
  | idle hwaiting hrequest hframes => exact .idle hwaiting hrequest hframes
  | asked password request hwaiting hregistration hrequest hframes =>
      exact .asked password request hwaiting hregistration hrequest hframes
  | answered password hwaiting hrequest hlength hgrants =>
      exact .answered password hwaiting hrequest hlength fun frame hmem =>
        (hgrants frame hmem).mono hkept

end Mono

/-! ### What the server does -/

section Server

variable {parse : JsonParser} {world : World} {requester socket : Socket}
  {env : Environment} {line : Bytes}

/-- The event is no request on the socket. -/
def Spares (socket : Socket) (event : Server.Event) : Prop :=
  ∀ env line, event ≠ .request socket env line

/-- Nothing is written to the socket of nobody, unless it is that of the request. -/
theorem framesTo_of_unmapped {event : Server.Event} (hspares : Spares socket event)
    (hunmapped : ∀ userId, world.connectedClients.getClientSocket userId ≠ some socket) :
    (world.step parse event).framesTo socket = [] := by
  cases event with
  | disconnect socket' => rfl
  | request requester env line =>
      refine List.eq_nil_iff_forall_not_mem.mpr fun frame hmem => ?_
      obtain ⟨recipient, hwrote⟩ := Server.exists_of_mem_framesTo hmem
      obtain ⟨haddressed, -⟩ := @Server.step_request parse world requester env line _
        (Server.closed_writesFor env world.beginRequest requester (parse.value line))
        socket recipient frame true hwrote
      cases recipient with
      | none =>
          obtain rfl : socket = requester := haddressed
          exact hspares env line rfl
      | some userId => exact hunmapped userId haddressed

/-- A socket only becomes that of a user with a login on it. -/
theorem unmapped_step {event : Server.Event}
    (hunmapped : ∀ userId, world.connectedClients.getClientSocket userId ≠ some socket)
    (hlogin : ∀ env line, event = .request socket env line →
      loginOf env (parse.value line) = none) :
    ∀ userId, (world.step parse event).connectedClients.getClientSocket userId ≠ some socket := by
  intro userId hmapped
  rcases Server.mapped_step hmapped with hold | ⟨hsocket, hlog⟩
  · exact hunmapped userId hold
  · cases event with
    | disconnect socket' => cases hlog
    | request requester env line =>
        obtain rfl : requester = socket := hsocket
        rw [show (Server.Event.request requester env line).login parse = none from
          hlogin env line rfl] at hlog
        cases hlog

/-- The reply to a registration. -/
def registerResponse (userId : Int) : Json.Members :=
  if userId ≠ 0 then
    Json.Members.ofList [("status", .string "success"),
      ("response", .string "User registered successfully"), ("user_id", .number userId)]
  else
    Json.Members.ofList [("status", .string "error"),
      ("response", .string "Failed to register user")]

theorem framesTo_register {request : Json} {fields : RegisterFields}
    (hparse : parse line = .ok request) (h : Registering request fields) :
    (world.step parse (.request requester env line)).framesTo requester =
      if env.writeOk 0 then [registerResponse (env.createUser fields.nickname fields.password)]
      else [] := by
  obtain ⟨htype, hfields⟩ := h
  obtain ⟨nickname, hnickname, hfields⟩ := bind_eq_ok.mp hfields
  obtain ⟨password, hpassword, hfields⟩ := bind_eq_ok.mp hfields
  obtain ⟨elGamalPublicKey, helGamal, hfields⟩ := bind_eq_ok.mp hfields
  obtain ⟨dsaPublicKey, hdsa, hfields⟩ := bind_eq_ok.mp hfields
  cases hfields
  rw [Server.step_request_of_parse hparse, dispatch_register htype]
  have hwrite : ∀ userId : Int,
      (if userId ≠ 0 then
        Server.write env requester none (Json.Members.ofList [("status", .string "success"),
          ("response", .string "User registered successfully"), ("user_id", .number userId)])
      else
        Server.write env requester none (Json.Members.ofList [("status", .string "error"),
          ("response", .string "Failed to register user")])) =
      Server.write env requester none (registerResponse userId) := by
    intro userId
    unfold registerResponse
    split <;> rfl
  simp only [Server.handleRegister, Server.observe, exec_bind, exec_attempt, exec_modify,
    hnickname, hpassword, helGamal, hdsa, hwrite, Server.exec_write]
  cases hok : env.writeOk 0 <;>
    simp [World.framesTo, World.beginRequest, World.observe, Observation.frameTo?, hok,
      List.filterMap_cons]

end Server

/-! ### A registration -/

/-- The request of a client has the texts of its user. -/
theorem registering_of_registration {system : Crypto.HybridCryptoSystem} {user : User}
    {password : Bytes} {request : Json.Members}
    (h : registration system user password = .ok request) :
    ∃ fields, Registering (.object request) fields ∧
      dumpedText user.nickname = .ok fields.nickname ∧
      dumpedText password = .ok fields.password := by
  obtain ⟨nickname, hnickname, h⟩ := bind_eq_ok.mp h
  obtain ⟨passwordText, hpassword, h⟩ := bind_eq_ok.mp h
  obtain ⟨elGamalPublicKey, -, h⟩ := bind_eq_ok.mp h
  obtain ⟨dsaPublicKey, -, h⟩ := bind_eq_ok.mp h
  cases h
  refine ⟨⟨nickname, passwordText, elGamalPublicKey, dsaPublicKey⟩, ⟨?_, ?_⟩, hnickname, hpassword⟩
  · simp [Json.HasType, Json.member?]
  · simp [readRegisterFields, Json.readString, Json.at?, Json.getString, bind, Except.bind, pure,
      Except.pure]

theorem loginOf_of_registering {request : Json} {fields : RegisterFields}
    (h : Registering request fields) (env : Environment) : loginOf env request = none := by
  cases hlogin : loginOf env request with
  | none => rfl
  | some userId =>
      obtain ⟨htype, -⟩ := Server.loginOf_eq_some_iff.mp hlogin
      have hboth := h.1.symm.trans htype
      simp at hboth

/-- What a client makes of the reply. -/
theorem registered_response (user : User) (password : Bytes) (userId : Int) :
    Client.registered user password (.object (registerResponse userId)) =
      .ok (if userId ≠ 0 then some { user with id := Int32.ofInt (userId.bmod (2 ^ 32)), password }
        else none) := by
  unfold registerResponse
  split
  · simp [Client.registered, Client.fieldOf, Json.isText, Client.responseId,
      Client.responseTimestamp, Client.optionalField, Json.member?, Json.getInt, bind, Except.bind,
      pure, Except.pure, Functor.map, Except.map]
  · simp [Client.registered, Client.fieldOf, Json.isText, bind, Except.bind, pure, Except.pure]

theorem toInt_ofInt {id : Int} (hpositive : 0 < id) (hrange : id < 2 ^ 31) :
    (Int32.ofInt (id.bmod (2 ^ 32))).toInt = id := by
  have hmod : id.bmod (2 ^ 32) = id := Int.bmod_eq_of_le (by omega) (by omega)
  rw [hmod]
  exact Int32.toInt_ofInt_of_le (by norm_num; omega) (by norm_num; omega)

/-- The reply makes the user known, if the ids that are drawn are integers. -/
theorem grants_response {db : Database} {queries : Queries} {accounts accounts' : Accounts}
    {request : Json} (hafter : AccountsAfter db queries request accounts accounts')
    (hdraws : ∀ id, queries.transactions.draws.user.id = some id → 0 < id ∧ id < 2 ^ 31)
    {fields : RegisterFields} (hregistering : Registering request fields) {user : User}
    {password : Bytes} (hnickname : dumpedText user.nickname = .ok fields.nickname)
    (hpassword : dumpedText password = .ok fields.password) (env : Environment) :
    Grants accounts' user password (.object (registerResponse
      ((backed env db queries request).createUser fields.nickname fields.password))) := by
  intro saved hsaved
  rw [registered_response] at hsaved
  by_cases hzero : (backed env db queries request).createUser fields.nickname fields.password = 0
  · rw [if_neg (not_not_intro hzero)] at hsaved
    cases hsaved
  rw [if_pos hzero] at hsaved
  obtain ⟨hdrawn, -, storedNickname, storedPassword, hfitsNickname, hfitsPassword, haccount⟩ :=
    hafter.returned fields _ hregistering hzero rfl
  obtain ⟨hpositive, hrange⟩ := hdraws _ hdrawn
  have htoInt := toInt_ofInt hpositive hrange
  cases hsaved
  refine ⟨fun hid => ?_, fields.nickname, fields.password, storedNickname, storedPassword,
    hnickname, hpassword, hfitsNickname, hfitsPassword, ?_⟩
  · exact hpositive.ne' (htoInt.symm.trans (congrArg Int32.toInt hid))
  · exact (congrArg accounts'.users htoInt).trans haccount

/-! ### Connections -/

namespace Connection.Sound

variable {parse : JsonParser} {accounts accounts' : Accounts} {world : World}
  {socket : Socket} {c : Connection}

/-- The server handles something that is not of this connection. -/
theorem other (h : c.Sound accounts world socket)
    (hkept : ∀ id account, accounts.users id = some account → accounts'.users id = some account)
    {event : Server.Event} (hspares : Spares socket event) :
    Connection.Sound accounts' (world.step parse event) socket
      { c with frames := c.frames ++ (world.step parse event).framesTo socket } where
  known hid := (h.known hid).mono hkept
  settled := h.settled
  unmapped hid := unmapped_step (h.unmapped hid) fun env line heq => absurd heq (hspares env line)
  unsettled hid := by
    rw [framesTo_of_unmapped hspares (h.unmapped hid), List.append_nil]
    exact (h.unsettled hid).mono hkept

/-- The server handles the request of this connection. -/
theorem serve (h : c.Sound accounts world socket) {request : Json.Members}
    (hrequest : c.request = some request) {line : Bytes}
    (hparse : parse line = .ok (.object request)) {db : Database} {queries : Queries}
    (hafter : AccountsAfter db queries (.object request) accounts accounts')
    (hdraws : ∀ id, queries.transactions.draws.user.id = some id → 0 < id ∧ id < 2 ^ 31)
    (env : Environment) :
    let event := Server.Event.request socket (backed env db queries (.object request)) line
    Connection.Sound accounts' (world.step parse event) socket
      { c with
        request := none
        frames := c.frames ++ (world.step parse event).framesTo socket } := by
  intro event
  refine ⟨fun hid => (h.known hid).mono hafter.kept, h.settled, fun hid => ?_, fun hid => ?_⟩
  all_goals
    -- a client without a user has asked to be registered
    obtain ⟨password, hwaiting, hregistration, hframes⟩ :
        ∃ password, c.client.waiting = .registration password ∧
          registration c.client.system c.client.user password = .ok request ∧ c.frames = [] := by
      cases h.unsettled hid with
      | idle _ hnone _ => rw [hnone] at hrequest; cases hrequest
      | asked password request' hwaiting hregistration hrequest' hframes =>
          obtain rfl := Option.some.inj (hrequest.symm.trans hrequest')
          exact ⟨password, hwaiting, hregistration, hframes⟩
      | answered _ _ hnone _ _ => rw [hnone] at hrequest; cases hrequest
    obtain ⟨fields, hregistering, hnickname, hpassword⟩ :=
      registering_of_registration hregistration
  · refine unmapped_step (h.unmapped hid) fun env' line' heq => ?_
    obtain ⟨-, -, rfl⟩ := Server.Event.request.inj heq
    rw [JsonParser.value_of_ok hparse]
    exact loginOf_of_registering hregistering env'
  · have hgrants := grants_response hafter hdraws hregistering hnickname hpassword env
    have hwritten := @framesTo_register parse world socket
      (backed env db queries (.object request)) line _ fields hparse hregistering
    refine .answered password hwaiting rfl ?_ ?_
    · rw [hframes, hwritten]
      split <;> simp
    · intro frame hmem
      rw [hframes, hwritten, List.nil_append] at hmem
      split at hmem
      · rw [List.mem_singleton.mp hmem]
        exact hgrants
      · cases hmem

/-- A password is typed in. -/
theorem ask (h : c.Sound accounts world socket) (hwaiting : c.client.waiting = .nothing)
    {password : Bytes} {client : Starting} {request : Option Json.Members}
    (hask : c.client.ask password = some (client, request)) :
    Connection.Sound accounts world socket { c with client := client, request := request } := by
  unfold Starting.ask at hask
  by_cases hid : c.client.user.id = 0
  · rw [if_pos hid] at hask
    cases hregistration : registration c.client.system c.client.user password with
    | error e =>
        rw [hregistration] at hask
        cases hask
    | ok sent =>
        rw [hregistration] at hask
        cases hask
        refine ⟨h.known, absurd hid, h.unmapped, fun _ => ?_⟩
        -- nothing else was on its way
        have hframes : c.frames = [] := by
          cases h.unsettled hid with
          | idle _ _ hframes => exact hframes
          | asked _ _ hasked _ _ _ => rw [hwaiting] at hasked; cases hasked
          | answered _ hasked _ _ _ => rw [hwaiting] at hasked; cases hasked
        exact .asked password sent rfl hregistration rfl hframes
  · rw [if_neg hid] at hask
    have hclient : client.user = c.client.user ∧
        ∀ password, client.waiting ≠ .registration password := by
      cases hauthorization : authorization c.client.user password with
      | error e =>
          rw [hauthorization] at hask
          cases hask
          exact ⟨rfl, h.settled hid⟩
      | ok sent =>
          rw [hauthorization] at hask
          cases hask
          exact ⟨rfl, nofun⟩
    obtain ⟨huser, hsettled⟩ := hclient
    refine ⟨fun _ => ?_, fun _ => hsettled, fun hzero => ?_, fun hzero => ?_⟩
    · exact (congrArg (IsKnown accounts) huser).mpr (h.known hid)
    · exact absurd (huser ▸ hzero) hid
    · exact absurd (huser ▸ hzero) hid

end Connection.Sound

/-! ### Files -/

/-- The timestamps do not matter. -/
theorem IsKnown.kept {accounts : Accounts} {user : User} (h : IsKnown accounts user) :
    IsKnown accounts user.kept := by
  obtain ⟨nickname, password, storedNickname, storedPassword, hknown⟩ := h
  exact ⟨nickname, password, storedNickname, storedPassword, hknown.nicknameText,
    hknown.passwordText, hknown.nicknameFits, hknown.passwordFits, hknown.account⟩

/-- A user that is known can be saved. -/
theorem saveUser_of_known {parse : JsonParser} (hparse : ParsesTexts parse)
    {accounts : Accounts} {user : User} (h : IsKnown accounts user) {content : Option Bytes}
    (hcontent : SavedKnown parse accounts content) (opens : Bool) :
    ∃ content', Client.saveUser opens user content = (.ok (), content') ∧
      SavedKnown parse accounts content' := by
  obtain ⟨nickname, password, _, _, hknown⟩ := id h
  obtain ⟨text, hsave, hload⟩ :=
    Client.load_saved hparse hknown.nicknameText hknown.passwordText
  cases opens with
  | false => exact ⟨content, rfl, hcontent⟩
  | true =>
      refine ⟨some text, by rw [Client.saveUser, if_pos rfl, hsave], ?_⟩
      rintro _ loaded ⟨rfl⟩ hloaded -
      rw [← Except.ok.inj (hload.symm.trans hloaded)]
      exact h.kept

section Answer

variable {parse : JsonParser} {accounts : Accounts} {world : World} {socket : Socket}
  {c : Connection} {opens : Bool} {content : Option Bytes}

/-- Only a client with a user waits for its login. -/
theorem Connection.Sound.id_ne_zero (h : c.Sound accounts world socket)
    (hwaiting : c.client.waiting = .authorization) : c.client.user.id ≠ 0 := by
  intro hzero
  cases h.unsettled hzero with
  | idle hnothing _ _ => rw [hwaiting] at hnothing; cases hnothing
  | asked _ _ hasked _ _ _ => rw [hwaiting] at hasked; cases hasked
  | answered _ hasked _ _ _ => rw [hwaiting] at hasked; cases hasked

/-- Only a client without a user waits to be registered. The next frame is its reply, and nothing
is behind it. -/
theorem Connection.Sound.answered (h : c.Sound accounts world socket) {password : Bytes}
    (hwaiting : c.client.waiting = .registration password) {frame : Json.Members}
    {frames : List Json.Members} (hframes : c.frames = frame :: frames) :
    c.client.user.id = 0 ∧ c.request = none ∧ frames = [] ∧
      Grants accounts c.client.user password (.object frame) := by
  have hid : c.client.user.id = 0 := by
    by_contra hid
    exact h.settled hid password hwaiting
  cases h.unsettled hid with
  | idle hnothing _ _ => rw [hwaiting] at hnothing; cases hnothing
  | asked _ _ _ _ _ hnone => rw [hframes] at hnone; cases hnone
  | answered password' hwaiting' hrequest hlength hgrants =>
      obtain rfl : password = password' := by
        rw [hwaiting] at hwaiting'
        exact Client.Awaiting.registration.inj hwaiting'
      rw [hframes] at hlength
      have hnil := Nat.le_zero.mp (Nat.le_of_succ_le_succ hlength)
      exact ⟨hid, hrequest, List.length_eq_zero_iff.mp hnil,
        hgrants frame (hframes ▸ List.mem_cons_self)⟩

theorem nothing_ne_registration (password : Bytes) :
    Client.Awaiting.nothing ≠ .registration password := nofun

/-- A client reads the next frame. -/
theorem Connection.Sound.answer (hparse : ParsesTexts parse) (h : c.Sound accounts world socket)
    (hwaiting : c.client.waiting ≠ .nothing) {frame : Json.Members} {frames : List Json.Members}
    (hframes : c.frames = frame :: frames) (hcontent : SavedKnown parse accounts content) :
    (∀ client, (c.client.answer opens (some (.object frame)) content).1 = some client →
      Connection.Sound accounts world socket { c with client := client, frames := frames }) ∧
    SavedKnown parse accounts (c.client.answer opens (some (.object frame)) content).2 := by
  cases hcase : c.client.waiting with
  | nothing => exact absurd hcase hwaiting
  | registration password =>
      obtain ⟨hid, hrequest, rfl, hgrants⟩ := h.answered hcase hframes
      simp only [Starting.answer, hcase]
      cases hregistered : Client.registered c.client.user password (.object frame) with
      | error e => exact ⟨by simp, hcontent⟩
      | ok saved =>
          cases saved with
          | none =>
              refine ⟨?_, hcontent⟩
              rintro client ⟨rfl⟩
              exact ⟨absurd hid, absurd hid, h.unmapped, fun _ => .idle rfl hrequest rfl⟩
          | some user =>
              obtain ⟨huser, hknown⟩ := hgrants user hregistered
              obtain ⟨content', hsave, hcontent'⟩ :=
                saveUser_of_known hparse hknown hcontent opens
              simp only [hsave]
              refine ⟨?_, hcontent'⟩
              rintro client ⟨rfl⟩
              exact ⟨fun _ => hknown, fun _ => nothing_ne_registration,
                fun hzero => absurd hzero huser, fun hzero => absurd hzero huser⟩
  | authorization =>
      have hid := h.id_ne_zero hcase
      simp only [Starting.answer, hcase]
      split
      · obtain ⟨content', hsave, hcontent'⟩ :=
          saveUser_of_known hparse (h.known hid) hcontent opens
        rw [hsave]
        exact ⟨by simp, hcontent'⟩
      · refine ⟨?_, hcontent⟩
        rintro client ⟨rfl⟩
        exact ⟨h.known, fun _ => nothing_ne_registration, fun hzero => absurd hzero hid,
          fun hzero => absurd hzero hid⟩

/-- A client reads something that does not parse. -/
theorem Connection.Sound.garbled (h : c.Sound accounts world socket)
    (hwaiting : c.client.waiting ≠ .nothing) (frames : List Json.Members) :
    (∀ client, (c.client.answer opens none content).1 = some client →
      Connection.Sound accounts world socket { c with client := client, frames := frames }) ∧
    (c.client.answer opens none content).2 = content := by
  cases hcase : c.client.waiting with
  | nothing => exact absurd hcase hwaiting
  | registration password =>
      simp only [Starting.answer, hcase]
      exact ⟨by simp, trivial⟩
  | authorization =>
      have hid := h.id_ne_zero hcase
      simp only [Starting.answer, hcase]
      refine ⟨?_, trivial⟩
      rintro client ⟨rfl⟩
      exact ⟨h.known, fun _ => nothing_ne_registration, fun hzero => absurd hzero hid,
        fun hzero => absurd hzero hid⟩

end Answer

/-! ### The invariant -/

section Invariant

variable {File : Type} [DecidableEq File] {parse : JsonParser} {fileOf : Bytes → File}
  {t : Community File} {accounts : Accounts}

omit [DecidableEq File] in
theorem connections_setConnection (t : Community File) (socket : Socket)
    (connection : Option Connection) (socket' : Socket) :
    (t.setConnection socket connection).connections socket' =
      if socket' = socket then connection else t.connections socket' :=
  Function.update_apply _ _ _ _

theorem connections_answer (t : Community File) (socket : Socket) (c : Connection) (opens : Bool)
    (response : Option Json) (frames : List Json.Members) (socket' : Socket) :
    (t.answer fileOf socket c opens response frames).connections socket' =
      if socket' = socket then
        (c.client.answer opens response (t.disk (fileOf c.client.user.nickname))).1.map
          fun client => { c with client := client, frames := frames }
      else t.connections socket' :=
  Function.update_apply _ _ _ _

theorem disk_answer (t : Community File) (socket : Socket) (c : Connection) (opens : Bool)
    (response : Option Json) (frames : List Json.Members) (file : File) :
    (t.answer fileOf socket c opens response frames).disk file =
      if file = fileOf c.client.user.nickname then
        (c.client.answer opens response (t.disk (fileOf c.client.user.nickname))).2
      else t.disk file :=
  Function.update_apply _ _ _ _

omit [DecidableEq File] in
/-- One connection is new, or changes. -/
theorem Community.Sound.setConnection (h : t.Sound parse accounts) {socket : Socket}
    {connection : Option Connection}
    (hsound : ∀ c, connection = some c → c.Sound accounts t.server.world socket) :
    (t.setConnection socket connection).Sound parse accounts where
  represents := h.represents
  saved := h.saved
  clients socket' c hc := by
    rw [connections_setConnection] at hc
    split at hc
    · rename_i heq
      rw [heq]
      exact hsound c hc
    · exact h.clients socket' c hc

/-- A client goes on with its response. -/
theorem Community.Sound.answer (h : t.Sound parse accounts) {socket : Socket} {c : Connection}
    {opens : Bool} {response : Option Json} {frames : List Json.Members}
    (hclient : ∀ client, (c.client.answer opens response
      (t.disk (fileOf c.client.user.nickname))).1 = some client →
        Connection.Sound accounts t.server.world socket
          { c with client := client, frames := frames })
    (hcontent : SavedKnown parse accounts (c.client.answer opens response
      (t.disk (fileOf c.client.user.nickname))).2) :
    (t.answer fileOf socket c opens response frames).Sound parse accounts where
  represents := h.represents
  saved file := by
    rw [disk_answer]
    split
    · exact hcontent
    · exact h.saved file
  clients socket' c' hc' := by
    rw [connections_answer] at hc'
    split at hc'
    · rename_i heq
      obtain ⟨client, hsome, rfl⟩ := Option.map_eq_some_iff.mp hc'
      rw [heq]
      exact hclient client hsome
    · exact h.clients socket' c' hc'

omit [DecidableEq File] in
/-- The accounts behind an event of the server. -/
theorem Community.Sound.exists_after (h : t.Sound parse accounts) {event : DeploymentEvent}
    (hguard : t.server.Guard event) :
    ∃ accounts', (∃ users keys, (t.server.step parse event).db.Represents accounts' users keys) ∧
      (∀ id account, accounts.users id = some account → accounts'.users id = some account) ∧
      ∀ socket env queries line, event = .request socket env queries line →
        AccountsAfter t.server.db queries (parse.value line) accounts accounts' := by
  cases event with
  | disconnect socket => exact ⟨accounts, h.represents, fun _ _ haccount => haccount, nofun⟩
  | request socket env queries line =>
      obtain ⟨users, keys, hdb⟩ := h.represents
      obtain ⟨accounts', hafter⟩ :=
        exists_accountsAfter hdb hguard.1 hguard.2 (parse.value line)
      refine ⟨accounts', hafter.represents, hafter.kept, ?_⟩
      rintro _ _ _ _ ⟨rfl, rfl, rfl, rfl⟩
      exact hafter

omit [DecidableEq File] in
theorem Community.Sound.mono {accounts' : Accounts} (h : t.Sound parse accounts)
    (hkept : ∀ id account, accounts.users id = some account → accounts'.users id = some account)
    (file : File) : SavedKnown parse accounts' (t.disk file) :=
  fun text user hfile hload hid => (h.saved file text user hfile hload hid).mono hkept

omit [DecidableEq File] in
/-- The server handles something that is of none of the connections. -/
theorem Community.Sound.other (h : t.Sound parse accounts) {event : DeploymentEvent}
    (hguard : t.server.Guard event)
    (hspares : ∀ socket c, t.connections socket = some c →
      Spares socket (t.server.serverEvent parse event)) :
    ∃ accounts', (t.serverStep parse event).Sound parse accounts' := by
  obtain ⟨accounts', hrepresents, hkept, -⟩ := @h.exists_after _ parse _ _ event hguard
  refine ⟨accounts', hrepresents, h.mono hkept, fun socket c' hc' => ?_⟩
  obtain ⟨c, hc, rfl⟩ := Option.map_eq_some_iff.mp hc'
  exact (h.clients socket c hc).other hkept (hspares socket c hc)

/-- The server handles the request of a client. -/
theorem Community.Sound.serve (h : t.Sound parse accounts) {socket : Socket} {c : Connection}
    (hc : t.connections socket = some c) {request : Json.Members}
    (hrequest : c.request = some request) {line : Bytes}
    (hparse : parse line = .ok (.object request)) {env : Environment} {queries : Queries}
    (hguard : t.server.Guard (.request socket env queries line))
    (hdraws : (DeploymentEvent.request socket env queries line).DrawsInts) :
    ∃ accounts', (t.step parse fileOf (.serve socket env queries line)).Sound parse accounts' := by
  obtain ⟨accounts', hrepresents, hkept, hafter⟩ :=
    @h.exists_after _ parse _ _ (.request socket env queries line) hguard
  have hserved := hafter socket env queries line rfl
  rw [JsonParser.value_of_ok hparse] at hserved
  refine ⟨accounts', hrepresents, h.mono hkept, fun socket' c' hc' => ?_⟩
  obtain ⟨c₁, hc₁, rfl⟩ := Option.map_eq_some_iff.mp hc'
  have hevent : t.server.serverEvent parse (.request socket env queries line) =
      .request socket (backed env t.server.db queries (.object request)) line := by
    show Server.Event.request socket (backed env t.server.db queries (parse.value line))
      line = _
    rw [JsonParser.value_of_ok hparse]
  show Connection.Sound accounts' (t.server.world.step parse (t.server.serverEvent parse
    (.request socket env queries line))) socket' { c₁ with
      frames := c₁.frames ++ (t.server.world.step parse (t.server.serverEvent parse
        (.request socket env queries line))).framesTo socket' }
  rw [hevent]
  rw [connections_setConnection] at hc₁
  split at hc₁
  · rename_i heq
    subst heq
    rw [hc] at hc₁
    obtain rfl := Option.some.inj hc₁
    exact (h.clients socket' c hc).serve hrequest hparse hserved hdraws env
  · rename_i hne
    refine (h.clients socket' c₁ hc₁).other hkept ?_
    rintro env' line' heq
    exact hne (Server.Event.request.inj heq).1.symm

/-- The user of a client that is started. -/
theorem isKnown_startUser {content : Option Bytes} (hcontent : SavedKnown parse accounts content)
    {nick : Bytes} {user : User} (h : startUser parse nick content = .ok user) (hid : user.id ≠ 0) :
    IsKnown accounts user := by
  obtain ⟨loaded, hload, h⟩ := bind_eq_ok.mp h
  by_cases hzero : loaded.id = 0
  · rw [if_pos hzero] at h
    cases h
    exact absurd rfl hid
  · rw [if_neg hzero] at h
    cases h
    cases content with
    | none =>
        cases hload
        exact absurd rfl hzero
    | some text => exact hcontent text _ rfl hload hid

theorem Community.Sound.step (hparse : ParsesTexts parse) (h : t.Sound parse accounts)
    {event : CommunityEvent} (hguard : t.Guard parse event) :
    ∃ accounts', (t.step parse fileOf event).Sound parse accounts' := by
  cases event with
  | start socket system nick =>
      refine ⟨accounts, ?_⟩
      cases hstart : startUser parse nick (t.disk (fileOf nick)) with
      | error e => simpa only [Community.step, hstart] using h
      | ok user =>
          simp only [Community.step, hstart]
          refine h.setConnection ?_
          rintro c ⟨rfl⟩
          exact ⟨isKnown_startUser (h.saved _) hstart, fun _ => nothing_ne_registration,
            fun _ => hguard.2, fun _ => .idle rfl rfl rfl⟩
  | ask socket password =>
      refine ⟨accounts, ?_⟩
      cases hc : t.connections socket with
      | none => simpa only [Community.step, hc] using h
      | some c =>
          simp only [Community.step, hc]
          refine h.setConnection fun c' hc' => ?_
          obtain ⟨⟨client, request⟩, hask, rfl⟩ := Option.map_eq_some_iff.mp hc'
          exact (h.clients socket c hc).ask (hguard c hc) hask
  | serve socket env queries line =>
      obtain ⟨⟨c, request, hc, -, hrequest, hline⟩, hserver, hdraws⟩ := hguard
      exact h.serve hc hrequest hline hserver hdraws
  | other event =>
      obtain ⟨hnone, hserver, -⟩ := hguard
      refine h.other hserver fun socket c hc env line heq => ?_
      cases event with
      | disconnect socket' => cases heq
      | request socket' env' queries line' =>
          obtain rfl : socket' = socket := (Server.Event.request.inj heq).1
          rw [hnone socket' env' queries line' rfl] at hc
          cases hc
  | answer socket opens =>
      refine ⟨accounts, ?_⟩
      cases hc : t.connections socket with
      | none => simpa only [Community.step, hc] using h
      | some c =>
          cases hframes : c.frames with
          | nil => simpa only [Community.step, hc, hframes] using h
          | cons frame frames =>
              simp only [Community.step, hc, hframes]
              obtain ⟨hclient, hcontent⟩ := (h.clients socket c hc).answer hparse (hguard c hc)
                hframes (h.saved (fileOf c.client.user.nickname))
              exact h.answer hclient hcontent
  | garbled socket lost =>
      refine ⟨accounts, ?_⟩
      cases hc : t.connections socket with
      | none => simpa only [Community.step, hc] using h
      | some c =>
          simp only [Community.step, hc]
          obtain ⟨hclient, hcontent⟩ := @Connection.Sound.garbled _ _ _ _ true
            (t.disk (fileOf c.client.user.nickname)) (h.clients socket c hc) (hguard c hc)
            (c.frames.drop lost)
          refine h.answer hclient ?_
          rw [hcontent]
          exact h.saved _
  | stop socket => exact ⟨accounts, h.setConnection (by simp)⟩
  | restart fileServer =>
      refine ⟨accounts, h.represents, h.saved, fun socket c' hc' => ?_⟩
      obtain ⟨c, hc, rfl⟩ := Option.map_eq_some_iff.mp hc'
      have hsound := h.clients socket c hc
      refine ⟨hsound.known, hsound.settled, fun _ _ => nofun, fun hid => ?_⟩
      cases hsound.unsettled hid with
      | idle hwaiting _ hframes => exact .idle hwaiting rfl hframes
      | asked password request hwaiting _ _ hframes =>
          exact .answered password hwaiting rfl (by simp [hframes]) (by simp [hframes])
      | answered password hwaiting _ hlength hgrants =>
          exact .answered password hwaiting rfl hlength hgrants

omit [DecidableEq File] in
theorem sound_start (fileServer : FileServer.State) :
    (Community.start fileServer : Community File).Sound parse .empty where
  represents := ⟨[], [], Server.Database.represents_empty⟩
  saved file text user hfile := by cases hfile
  clients socket c hc := by cases hc

theorem sound_run (hparse : ParsesTexts parse) {fileServer : FileServer.State}
    {history : List (CommunityEvent × Community File)}
    (hrun : CommunityRun parse fileOf fileServer history t) :
    ∃ accounts, t.Sound parse accounts := by
  refine hrun.invariant (I := fun _ t => ∃ accounts, t.Sound parse accounts)
    ⟨_, sound_start fileServer⟩ ?_
  rintro history t event ⟨accounts, h⟩ hguard
  exact h.step hparse hguard

end Invariant

/-! ### Logins with a saved user -/

/-- The fields of the request of a login. -/
theorem fields_of_authorization {user : User} {password : Bytes} {request : Json.Members}
    (h : authorization user password = .ok request) :
    ∃ nickname passwordText, dumpedText user.nickname = .ok nickname ∧
      dumpedText password = .ok passwordText ∧ Json.HasType (.object request) "authorize" ∧
      Json.readInt (.object request) "user_id" = .ok user.id.toInt ∧
      Json.readString (.object request) "nickname" = .ok nickname ∧
      Json.readString (.object request) "password" = .ok passwordText := by
  obtain ⟨nickname, hnickname, h⟩ := bind_eq_ok.mp h
  obtain ⟨passwordText, hpassword, h⟩ := bind_eq_ok.mp h
  cases h
  have hid := user.id.toInt_lt
  have hid' := user.id.le_toInt
  have hmod : user.id.toInt.bmod (2 ^ 32) = user.id.toInt :=
    Int.bmod_eq_of_le (by omega) (by omega)
  refine ⟨nickname, passwordText, hnickname, hpassword, ?_, ?_, ?_, ?_⟩
  · simp [Json.HasType, Json.member?]
  · refine (@Server.Json.read_of_member? _ _ _ (.number user.id.toInt) _ ?_).trans ?_
    · simp [Json.member?]
    · exact congrArg Except.ok hmod
  · exact Server.Json.readString_of_member? (by simp [Json.member?])
  · exact Server.Json.readString_of_member? (by simp [Json.member?])

/-! ### A registration that goes through -/

/-- The user of a client that is started under a new nickname. -/
def unregistered (nick : Bytes) : User := { User.default with nickname := nick }

/-- The user that it saves. -/
def registeredUser (nick password : Bytes) (userId : Int) : User :=
  { unregistered nick with
    id := Int32.ofInt (userId.bmod (2 ^ 32)), password := password }

section Registers

variable {File : Type} [DecidableEq File] {parse : JsonParser} {fileOf : Bytes → File}
  {fileServer : FileServer.State} {history : List (CommunityEvent × Community File)}
  {t : Community File} {socket : Socket} {nick password : Bytes}
  {system : Crypto.HybridCryptoSystem} {request : Json.Members}

theorem ask_unregistered (h : registration system (unregistered nick) password = .ok request) :
    Starting.ask ⟨system, unregistered nick, .nothing⟩ password =
      some (⟨system, unregistered nick, .registration password⟩, some request) := by
  have hid : (unregistered nick).id = 0 := rfl
  rw [Starting.ask, if_pos hid, h]

theorem answer_unregistered {userId : Int} (hid : userId ≠ 0) {text : Bytes}
    (hsave : (registeredUser nick password userId).saveUserDataToJson = (.ok (), text))
    (content : Option Bytes) :
    Starting.answer ⟨system, unregistered nick, .registration password⟩ true
        (some (.object (registerResponse userId))) content =
      (some ⟨system, registeredUser nick password userId, .nothing⟩, some text) := by
  have hregistered : Client.registered (unregistered nick) password
      (.object (registerResponse userId)) = .ok (some (registeredUser nick password userId)) := by
    rw [registered_response, if_pos hid]
    rfl
  have hsaved : Client.saveUser true (registeredUser nick password userId) content =
      (.ok (), some text) := by
    rw [Client.saveUser, if_pos rfl, hsave]
  simp only [Starting.answer, hregistered, hsaved]

/-- A client is started under a new nickname and asks for a registration. -/
theorem exists_asked (hrun : CommunityRun parse fileOf fileServer history t)
    (hfree : t.connections socket = none)
    (hunmapped : ∀ userId, t.server.world.connectedClients.getClientSocket userId ≠ some socket)
    (hfile : t.disk (fileOf nick) = none)
    (hregistration : registration system (unregistered nick) password = .ok request) :
    ∃ history' t', CommunityRun parse fileOf fileServer history' t' ∧ t'.server = t.server ∧
      t'.disk = t.disk ∧
      t'.connections socket = some ⟨⟨system, unregistered nick, .registration password⟩, true,
        some request, []⟩ ∧
      ∀ socket', socket' ≠ socket → t'.connections socket' = t.connections socket' := by
  let step := @Community.step File _ parse fileOf
  let t₁ := step t (.start socket system nick)
  have h₁ : t₁ = t.setConnection socket
      (some ⟨⟨system, unregistered nick, .nothing⟩, true, none, []⟩) := by
    simp only [t₁, step, Community.step, hfile]
    rfl
  have hc₁ : t₁.connections socket =
      some ⟨⟨system, unregistered nick, .nothing⟩, true, none, []⟩ := by
    rw [h₁, connections_setConnection, if_pos rfl]
  let t₂ := step t₁ (.ask socket password)
  have h₂ : t₂ = t₁.setConnection socket (some ⟨⟨system, unregistered nick, .registration password⟩,
      true, some request, []⟩) := by
    simp only [t₂, step, Community.step, hc₁, ask_unregistered hregistration]
    rfl
  have hstart : t.Guard parse (.start socket system nick) := ⟨hfree, hunmapped⟩
  have hask : t₁.Guard parse (.ask socket password) := by
    intro c hc
    rw [hc₁] at hc
    cases hc
    rfl
  refine ⟨_, t₂, (hrun.snoc _ hstart).snoc _ hask, ?_, ?_, ?_, fun socket' hne => ?_⟩
  · rw [h₂, h₁]
    rfl
  · rw [h₂, h₁]
    rfl
  · rw [h₂, connections_setConnection, if_pos rfl]
  · rw [h₂, connections_setConnection, if_neg hne, h₁, connections_setConnection, if_neg hne]

/-- The server takes the request of a client that waits: the answer is on its way. -/
theorem exists_served (hrun : CommunityRun parse fileOf fileServer history t) {starting : Starting}
    (hasked : t.connections socket = some ⟨starting, true, some request, []⟩) {env : Environment}
    {queries : Queries} {line : Bytes} (hline : parse line = .ok (.object request))
    (hguard : t.server.Guard (.request socket env queries line))
    (hdraws : (DeploymentEvent.request socket env queries line).DrawsInts) :
    ∃ history' t', CommunityRun parse fileOf fileServer history' t' ∧
      t'.server = t.server.step parse (.request socket env queries line) ∧ t'.disk = t.disk ∧
      t'.connections socket = some ⟨starting, true, none, t'.server.world.framesTo socket⟩ ∧
      ∀ socket', socket' ≠ socket → t.connections socket' = none →
        t'.connections socket' = none := by
  let t' := @Community.step File _ parse fileOf t (.serve socket env queries line)
  have hserve : t.Guard parse (.serve socket env queries line) :=
    ⟨⟨_, _, hasked, rfl, rfl, hline⟩, hguard, hdraws⟩
  refine ⟨_, t', hrun.snoc _ hserve, rfl, rfl, ?_, fun socket' hne hnone => ?_⟩
  · show Option.map (fun c => { c with frames := c.frames ++ t'.server.world.framesTo socket })
      ((t.setConnection socket ((t.connections socket).map fun c =>
        { c with request := none })).connections socket) = _
    rw [connections_setConnection, if_pos rfl, hasked]
    rfl
  · exact Option.map_eq_none_iff.mpr
      ((connections_setConnection _ _ _ _).trans ((if_neg hne).trans hnone))

/-- A client that registers under a new nickname, and is answered with an id, saves its user. -/
theorem exists_registered (hparse : ParsesTexts parse)
    (hrun : CommunityRun parse fileOf fileServer history t) (hfree : t.connections socket = none)
    (hunmapped : ∀ userId, t.server.world.connectedClients.getClientSocket userId ≠ some socket)
    (hfile : t.disk (fileOf nick) = none)
    (hregistration : registration system (unregistered nick) password = .ok request)
    {env : Environment} {queries : Queries} {line : Bytes}
    (hline : parse line = .ok (.object request))
    (hguard : t.server.Guard (.request socket env queries line))
    (hdraws : (DeploymentEvent.request socket env queries line).DrawsInts) {userId : Int}
    (hid : userId ≠ 0)
    (hanswered : (t.server.step parse (.request socket env queries line)).world.framesTo socket =
      [registerResponse userId]) :
    ∃ history' t' text, CommunityRun parse fileOf fileServer history' t' ∧
      t'.server = t.server.step parse (.request socket env queries line) ∧
      t'.disk = Function.update t.disk (fileOf nick) (some text) ∧
      User.loadUserDataFromJson parse (some text) = .ok (registeredUser nick password userId) ∧
      ∀ socket', socket' ≠ socket → t.connections socket' = none →
        t'.connections socket' = none := by
  obtain ⟨nickname, hnickname, hrest⟩ := bind_eq_ok.mp hregistration
  obtain ⟨passwordText, hpassword, -⟩ := bind_eq_ok.mp hrest
  obtain ⟨text, hsave, hload⟩ :=
    @Client.load_saved _ hparse (registeredUser nick password userId) _ _ hnickname hpassword
  obtain ⟨history₁, t₁, hrun₁, hserver₁, hdisk₁, hasked, hothers₁⟩ :=
    exists_asked hrun hfree hunmapped hfile hregistration
  obtain ⟨history₂, t₂, hrun₂, hserver₂, hdisk₂, hserved, hothers₂⟩ :=
    exists_served hrun₁ hasked hline (hserver₁ ▸ hguard) hdraws
  rw [hserver₁] at hserver₂
  rw [hserver₂, hanswered] at hserved
  -- the client reads the answer and saves its user
  let t₃ := @Community.step File _ parse fileOf t₂ (.answer socket true)
  have h₃ : t₃ = t₂.answer fileOf socket ⟨⟨system, unregistered nick, .registration password⟩, true,
      none, [registerResponse userId]⟩ true (some (.object (registerResponse userId))) [] := by
    simp only [t₃, Community.step, hserved]
  have hanswer : t₂.Guard parse (.answer socket true) := by
    intro c hc
    rw [hserved] at hc
    cases hc
    nofun
  refine ⟨_, t₃, text, hrun₂.snoc _ hanswer, ?_, ?_, hload, fun socket' hne hnone => ?_⟩
  · rw [h₃, ← hserver₂]
    rfl
  · funext file
    rw [h₃, disk_answer, hdisk₂, hdisk₁, Function.update_apply]
    exact if_congr Iff.rfl (congrArg Prod.snd (answer_unregistered hid hsave _)) rfl
  · rw [h₃, connections_answer, if_neg hne]
    exact hothers₂ socket' hne ((hothers₁ socket' hne).trans hnone)

end Registers

/-! ### Two users who register -/

section TwoUsers

/-- The registration of a client with the public keys 11 and 1. -/
def requestOf (nickname : String) : Json.Members :=
  Json.Members.ofList [("type", .string "register"), ("nickname", .string nickname),
    ("password", .string "p"), ("el_gamal_public_key", .string "b"),
    ("dsa_public_key", .string "1")]

theorem registration_eq (nickname : String) :
    registration (.ofKeys 1 0) (unregistered (bytesOf nickname)) (bytesOf "p") =
      .ok (requestOf nickname) := by
  unfold registration unregistered
  rw [Server.dumpedText_bytesOf, Server.dumpedText_bytesOf]
  rfl

theorem registering_requestOf (nickname : String) :
    Registering (.object (requestOf nickname)) ⟨nickname, "p", "b", "1"⟩ :=
  ⟨by simp [Json.HasType, Json.member?, requestOf], by
    simp [readRegisterFields, requestOf, Json.readString, Json.at?, Json.getString, bind,
      Except.bind, pure, Except.pure]⟩

/-- The reply carries the id that the database returns. -/
theorem framesTo_requestOf {line : Bytes} {nickname : String}
    (hline : Server.parseFlat line = .ok (.object (requestOf nickname))) (server : Deployment)
    (socket : Socket) (queries : Queries) :
    (server.step Server.parseFlat (.request socket .working queries line)).world.framesTo socket =
      [registerResponse (server.db.registerUser queries.transactions nickname "p").1] := by
  refine (framesTo_register hline (registering_requestOf nickname)).trans ?_
  rw [JsonParser.value_of_ok hline]
  rfl

theorem exists_line (nickname : String) :
    ∃ line, Server.parseFlat line = .ok (.object (requestOf nickname)) := by
  have hflat : ∀ e ∈ requestOf nickname, e.2.scalar?.isSome := by
    intro e he
    have hvalue := Json.Members.mem_of_mem_ofList he
    simp only [List.mem_cons, List.not_mem_nil, or_false] at hvalue
    rcases hvalue with rfl | rfl | rfl | rfl | rfl <;> rfl
  have hrange : (requestOf nickname).InRange := by
    intro key n hmem
    have hvalue := Json.Members.mem_of_mem_ofList hmem
    simp at hvalue
  obtain ⟨dump, -, -, hdump⟩ := Json.Members.exists_dump Server.parsesTexts_parseFlat
    (Json.Members.sorted_ofList _) hrange hflat
  exact ⟨dump ++ bytesOf "\r", hdump "\r" (List.all_eq_true.mp (by decide))⟩

def savedA : User := registeredUser (bytesOf "a") (bytesOf "p") 1

def savedB : User := registeredUser (bytesOf "b") (bytesOf "p") 2

/-- Two clients register, one after the other. -/
theorem exists_twoUsers : ∃ (history : List (CommunityEvent × Community Bytes))
    (t : Community Bytes) (textA textB : Bytes),
    CommunityRun Server.parseFlat id .fresh history t ∧
      t.disk (bytesOf "a") = some textA ∧ t.disk (bytesOf "b") = some textB ∧
      User.loadUserDataFromJson Server.parseFlat (some textA) = .ok savedA ∧
      User.loadUserDataFromJson Server.parseFlat (some textB) = .ok savedB := by
  have hparse := Server.parsesTexts_parseFlat
  obtain ⟨lineA, hlineA⟩ := exists_line "a"
  obtain ⟨lineB, hlineB⟩ := exists_line "b"
  obtain ⟨history, t, textA, hrun, hserver, hdisk, hloadA, hothers⟩ :=
    @exists_registered Bytes _ Server.parseFlat id .fresh [] (.start .fresh) 5 (bytesOf "a")
      (bytesOf "p") (.ofKeys 1 0) (requestOf "a") hparse .nil rfl nofun rfl (registration_eq "a")
      .working (answered 1) lineA hlineA
      ⟨fun _ h => by cases h; decide, fun _ h => by cases h; decide⟩ (fun _ h => by cases h; decide)
      1 (by decide) (framesTo_requestOf hlineA _ 5 _)
  -- the tables behind the first registration
  have hdb : t.server.db = Server.Database.empty.registered (answered 1).transactions
      ⟨"a", "p", "b", "1"⟩ := by
    rw [hserver]
    show databaseAfter .empty (answered 1) (Server.parseFlat.value lineA) = _
    rw [JsonParser.value_of_ok hlineA, databaseAfter_of_registering (registering_requestOf "a")]
  have hunmapped : ∀ userId, t.server.world.connectedClients.getClientSocket userId ≠ some 6 := by
    rw [hserver]
    exact unmapped_step nofun fun env line heq =>
      absurd (Server.Event.request.inj heq).1 (by decide)
  have hne : bytesOf "b" ≠ bytesOf "a" := by decide
  have hfile : t.disk (bytesOf "b") = none := by
    rw [hdisk]
    exact Function.update_of_ne hne _ _
  have hguard : t.server.Guard (.request 6 .working (answered 2) lineB) := by
    refine ⟨fun _ h => ?_, fun _ h => ?_⟩ <;> cases h <;> rw [hdb] <;> decide
  obtain ⟨history', t', textB, hrun', -, hdisk', hloadB, -⟩ :=
    @exists_registered Bytes _ Server.parseFlat id .fresh history t 6 (bytesOf "b") (bytesOf "p")
      (.ofKeys 1 0) (requestOf "b") hparse hrun (hothers 6 (by decide) rfl) hunmapped hfile
      (registration_eq "b") .working (answered 2) lineB hlineB hguard
      (fun _ h => by cases h; decide) 2 (by decide)
      ((framesTo_requestOf hlineB t.server 6 _).trans (by rw [hdb]; rfl))
  refine ⟨history', t', textA, textB, hrun', ?_, ?_, hloadA, hloadB⟩
  · rw [hdisk', hdisk]
    exact (Function.update_of_ne hne.symm _ _).trans (Function.update_self _ _ _)
  · rw [hdisk']
    exact Function.update_self _ _ _

end TwoUsers

/-- In every run, a login with the user of a file is accepted if and only if its query is answered,
the nickname is in the tables as it is, and the password that is typed in is the one that the
tables hold of the saved one. -/
theorem login_of_saved_iff {File : Type} [DecidableEq File] {parse : JsonParser}
    (hparse : ParsesTexts parse) {fileOf : Bytes → File} {fileServer : FileServer.State}
    {history : List (CommunityEvent × Community File)} {t : Community File}
    (hrun : CommunityRun parse fileOf fileServer history t) {file : File} {text : Bytes}
    (hfile : t.disk file = some text) {user : User}
    (hload : User.loadUserDataFromJson parse (some text) = .ok user) (hid : user.id ≠ 0)
    {typed : Bytes} {request : Json.Members} (hrequest : authorization user typed = .ok request)
    (env : Environment) (queries : Queries) :
    loginOf (backed env t.server.db queries (.object request)) (.object request) =
        some user.id.toInt ↔
      queries.answered = true ∧ ∃ nickname password typedText,
        dumpedText user.nickname = .ok nickname ∧ dumpedText user.password = .ok password ∧
        dumpedText typed = .ok typedText ∧
        varchar 50 (sqlParameter nickname) = some (sqlParameter nickname) ∧
        varchar 255 (sqlParameter password) = some typedText := by
  obtain ⟨accounts, h⟩ := sound_run hparse hrun
  obtain ⟨users, keys, hdb⟩ := h.represents
  obtain ⟨nickname, password, storedNickname, storedPassword, hknown⟩ :=
    h.saved file text user hfile hload hid
  obtain ⟨nickname', typedText, hnickname', htyped, htype, huser, hnickname, hpassword⟩ :=
    fields_of_authorization hrequest
  obtain rfl : nickname = nickname' := Except.ok.inj (hknown.nicknameText.symm.trans hnickname')
  rw [loginOf_backed_iff hdb, hknown.account]
  constructor
  · rintro ⟨-, -, presented, presentedPassword, hpresented, hpresentedPassword, hanswered, hsame⟩
    obtain rfl := Except.ok.inj (hnickname.symm.trans hpresented)
    obtain rfl := Except.ok.inj (hpassword.symm.trans hpresentedPassword)
    obtain ⟨rfl, rfl⟩ := Prod.mk.inj (Option.some.inj hsame)
    exact ⟨hanswered, nickname, password, _, hknown.nicknameText, hknown.passwordText, htyped,
      hknown.nicknameFits, hknown.passwordFits⟩
  · rintro ⟨hanswered, nickname', password', typedText', hnickname', hpassword', htyped', hfits,
      hfitsPassword⟩
    obtain rfl := Except.ok.inj (hknown.nicknameText.symm.trans hnickname')
    obtain rfl := Except.ok.inj (hknown.passwordText.symm.trans hpassword')
    obtain rfl := Except.ok.inj (htyped.symm.trans htyped')
    refine ⟨htype, huser, nickname, typedText, hnickname, hpassword, hanswered, ?_⟩
    rw [Option.some.inj (hknown.nicknameFits.symm.trans hfits),
      Option.some.inj (hknown.passwordFits.symm.trans hfitsPassword)]

/-- A saved user, and the password with which it was registered. -/
theorem login_of_saved_iff_a : ∃ (t : Community Bytes) (text : Bytes),
    t.disk (bytesOf "a") = some text ∧
      ∀ request, authorization savedA (bytesOf "p") = .ok request → ∀ env queries,
        loginOf (backed env t.server.db queries (.object request)) (.object request) =
          some savedA.id.toInt ↔ queries.answered = true := by
  obtain ⟨history, t, text, -, hrun, hfile, -, hload, -⟩ := exists_twoUsers
  have hid : savedA.id ≠ 0 := by decide
  refine ⟨t, text, hfile, fun request hrequest env queries => ?_⟩
  rw [login_of_saved_iff Server.parsesTexts_parseFlat hrun hfile hload hid hrequest]
  refine ⟨And.left, fun hanswered => ⟨hanswered, "a", "p", "p", Server.dumpedText_bytesOf "a",
    Server.dumpedText_bytesOf "p", Server.dumpedText_bytesOf "p", by decide, by decide⟩⟩

/-- What the tables hold of the nickname of a user. -/
def storedNickname (user : User) : Option String :=
  (dumpedText user.nickname).toOption.bind fun nickname => varchar 50 (sqlParameter nickname)

/-- In every run, the users in two files have one id if and only if the tables hold the same of
their nicknames. -/
theorem saved_ids_eq_iff {File : Type} [DecidableEq File] {parse : JsonParser}
    (hparse : ParsesTexts parse) {fileOf : Bytes → File} {fileServer : FileServer.State}
    {history : List (CommunityEvent × Community File)} {t : Community File}
    (hrun : CommunityRun parse fileOf fileServer history t) {file file' : File}
    {text text' : Bytes} (hfile : t.disk file = some text) (hfile' : t.disk file' = some text')
    {user user' : User} (hload : User.loadUserDataFromJson parse (some text) = .ok user)
    (hload' : User.loadUserDataFromJson parse (some text') = .ok user') (hid : user.id ≠ 0)
    (hid' : user'.id ≠ 0) :
    user.id = user'.id ↔ storedNickname user = storedNickname user' := by
  obtain ⟨accounts, h⟩ := sound_run hparse hrun
  obtain ⟨users, keys, hdb⟩ := h.represents
  obtain ⟨nickname, password, stored, storedPassword, hknown⟩ :=
    h.saved file text user hfile hload hid
  obtain ⟨nickname', password', stored', storedPassword', hknown'⟩ :=
    h.saved file' text' user' hfile' hload' hid'
  have hstored : storedNickname user = some stored := by
    rw [storedNickname, hknown.nicknameText]
    exact hknown.nicknameFits
  have hstored' : storedNickname user' = some stored' := by
    rw [storedNickname, hknown'.nicknameText]
    exact hknown'.nicknameFits
  rw [hstored, hstored', Option.some.injEq]
  constructor
  · intro heq
    have hsame := hknown.account.symm.trans (heq ▸ hknown'.account)
    exact (Prod.mk.inj (Option.some.inj hsame)).1
  · rintro rfl
    exact Int32.toInt_inj.mp (hdb.id_eq_of_nickname hknown.account hknown'.account)

/-- Two users have two ids, so the tables hold two nicknames. -/
theorem saved_ids_eq_iff_twoUsers : ∃ (t : Community Bytes) (textA textB : Bytes),
    t.disk (bytesOf "a") = some textA ∧ t.disk (bytesOf "b") = some textB ∧
      savedA.id ≠ savedB.id ∧ storedNickname savedA ≠ storedNickname savedB := by
  obtain ⟨history, t, textA, textB, hrun, hfileA, hfileB, hloadA, hloadB⟩ := exists_twoUsers
  have hidA : savedA.id ≠ 0 := by decide
  have hidB : savedB.id ≠ 0 := by decide
  have hids : savedA.id ≠ savedB.id := by decide
  exact ⟨t, textA, textB, hfileA, hfileB, hids, (saved_ids_eq_iff Server.parsesTexts_parseFlat hrun
    hfileA hfileB hloadA hloadB hidA hidB).not.mp hids⟩

end Silence.System
