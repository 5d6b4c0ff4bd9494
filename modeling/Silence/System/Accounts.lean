import Silence.Server.Recipients
import Silence.Server.Registration
import Silence.Server.UserAccounts

/-!
# Silence.System.Accounts

The server together with its database of users.

`Deployment` answers the queries of every request from the tables, as the requests before
it have left them. So a login is accepted exactly for the nickname and the password with
which the user was registered (`login_iff_registered`), and what the server sends to a user
only goes to sockets on which these were presented (`frames_to_registered`).
-/

namespace Silence.System

open Silence.Lib Silence.Lib.Effect
open Server (Json JsonParser World Environment Socket Database Accounts Transactions CommitOutcome
  RegisterFields readRegisterFields sqlParameter varchar loginOf Makes IsPrivate MeantFor
  Observation UserRecord KeysRecord)

/-! ### The server and its database -/

/-- What happens to the transactions of a request, if it registers, and whether its queries are
answered. -/
structure Queries where
  transactions : Transactions
  answered : Bool

/-- The environment in which the database answers the queries of a request. A query that fails
returns false, 0 or nothing. -/
def backed (env : Environment) (db : Database) (queries : Queries) (request : Json) :
    Environment :=
  { env with
    createUser := fun nickname password =>
      (db.registerUser queries.transactions nickname password).1
    setPublicKeys := fun userId elGamalPublicKey dsaPublicKey =>
      match readRegisterFields request with
      | .ok fields =>
          let db := (db.registerUser queries.transactions fields.nickname fields.password).2
          (db.registerKeys queries.transactions userId elGamalPublicKey dsaPublicKey).1
      | .error _ => false
    authorizeUser := fun userId nickname password =>
      queries.answered && db.authorize userId nickname password
    getUserId := fun nickname => if queries.answered then db.getId nickname else 0
    getPublicKeys := fun userId => if queries.answered then db.getPublicKeys userId else none }

/-- The database behind a request. Only registrations change it. -/
def databaseAfter (db : Database) (queries : Queries) (request : Json) : Database :=
  match request.member? "type", readRegisterFields request with
  | some type, .ok fields =>
      if type.isText "register" then db.registered queries.transactions fields else db
  | _, _ => db

structure Deployment where
  world : World
  db : Database

inductive DeploymentEvent where
  | request (socket : Socket) (env : Environment) (queries : Queries) (line : Bytes)
  | disconnect (socket : Socket)

/-- A server that has just been started, over empty tables. -/
def Deployment.start (fileServer : FileServer.State) : Deployment := ⟨.start fileServer, .empty⟩

def DeploymentEvent.parsed (parse : JsonParser) : DeploymentEvent → Json
  | .request _ _ _ line => parse.value line
  | .disconnect _ => .null

/-- What the server meets. -/
def Deployment.serverEvent (t : Deployment) (parse : JsonParser) :
    DeploymentEvent → Server.Event
  | .request socket env queries line =>
      .request socket (backed env t.db queries (parse.value line)) line
  | .disconnect socket => .disconnect socket

def Deployment.step (parse : JsonParser) (t : Deployment) (event : DeploymentEvent) :
    Deployment where
  world := t.world.step parse (t.serverEvent parse event)
  db :=
    match event with
    | .request _ _ queries line => databaseAfter t.db queries (parse.value line)
    | .disconnect _ => t.db

/-- The ids that a request draws are positive, as from sequences, and new in their tables. -/
def Deployment.Guard (t : Deployment) : DeploymentEvent → Prop
  | .request _ _ queries _ =>
      (∀ id, queries.transactions.draws.user.id = some id → id ≠ 0 ∧
        t.db.users.any (Server.hasValue Server.usersColumns "id" (.integer id)) = false) ∧
      ∀ id, queries.transactions.draws.keys.id = some id → id ≠ 0 ∧
        t.db.cryptoKeys.any (Server.hasValue Server.cryptoKeysColumns "id" (.integer id)) = false
  | .disconnect _ => True

/-- The runs of a server over empty tables. -/
abbrev DeploymentRun (parse : JsonParser) (fileServer : FileServer.State)
    (history : List (DeploymentEvent × Deployment)) (t : Deployment) : Prop :=
  Run (Deployment.step parse) Deployment.Guard (.start fileServer) history t

/-! ### Registrations -/

/-- The user id that a registration returns. -/
def Queries.createdId (queries : Queries) (db : Database) (fields : RegisterFields) : Int :=
  (db.registerUser queries.transactions fields.nickname fields.password).1

/-- The texts of the keys that a registration stores, if its second transaction gets to its row. -/
def Queries.storedKeys (queries : Queries) (fields : RegisterFields) : Option (String × String) :=
  queries.transactions.draws.keys.id.map fun _ =>
    (sqlParameter fields.dsaPublicKey, sqlParameter fields.elGamalPublicKey)

/-- The request is one to register, with these fields. -/
def Registering (request : Json) (fields : RegisterFields) : Prop :=
  request.HasType "register" ∧ readRegisterFields request = .ok fields

theorem databaseAfter_of_registering {request : Json} {fields : RegisterFields}
    (h : Registering request fields) (db : Database) (queries : Queries) :
    databaseAfter db queries request = db.registered queries.transactions fields := by
  have htype : (Json.string "register").isText "register" = true := Server.Json.isText_iff.mpr rfl
  rw [databaseAfter, h.1, h.2]
  exact if_pos htype

theorem databaseAfter_of_not_registering {request : Json}
    (h : ∀ fields, ¬ Registering request fields) (db : Database) (queries : Queries) :
    databaseAfter db queries request = db := by
  unfold databaseAfter
  split
  · rename_i type fields htype hfields
    refine if_neg fun hregister => h fields ⟨?_, hfields⟩
    rw [Server.Json.isText_iff.mp hregister] at htype
    exact htype
  · rfl

/-- A registration is two calls of the repository. -/
theorem registered_eq (db : Database) (queries : Queries) (fields : RegisterFields) :
    db.registered queries.transactions fields =
      ((db.create queries.transactions.draws.user fields.nickname
        fields.password).2.setPublicKeys queries.transactions.draws.keys
          (queries.createdId db fields) fields.elGamalPublicKey fields.dsaPublicKey).2 := by
  simp only [Database.registered, Database.registerKeys, Database.registerUser, Queries.createdId,
    CommitOutcome.result_snd]

/-- What it makes of the accounts. -/
noncomputable def Queries.registered (queries : Queries) (db : Database) (accounts : Accounts)
    (fields : RegisterFields) : Accounts :=
  ((accounts.create queries.transactions.draws.user fields.nickname
    fields.password).2.setPublicKeys queries.transactions.draws.keys (queries.createdId db fields)
      fields.elGamalPublicKey fields.dsaPublicKey).2

/-- Setting keys leaves the users alone. -/
theorem users_setPublicKeys (accounts : Accounts) (draw : Server.Draw) (userId : Int)
    (elGamalPublicKey dsaPublicKey : String) :
    (accounts.setPublicKeys draw userId elGamalPublicKey dsaPublicKey).2.users =
      accounts.users := by
  unfold Accounts.setPublicKeys
  split <;> rfl

/-- Keys are set of one user only. -/
theorem keys_setPublicKeys_of_ne {accounts : Accounts} {userId id : Int} (draw : Server.Draw)
    (h : userId ≠ id) (elGamalPublicKey dsaPublicKey : String) :
    (accounts.setPublicKeys draw userId elGamalPublicKey dsaPublicKey).2.keys id =
      accounts.keys id := by
  unfold Accounts.setPublicKeys
  split
  · exact Function.update_of_ne (Ne.symm h) _ _
  · rfl

/-- The keys of a user that has none so far. -/
theorem keys_setPublicKeys {accounts : Accounts} {queries : Queries} {fields : RegisterFields}
    {id : Int} (huser : accounts.users id ≠ none) (hnone : accounts.keys id = none) :
    (accounts.setPublicKeys queries.transactions.draws.keys id fields.elGamalPublicKey
      fields.dsaPublicKey).2.keys id = queries.storedKeys fields := by
  rw [Queries.storedKeys]
  cases hdraw : queries.transactions.draws.keys.id with
  | none => simp [Accounts.setPublicKeys, hdraw, hnone]
  | some drawn => simp [Accounts.setPublicKeys, hdraw, hnone, huser]

theorem keys_create (accounts : Accounts) (draw : Server.Draw) (nickname password : String) :
    (accounts.create draw nickname password).2.keys = accounts.keys := by
  unfold Accounts.create
  split
  · split <;> rfl
  · rfl

theorem cryptoKeys_create (db : Database) (draw : Server.Draw) (nickname password : String) :
    (db.create draw nickname password).2.cryptoKeys = db.cryptoKeys := by
  rcases db.create_cases draw nickname password with h | ⟨id, stored, storedPassword, -, -, h⟩
  · rw [h]
  · rw [h]

/-! ### Accounts behind a registration -/

/-- Creating a user leaves the other users as they are. -/
theorem users_create_of_some {accounts : Accounts} {draw : Server.Draw} {nickname password : String}
    (hnew : ∀ id, draw.id = some id → accounts.users id = none) {id : Int}
    {account : String × String} (h : accounts.users id = some account) :
    (accounts.create draw nickname password).2.users id = some account := by
  unfold Accounts.create
  split
  · rename_i drawn _ _ hdrawn _ _
    split
    · have hne : id ≠ drawn := by
        rintro rfl
        rw [hnew id hdrawn] at h
        cases h
      exact (Function.update_of_ne hne _ _).trans h
    · exact h
  · exact h

/-- A user that is there was there before, or is the new one. -/
theorem users_of_create {accounts : Accounts} {draw : Server.Draw} {nickname password : String}
    {id : Int} {stored : String × String}
    (h : (accounts.create draw nickname password).2.users id = some stored) :
    accounts.users id = some stored ∨ (draw.id = some id ∧
      varchar 50 (sqlParameter nickname) = some stored.1 ∧
      varchar 255 (sqlParameter password) = some stored.2) := by
  unfold Accounts.create at h
  split at h
  · rename_i drawn storedNickname storedPassword hdrawn hnickname hpassword
    split at h
    · by_cases heq : id = drawn
      · subst heq
        dsimp only at h
        rw [Function.update_self] at h
        cases h
        exact .inr ⟨hdrawn, hnickname, hpassword⟩
      · exact .inl ((Function.update_of_ne heq _ _).symm.trans h)
    · exact .inl h
  · exact .inl h

/-- The user whose id is returned is there, under the texts that its columns hold. -/
theorem users_create_of_result {accounts : Accounts} {draw : Server.Draw}
    {nickname password : String} {id : Int} (hid : id ≠ 0)
    (h : (accounts.create draw nickname password).1 = id) :
    draw.id = some id ∧ ∃ storedNickname storedPassword,
      varchar 50 (sqlParameter nickname) = some storedNickname ∧
      varchar 255 (sqlParameter password) = some storedPassword ∧
      (accounts.create draw nickname password).2.users id =
        some (storedNickname, storedPassword) := by
  unfold Accounts.create at h ⊢
  split at h
  · rename_i drawn storedNickname storedPassword hdrawn hnickname hpassword
    by_cases hfree : accounts.Free storedNickname drawn
    · rw [if_pos hfree] at h
      cases h
      refine ⟨hdrawn, storedNickname, storedPassword, hnickname, hpassword, ?_⟩
      simp only [if_pos hfree, Function.update_self]
    · rw [if_neg hfree] at h
      cases h
      exact absurd rfl hid
  · cases h
    exact absurd rfl hid

/-- The accounts behind a request. -/
theorem represents_databaseAfter {db : Database} {accounts : Accounts} {users : List UserRecord}
    {keys : List KeysRecord} (h : db.Represents accounts users keys) {queries : Queries}
    (huser : ∀ id, queries.transactions.draws.user.id = some id → id ≠ 0 ∧
      db.users.any (Server.hasValue Server.usersColumns "id" (.integer id)) = false)
    (hkeys : ∀ id, queries.transactions.draws.keys.id = some id → id ≠ 0 ∧
      db.cryptoKeys.any (Server.hasValue Server.cryptoKeysColumns "id" (.integer id)) = false)
    (request : Json) :
    ∃ accounts' users' keys', (databaseAfter db queries request).Represents accounts' users' keys' ∧
      (∀ fields, Registering request fields →
        accounts' = queries.registered db accounts fields) ∧
      ((∀ fields, ¬ Registering request fields) → accounts' = accounts) := by
  by_cases hregistering : ∃ fields, Registering request fields
  · obtain ⟨fields, hfields⟩ := hregistering
    rw [databaseAfter_of_registering hfields, registered_eq]
    obtain ⟨-, users', hcreated⟩ := h.create huser fields.nickname fields.password
    have hkeys' : ∀ id, queries.transactions.draws.keys.id = some id → id ≠ 0 ∧
        (db.create queries.transactions.draws.user fields.nickname
          fields.password).2.cryptoKeys.any
            (Server.hasValue Server.cryptoKeysColumns "id" (.integer id)) = false := by
      rw [cryptoKeys_create]
      exact hkeys
    obtain ⟨-, keys', hset⟩ := hcreated.setPublicKeys hkeys' (queries.createdId db fields)
      fields.elGamalPublicKey fields.dsaPublicKey
    refine ⟨_, users', keys', hset, fun fields' hfields' => ?_, fun hnot =>
      absurd hfields (hnot fields)⟩
    obtain rfl : fields = fields' := Except.ok.inj (hfields.2.symm.trans hfields'.2)
    rfl
  · have hnot := not_exists.mp hregistering
    rw [databaseAfter_of_not_registering hnot]
    exact ⟨accounts, users, keys, h, fun fields hfields => absurd hfields (hnot fields),
      fun _ => rfl⟩

/-- What a request leaves of the accounts: they are those of the tables, the ones before stay, with
their keys, a new one is that of a registration, and one whose id is returned is there, with the
keys of the registration. -/
structure AccountsAfter (db : Database) (queries : Queries) (request : Json)
    (accounts accounts' : Accounts) : Prop where
  represents : ∃ users keys, (databaseAfter db queries request).Represents accounts' users keys
  kept : ∀ id account, accounts.users id = some account → accounts'.users id = some account
  keysKept : ∀ id, accounts.users id ≠ none → accounts'.keys id = accounts.keys id
  added : ∀ id nickname password, accounts'.users id = some (nickname, password) →
    accounts.users id = some (nickname, password) ∨ ∃ fields, Registering request fields ∧
      queries.transactions.draws.user.id = some id ∧
      varchar 50 (sqlParameter fields.nickname) = some nickname ∧
      varchar 255 (sqlParameter fields.password) = some password
  keysAdded : ∀ id texts, accounts'.keys id = some texts → accounts.keys id = some texts ∨
    ∃ fields, Registering request fields ∧ queries.createdId db fields = id
  returned : ∀ fields id, Registering request fields → id ≠ 0 →
    queries.createdId db fields = id → queries.transactions.draws.user.id = some id ∧
    accounts'.keys id = queries.storedKeys fields ∧ ∃ nickname password,
      varchar 50 (sqlParameter fields.nickname) = some nickname ∧
      varchar 255 (sqlParameter fields.password) = some password ∧
      accounts'.users id = some (nickname, password)

/-- An id that is returned is the one that the first transaction returned. -/
theorem create_of_createdId {db : Database} {queries : Queries} {fields : RegisterFields}
    {id : Int} (hid : id ≠ 0) (h : queries.createdId db fields = id) :
    (db.create queries.transactions.draws.user fields.nickname fields.password).1 = id := by
  rw [Queries.createdId, Database.registerUser] at h
  cases hcommit : queries.transactions.userCommit with
  | confirmed =>
      rw [hcommit] at h
      exact h
  | inDoubt =>
      rw [hcommit] at h
      exact absurd h.symm hid

/-- The draws of the user's id are new for the accounts. -/
theorem users_eq_none_of_draw {db : Database} {accounts : Accounts} {users : List UserRecord}
    {keys : List KeysRecord} (h : db.Represents accounts users keys) {queries : Queries}
    (huser : ∀ id, queries.transactions.draws.user.id = some id → id ≠ 0 ∧
      db.users.any (Server.hasValue Server.usersColumns "id" (.integer id)) = false) {id : Int}
    (hdraw : queries.transactions.draws.user.id = some id) : accounts.users id = none := by
  by_contra hsome
  have htaken := (huser id hdraw).2
  rw [(h.any_id id).mpr hsome] at htaken
  cases htaken

/-- A user whose id is returned is there behind the first transaction. -/
theorem users_of_createdId {db : Database} {accounts : Accounts} {users : List UserRecord}
    {keys : List KeysRecord} (h : db.Represents accounts users keys) {queries : Queries}
    (huser : ∀ id, queries.transactions.draws.user.id = some id → id ≠ 0 ∧
      db.users.any (Server.hasValue Server.usersColumns "id" (.integer id)) = false)
    {fields : RegisterFields} {id : Int} (hid : id ≠ 0)
    (hresult : queries.createdId db fields = id) :
    queries.transactions.draws.user.id = some id ∧ ∃ nickname password,
      varchar 50 (sqlParameter fields.nickname) = some nickname ∧
      varchar 255 (sqlParameter fields.password) = some password ∧
      (accounts.create queries.transactions.draws.user fields.nickname
        fields.password).2.users id = some (nickname, password) := by
  have hcreated := create_of_createdId hid hresult
  rw [(h.create huser fields.nickname fields.password).1] at hcreated
  exact users_create_of_result hid hcreated

/-- Behind a registration. -/
theorem accountsAfter_of_registering {db : Database} {accounts accounts' : Accounts}
    {users : List UserRecord} {keys : List KeysRecord} (h : db.Represents accounts users keys)
    {queries : Queries}
    (huser : ∀ id, queries.transactions.draws.user.id = some id → id ≠ 0 ∧
      db.users.any (Server.hasValue Server.usersColumns "id" (.integer id)) = false)
    {request : Json} {fields : RegisterFields} (hfields : Registering request fields)
    (haccounts : accounts' = queries.registered db accounts fields)
    (hdb' : ∃ users keys, (databaseAfter db queries request).Represents accounts' users keys) :
    AccountsAfter db queries request accounts accounts' := by
  have hunique : ∀ fields', Registering request fields' → fields' = fields := fun fields' h' =>
    Except.ok.inj (h'.2.symm.trans hfields.2)
  have hnew : ∀ id, queries.transactions.draws.user.id = some id → accounts.users id = none :=
    fun id => users_eq_none_of_draw h huser
  have husers : accounts'.users = (accounts.create queries.transactions.draws.user
      fields.nickname fields.password).2.users := by
    rw [haccounts]
    exact users_setPublicKeys _ _ _ _ _
  refine ⟨hdb', ?_, ?_, ?_, ?_, ?_⟩
  · intro id account haccount
    rw [husers]
    exact users_create_of_some hnew haccount
  · intro id hsome
    rw [haccounts, Queries.registered, keys_setPublicKeys_of_ne, keys_create]
    intro hresult
    obtain ⟨account, haccount⟩ := Option.ne_none_iff_exists'.mp hsome
    obtain ⟨hdraw, -⟩ := users_of_createdId h huser (h.id_ne_zero haccount) hresult
    exact hsome (hnew id hdraw)
  · intro id nickname password haccount
    rw [husers] at haccount
    rcases users_of_create haccount with hold | hadded
    · exact .inl hold
    · exact .inr ⟨fields, hfields, hadded⟩
  · intro id texts hsome
    by_cases hresult : queries.createdId db fields = id
    · exact .inr ⟨fields, hfields, hresult⟩
    · rw [haccounts, Queries.registered, keys_setPublicKeys_of_ne _ hresult, keys_create] at hsome
      exact .inl hsome
  · intro fields' id hfields' hid hresult
    obtain rfl := hunique fields' hfields'
    obtain ⟨hdraw, nickname, password, hnickname, hpassword, haccount⟩ :=
      users_of_createdId h huser hid hresult
    refine ⟨hdraw, ?_, nickname, password, hnickname, hpassword, husers ▸ haccount⟩
    have hnone : accounts.keys id = none := h.keys_eq_none (hnew id hdraw)
    rw [haccounts, Queries.registered, hresult]
    exact keys_setPublicKeys (by rw [haccount]; exact Option.some_ne_none _)
      (by rw [keys_create]; exact hnone)

theorem exists_accountsAfter {db : Database} {accounts : Accounts} {users : List UserRecord}
    {keys : List KeysRecord} (h : db.Represents accounts users keys) {queries : Queries}
    (huser : ∀ id, queries.transactions.draws.user.id = some id → id ≠ 0 ∧
      db.users.any (Server.hasValue Server.usersColumns "id" (.integer id)) = false)
    (hkeys : ∀ id, queries.transactions.draws.keys.id = some id → id ≠ 0 ∧
      db.cryptoKeys.any (Server.hasValue Server.cryptoKeysColumns "id" (.integer id)) = false)
    (request : Json) : ∃ accounts', AccountsAfter db queries request accounts accounts' := by
  obtain ⟨accounts', users', keys', hdb', hregistering, hother⟩ :=
    represents_databaseAfter h huser hkeys request
  by_cases hfields : ∃ fields, Registering request fields
  · obtain ⟨fields, hfields⟩ := hfields
    exact ⟨accounts', accountsAfter_of_registering h huser hfields (hregistering fields hfields)
      ⟨users', keys', hdb'⟩⟩
  · have hnot := not_exists.mp hfields
    obtain rfl := hother hnot
    exact ⟨accounts', ⟨⟨users', keys', hdb'⟩, fun _ _ h => h, fun _ _ => rfl,
      fun _ _ _ h => .inl h, fun _ _ h => .inl h, fun fields _ h => absurd h (hnot fields)⟩⟩

/-! ### What a step records -/

/-- Only a registration records a user. -/
theorem closed_createdUser (env : Environment) (w₀ : World) (socket : Socket) (request : Json) :
    Server.Closed env w₀ socket request fun w => ∀ id nickname password,
      .createdUser id nickname password ∈ w.log → request.HasType "register" := by
  have hgrows : ∀ w, w₀.Grows env socket request w → ∀ id nickname password,
      .createdUser id nickname password ∈ w.log → request.HasType "register" :=
    fun w hw _ _ _ hmem => hw.log _ hmem
  have hother : ∀ (w w' : World) (o : Observation), w₀.Grows env socket request w →
      w'.log = w.log ++ [o] → (∀ id nickname password, o ≠ .createdUser id nickname password) →
      ∀ id nickname password, .createdUser id nickname password ∈ w'.log →
        request.HasType "register" := by
    intro w w' o hw hlog ho id nickname password hmem
    rw [hlog] at hmem
    rcases List.mem_append.mp hmem with hold | hnew
    · exact hgrows w hw _ _ _ hold
    · exact absurd (List.mem_singleton.mp hnew).symm (ho _ _ _)
  exact {
    unchanged := hgrows
    authorize := fun w userId hw _ => hother w _ _ hw rfl nofun
    announce := fun w transfer hw _ => hother w _ _ hw rfl nofun
    takeChunk := fun w chunk hw _ => by
      rcases Server.takeChunk_log w env chunk with hlog | hlog
      · intro id nickname password hmem
        rw [hlog] at hmem
        exact hgrows w hw _ _ _ hmem
      · exact hother w _ _ hw hlog nofun
    recordWrite := fun w o hmakes hw id nickname password hmem => by
      rcases List.mem_append.mp hmem with hold | hnew
      · exact hw _ _ _ hold
      · rw [← List.mem_singleton.mp hnew] at hmakes
        exact hmakes
    eraseTransfer := fun w chunk _ _ hw => hw }

theorem dispatch_register {request : Json} (h : request.HasType "register") (env : Environment)
    (socket : Socket) : Server.dispatch env socket request =
      Server.handleRegister env socket request := by
  rw [Server.dispatch, h]
  rfl

/-- The user that a request creates is the one of its fields. -/
theorem createdUser_step {parse : JsonParser} {w : World} {socket : Socket}
    {env : Environment} {line : Bytes} {id : Int} {nickname password : String}
    (h : .createdUser id nickname password ∈ (w.step parse (.request socket env line)).log) :
    ∃ fields, Registering (parse.value line) fields ∧ fields.nickname = nickname ∧
      fields.password = password ∧ env.createUser nickname password = id := by
  have htype := @Server.step_request parse w socket env line _
    (closed_createdUser env w.beginRequest socket (parse.value line)) id nickname password h
  cases hparse : parse line with
  | error failure =>
      rw [JsonParser.value_of_error hparse] at htype
      cases htype
  | ok request =>
      rw [JsonParser.value_of_ok hparse] at htype
      rw [Server.step_request_of_parse hparse, dispatch_register htype] at h
      rw [JsonParser.value_of_ok hparse]
      cases hfields : readRegisterFields request with
      | error e =>
          rw [Server.handleRegister_of_missing hfields] at h
          cases h
      | ok fields =>
          obtain ⟨response, -, hlog⟩ := @Server.handleRegister_of_fields env socket request
            w.beginRequest fields hfields
          rw [hlog] at h
          have hcreated : Observation.createdUser id nickname password =
              .createdUser (env.createUser fields.nickname fields.password) fields.nickname
                fields.password := by simpa [World.beginRequest] using h
          injection hcreated with hid hnickname hpassword
          subst hnickname hpassword
          exact ⟨fields, ⟨htype, hfields⟩, rfl, rfl, hid.symm⟩

/-! ### The invariant -/

/-- A request of the run registers a user with this id, nickname and password. -/
def RegisteredBy (parse : JsonParser) (history : List (DeploymentEvent × Deployment))
    (id : Int) (nickname password : String) : Prop :=
  ∃ entry ∈ history, ∃ socket env queries line fields,
    entry.1 = .request socket env queries line ∧ Registering (parse.value line) fields ∧
      queries.transactions.draws.user.id = some id ∧
      varchar 50 (sqlParameter fields.nickname) = some nickname ∧
      varchar 255 (sqlParameter fields.password) = some password

/-- A request on the socket presents this id, nickname and password. -/
def PresentedOn (parse : JsonParser) (history : List (DeploymentEvent × Deployment))
    (socket : Socket) (id : Int) (nickname password : String) : Prop :=
  ∃ entry ∈ history, ∃ env queries line presented,
    entry.1 = .request socket env queries line ∧
      (parse.value line).HasType "authorize" ∧
      (parse.value line).readInt "user_id" = .ok id ∧
      (parse.value line).readString "nickname" = .ok presented ∧
      sqlParameter presented = nickname ∧
      (parse.value line).readString "password" = .ok password

/-- The tables are those of the accounts. These are the ones that have been registered, among them
all whose registration was reported, and the connected users have presented theirs. -/
structure Deployment.Consistent (parse : JsonParser)
    (history : List (DeploymentEvent × Deployment)) (t : Deployment) (accounts : Accounts) :
    Prop where
  represents : ∃ users keys, t.db.Represents accounts users keys
  registered : ∀ id nickname password, accounts.users id = some (nickname, password) →
    RegisteredBy parse history id nickname password
  reported : ∀ entry ∈ history, ∀ id nickname password, id ≠ 0 →
    .createdUser id nickname password ∈ entry.2.world.log →
    ∃ storedNickname storedPassword, varchar 50 (sqlParameter nickname) = some storedNickname ∧
      varchar 255 (sqlParameter password) = some storedPassword ∧
      accounts.users id = some (storedNickname, storedPassword)
  presented : ∀ userId socket, t.world.connectedClients.getClientSocket userId = some socket →
    ∃ nickname password, accounts.users userId = some (nickname, password) ∧
      PresentedOn parse history socket userId nickname password

/-- A login is accepted for the account of the user. -/
theorem loginOf_backed_iff {db : Database} {accounts : Accounts} {users : List UserRecord}
    {keys : List KeysRecord} (h : db.Represents accounts users keys) {env : Environment}
    {queries : Queries} {request : Json} {userId : Int} :
    loginOf (backed env db queries request) request = some userId ↔
      request.HasType "authorize" ∧ request.readInt "user_id" = .ok userId ∧
        ∃ nickname password, request.readString "nickname" = .ok nickname ∧
          request.readString "password" = .ok password ∧ queries.answered = true ∧
          accounts.users userId = some (sqlParameter nickname, password) := by
  rw [Server.loginOf_eq_some_iff]
  simp only [backed, Bool.and_eq_true, h.authorize_iff]

/-- A nickname is resolved to its user. -/
theorem getUserId_backed_iff {db : Database} {accounts : Accounts} {users : List UserRecord}
    {keys : List KeysRecord} (h : db.Represents accounts users keys) {env : Environment}
    {queries : Queries} {request : Json} {nickname : String} {userId : Int} (hid : userId ≠ 0) :
    (backed env db queries request).getUserId nickname = userId ↔ queries.answered = true ∧
      ∃ password, accounts.users userId = some (sqlParameter nickname, password) := by
  rw [← h.getId_eq_iff _ hid]
  show (if queries.answered then db.getId nickname else 0) = userId ↔ _
  by_cases hanswered : queries.answered = true
  · simp [hanswered]
  · simp [hanswered, hid.symm]

/-- A message or a key is meant for the receiver that its sender names. -/
theorem receiver_of_meantFor {env : Environment} {w₀ : World} {request : Json}
    {frame : Json.Members} {userId : Int} (h : MeantFor env w₀ request frame userId)
    (htype : frame.lookup "type" = some (.string "receive_msg") ∨
      frame.lookup "type" = some (.string "receive_aes_key")) :
    ∃ receiver, request.readString "receiver_nickname" = .ok receiver ∧
      env.getUserId receiver = userId := by
  rcases h with ⟨-, hreceiver⟩ | ⟨filename, hfile, -⟩
  · exact hreceiver
  · rcases htype with h | h <;> simp [Server.CarriesFile, h] at hfile

theorem RegisteredBy.mono {parse : JsonParser}
    {history : List (DeploymentEvent × Deployment)} {id : Int} {nickname password : String}
    (h : RegisteredBy parse history id nickname password)
    (more : List (DeploymentEvent × Deployment)) :
    RegisteredBy parse (history ++ more) id nickname password := by
  obtain ⟨entry, hmem, hentry⟩ := h
  exact ⟨entry, List.mem_append_left _ hmem, hentry⟩

theorem PresentedOn.mono {parse : JsonParser}
    {history : List (DeploymentEvent × Deployment)} {socket : Socket} {id : Int}
    {nickname password : String} (h : PresentedOn parse history socket id nickname password)
    (more : List (DeploymentEvent × Deployment)) :
    PresentedOn parse (history ++ more) socket id nickname password := by
  obtain ⟨entry, hmem, hentry⟩ := h
  exact ⟨entry, List.mem_append_left _ hmem, hentry⟩

namespace Deployment.Consistent

variable {parse : JsonParser} {history : List (DeploymentEvent × Deployment)}
  {t : Deployment} {accounts : Accounts}

theorem start (fileServer : FileServer.State) :
    Deployment.Consistent parse [] (.start fileServer) .empty where
  represents := ⟨[], [], Server.Database.represents_empty⟩
  registered _ _ _ haccount := by cases haccount
  reported _ hmem := absurd hmem List.not_mem_nil
  presented _ _ hmapped := by cases hmapped

theorem disconnect (h : t.Consistent parse history accounts) (socket : Socket) :
    (t.step parse (.disconnect socket)).Consistent parse
      (history ++ [(.disconnect socket, t.step parse (.disconnect socket))]) accounts where
  represents := h.represents
  registered id nickname password haccount := (h.registered id nickname password haccount).mono _
  reported entry hmem id nickname password hid hcreated := by
    rcases List.mem_append.mp hmem with hold | hlast
    · exact h.reported entry hold id nickname password hid hcreated
    · rw [List.mem_singleton.mp hlast] at hcreated
      cases hcreated
  presented userId socket' hmapped := by
    rcases Server.mapped_step hmapped with hold | ⟨-, hlogin⟩
    · obtain ⟨nickname, password, haccount, hpresented⟩ := h.presented userId socket' hold
      exact ⟨nickname, password, haccount, hpresented.mono _⟩
    · cases hlogin

theorem request (h : t.Consistent parse history accounts) (socket : Socket) (env : Environment)
    {queries : Queries} {line : Bytes} {accounts' : Accounts}
    (hafter : AccountsAfter t.db queries (parse.value line) accounts accounts') :
    (t.step parse (.request socket env queries line)).Consistent parse
      (history ++ [(.request socket env queries line,
        t.step parse (.request socket env queries line))]) accounts' := by
  obtain ⟨users, keys, hdb⟩ := h.represents
  refine ⟨hafter.represents, ?_, ?_, ?_⟩
  · intro id nickname password haccount
    rcases hafter.added id nickname password haccount with hold | ⟨fields, hfields, hadded⟩
    · exact (h.registered id nickname password hold).mono _
    · exact ⟨_, List.mem_append_right _ (List.mem_singleton.mpr rfl), socket, env, queries, line,
        fields, rfl, hfields, hadded⟩
  · intro entry hmem id nickname password hid hcreated
    rcases List.mem_append.mp hmem with hold | hlast
    · obtain ⟨storedNickname, storedPassword, hnickname, hpassword, haccount⟩ :=
        h.reported entry hold id nickname password hid hcreated
      exact ⟨storedNickname, storedPassword, hnickname, hpassword, hafter.kept _ _ haccount⟩
    · rw [List.mem_singleton.mp hlast] at hcreated
      obtain ⟨fields, hfields, rfl, rfl, hresult⟩ := createdUser_step hcreated
      exact (hafter.returned fields id hfields hid hresult).2.2
  · intro userId socket' hmapped
    rcases Server.mapped_step hmapped with hold | ⟨hsocket, hlogin⟩
    · obtain ⟨nickname, password, haccount, hpresented⟩ := h.presented userId socket' hold
      exact ⟨nickname, password, hafter.kept _ _ haccount, hpresented.mono _⟩
    · obtain rfl : socket = socket' := hsocket
      obtain ⟨htype, huser, nickname, password, hnickname, hpassword, -, haccount⟩ :=
        (loginOf_backed_iff hdb).mp hlogin
      exact ⟨sqlParameter nickname, password, hafter.kept _ _ haccount, _,
        List.mem_append_right _ (List.mem_singleton.mpr rfl), env, queries, line, nickname, rfl,
        htype, huser, hnickname, rfl, hpassword⟩

end Deployment.Consistent

theorem consistent_run {parse : JsonParser} {fileServer : FileServer.State}
    {history : List (DeploymentEvent × Deployment)} {t : Deployment}
    (hrun : DeploymentRun parse fileServer history t) :
    ∃ accounts, t.Consistent parse history accounts := by
  refine hrun.invariant (I := fun history t => ∃ accounts, t.Consistent parse history accounts)
    ⟨_, .start fileServer⟩ ?_
  rintro history t event ⟨accounts, h⟩ hguard
  cases event with
  | request socket env queries line =>
      obtain ⟨users, keys, hdb⟩ := h.represents
      obtain ⟨accounts', hafter⟩ :=
        exists_accountsAfter hdb hguard.1 hguard.2 (parse.value line)
      exact ⟨accounts', h.request socket env hafter⟩
  | disconnect socket => exact ⟨accounts, h.disconnect socket⟩

/-! ### Logins and frames -/

/-- In every run in which a registration returned an id, a later login with this id is accepted if
and only if its query is answered and it presents the nickname and the password that the columns
hold of the registered ones. -/
theorem login_iff_registered {parse : JsonParser} {fileServer : FileServer.State}
    {history : List (DeploymentEvent × Deployment)} {t : Deployment}
    (hrun : DeploymentRun parse fileServer history t) {entry : DeploymentEvent × Deployment}
    (hentry : entry ∈ history) {id : Int} (hid : id ≠ 0) {nickname password : String}
    (hcreated : .createdUser id nickname password ∈ entry.2.world.log) {env : Environment}
    {queries : Queries} {request : Json} (htype : request.HasType "authorize")
    (huser : request.readInt "user_id" = .ok id) {presented presentedPassword : String}
    (hnickname : request.readString "nickname" = .ok presented)
    (hpassword : request.readString "password" = .ok presentedPassword) :
    loginOf (backed env t.db queries request) request = some id ↔
      queries.answered = true ∧
        varchar 50 (sqlParameter nickname) = some (sqlParameter presented) ∧
        varchar 255 (sqlParameter password) = some presentedPassword := by
  obtain ⟨accounts, h⟩ := consistent_run hrun
  obtain ⟨users, keys, hdb⟩ := h.represents
  obtain ⟨storedNickname, storedPassword, hstored, hstoredPassword, haccount⟩ :=
    h.reported entry hentry id nickname password hid hcreated
  rw [loginOf_backed_iff hdb, hstored, hstoredPassword, haccount]
  constructor
  · rintro ⟨-, -, nickname', password', hnickname', hpassword', hanswered, hsame⟩
    obtain rfl : presented = nickname' := Except.ok.inj (hnickname.symm.trans hnickname')
    obtain rfl : presentedPassword = password' := Except.ok.inj (hpassword.symm.trans hpassword')
    obtain ⟨rfl, rfl⟩ := Prod.mk.inj (Option.some.inj hsame)
    exact ⟨hanswered, rfl, rfl⟩
  · rintro ⟨hanswered, hsame, hsamePassword⟩
    exact ⟨htype, huser, presented, presentedPassword, hnickname, hpassword, hanswered,
      by rw [Option.some.inj hsame, Option.some.inj hsamePassword]⟩

/-! ### A user who registers and logs in -/

def registrationOfA : Json.Members :=
  [("dsa_public_key", .string "2"), ("el_gamal_public_key", .string "3"),
    ("nickname", .string "a"), ("password", .string "p"), ("type", .string "register")]

def parseRegistered : JsonParser :=
  Server.parseLines [registrationOfA, Server.authorizeRequest "a" 1, Server.textForA]

/-- Everything is answered and carried out. -/
def answered (id : Int) : Queries where
  transactions := ⟨⟨⟨some id, "t", "t"⟩, ⟨some id, "t", "t"⟩⟩, .confirmed, .confirmed⟩
  answered := true

def registrationEvent : DeploymentEvent :=
  .request 5 .working (answered 1) (Server.lineOf registrationOfA)

def authorizationEvent : DeploymentEvent :=
  .request 7 .working (answered 2) (Server.lineOf (Server.authorizeRequest "a" 1))

/-- The server behind the registration. -/
def registeredA : Deployment := (Deployment.start .fresh).step parseRegistered registrationEvent

theorem guard_registrationEvent : (Deployment.start .fresh).Guard registrationEvent :=
  ⟨fun _ h => by cases h; simp [Deployment.start, Database.empty],
    fun _ h => by cases h; simp [Deployment.start, Database.empty]⟩

theorem registered_run :
    DeploymentRun parseRegistered .fresh [(registrationEvent, registeredA)] registeredA :=
  .snoc registrationEvent .nil guard_registrationEvent

set_option maxRecDepth 2000 in
theorem registered_reported : Observation.createdUser 1 "a" "p" ∈ registeredA.world.log :=
  List.mem_of_getElem? (i := 0) rfl

def loginOfA (password : String) : Json :=
  .object [("nickname", .string "a"), ("password", .string password),
    ("type", .string "authorize"), ("user_id", .number 1)]

/-- The registered password is accepted, and another one is refused. -/
theorem login_iff_registered_a :
    loginOf (backed .working registeredA.db (answered 2) (loginOfA "p")) (loginOfA "p") = some 1 ∧
      loginOf (backed .working registeredA.db (answered 2) (loginOfA "q")) (loginOfA "q") ≠
        some 1 := by
  have hlogin : ∀ password,
      loginOf (backed .working registeredA.db (answered 2) (loginOfA password))
          (loginOfA password) = some 1 ↔
        (answered 2).answered = true ∧ varchar 50 (sqlParameter "a") = some (sqlParameter "a") ∧
          varchar 255 (sqlParameter "p") = some password := fun password =>
    login_iff_registered registered_run (List.mem_singleton.mpr rfl) (by simp)
      registered_reported (show (loginOfA password).HasType "authorize" from rfl) rfl rfl rfl
  refine ⟨(hlogin "p").mpr ⟨rfl, by decide, by decide⟩, fun haccepted => ?_⟩
  exact absurd ((hlogin "q").mp haccepted).2.2 (by decide)

/-- In every run, a message, a key or a file that is written for a user goes to a socket on which
the nickname and the password were presented with which a request of the run registers this user,
and a message or a key is for the nickname that its sender names. -/
theorem frames_to_registered {parse : JsonParser} {fileServer : FileServer.State}
    {history : List (DeploymentEvent × Deployment)} {t : Deployment}
    (hrun : DeploymentRun parse fileServer history t) {requester : Socket} {env : Environment}
    {queries : Queries} {line : Bytes} {socket : Socket} {recipient : Option Int}
    {frame : Json.Members} {ok : Bool}
    (hwrote : .wrote socket recipient frame ok ∈
      (t.step parse (.request requester env queries line)).world.log) (hprivate : IsPrivate frame) :
    ∃ userId nickname password, recipient = some userId ∧
      RegisteredBy parse history userId nickname password ∧
      PresentedOn parse history socket userId nickname password ∧
      ((frame.lookup "type" = some (.string "receive_msg") ∨
          frame.lookup "type" = some (.string "receive_aes_key")) →
        ∃ receiver, (parse.value line).readString "receiver_nickname" = .ok receiver ∧
          sqlParameter receiver = nickname) := by
  obtain ⟨accounts, h⟩ := consistent_run hrun
  obtain ⟨users, keys, hdb⟩ := h.represents
  obtain ⟨haddressed, -, -, hrecipient⟩ := @Server.step_request parse t.world requester
    (backed env t.db queries (parse.value line)) line _
    (Server.closed_writesFor _ t.world.beginRequest requester (parse.value line))
    socket recipient frame ok hwrote
  obtain ⟨userId, rfl, hmeant⟩ := hrecipient hprivate
  obtain ⟨nickname, password, haccount, hpresented⟩ := h.presented userId socket haddressed
  refine ⟨userId, nickname, password, rfl, h.registered _ _ _ haccount, hpresented,
    fun htype => ?_⟩
  obtain ⟨receiver, hreceiver, hgetId⟩ := receiver_of_meantFor hmeant htype
  refine ⟨receiver, hreceiver, ?_⟩
  obtain ⟨-, password', haccount'⟩ :=
    (getUserId_backed_iff hdb (hdb.id_ne_zero haccount)).mp hgetId
  exact congrArg Prod.fst (Option.some.inj (haccount'.symm.trans haccount))

/-- The server behind the login. -/
def loggedInA : Deployment := registeredA.step parseRegistered authorizationEvent

theorem loggedIn_run :
    DeploymentRun parseRegistered .fresh
      [(registrationEvent, registeredA), (authorizationEvent, loggedInA)] loggedInA :=
  registered_run.snoc authorizationEvent
    ⟨fun _ h => by cases h; decide, fun _ h => by cases h; decide⟩

set_option maxRecDepth 2000 in
/-- A message for the user comes from socket 8. -/
theorem frames_to_registered_text :
    let history := [(registrationEvent, registeredA), (authorizationEvent, loggedInA)]
    ∃ userId nickname password, some 1 = some userId ∧
      RegisteredBy parseRegistered history userId nickname password ∧
      PresentedOn parseRegistered history 7 userId nickname password ∧
      ((Server.receivedText.lookup "type" = some (.string "receive_msg") ∨
          Server.receivedText.lookup "type" = some (.string "receive_aes_key")) →
        ∃ receiver, Json.readString (.object Server.textForA) "receiver_nickname" = .ok receiver ∧
          sqlParameter receiver = nickname) := by
  intro history
  have hparse : parseRegistered (Server.lineOf Server.textForA) = .ok (.object Server.textForA) :=
    rfl
  have hwrote : Observation.wrote 7 (some 1) Server.receivedText true ∈
      (loggedInA.step parseRegistered
        (.request 8 .working (answered 3) (Server.lineOf Server.textForA))).world.log :=
    List.mem_of_getElem? (i := 2) rfl
  have hsent := frames_to_registered loggedIn_run hwrote (Or.inl (by simp [Server.receivedText]))
  rwa [JsonParser.value_of_ok hparse] at hsent

end Silence.System
