import Silence.Server.UserMetadataRepository

/-!
# Silence.Server.Registration

Whether a registration is all or nothing.

`create` and `set_public_keys` are two transactions. `handle_register` only logs that the
second one fails and reports what the first one returned, so a user without keys is
reported as registered; and a commit that is carried out but not confirmed is reported
as a failure. `allOrNothing_iff` gives the exact condition.
-/

namespace Silence.Server

open Silence.Lib.Effect (exec exec_bind exec_attempt exec_modify bind_eq_ok)
open Json.Members (ofList)

/-! ### Transactions that fail -/

/-- What happens to the two transactions of a registration. One that is not carried out has a
`Draw` without an id. -/
structure Transactions where
  draws : Draws
  userCommit : CommitOutcome
  keysCommit : CommitOutcome

/-- The user of a registration: its id, and the database behind the first transaction. -/
def Database.registerUser (db : Database) (t : Transactions) (nickname password : String) :
    Int × Database :=
  t.userCommit.result 0 (db.create t.draws.user nickname password)

/-- The keys of a registration, behind the second transaction. -/
def Database.registerKeys (db : Database) (t : Transactions) (userId : Int)
    (elGamalPublicKey dsaPublicKey : String) : Bool × Database :=
  t.keysCommit.result false (db.setPublicKeys t.draws.keys userId elGamalPublicKey dsaPublicKey)

/-- The texts of a request to register. -/
structure RegisterFields where
  nickname : String
  password : String
  elGamalPublicKey : String
  dsaPublicKey : String

def readRegisterFields (request : Json) : Except Exn RegisterFields := do
  let nickname ← request.readString "nickname"
  let password ← request.readString "password"
  let elGamalPublicKey ← request.readString "el_gamal_public_key"
  let dsaPublicKey ← request.readString "dsa_public_key"
  return ⟨nickname, password, elGamalPublicKey, dsaPublicKey⟩

/-- The database behind both transactions of `handle_register`. -/
def Database.registered (db : Database) (t : Transactions) (fields : RegisterFields) : Database :=
  let (userId, db) := db.registerUser t fields.nickname fields.password
  (db.registerKeys t userId fields.elGamalPublicKey fields.dsaPublicKey).2

/-- The database after a request to register. A field that is missing throws before it is used. -/
def Database.afterRegister (db : Database) (t : Transactions) (request : Json) : Database :=
  match readRegisterFields request with
  | .ok fields => db.registered t fields
  | .error _ => db

/-- The environment in which `create_user` is answered by the database. What `set_public_keys`
returns is only logged. -/
def Environment.answering (env : Environment) (db : Database) (t : Transactions) : Environment :=
  { env with createUser := fun nickname password => (db.registerUser t nickname password).1 }

/-! ### All or nothing -/

/-- A reply with the status is sent. -/
def Reports (log : List Observation) (status : String) : Prop :=
  ∃ socket recipient frame ok, .wrote socket recipient frame ok ∈ log ∧
    frame.lookup "status" = some (.string status)

/-- One row is added to each of the tables: that of the user, and that of its keys. -/
structure RowsAdded (db db' : Database) (draws : Draws) (fields : RegisterFields)
    (id keysId : Int) (nickname password : String) : Prop where
  nicknameFits : varchar 50 (sqlParameter fields.nickname) = some nickname
  passwordFits : varchar 255 (sqlParameter fields.password) = some password
  users : db'.users = db.users ++ [userRow id nickname password draws.user]
  cryptoKeys : db'.cryptoKeys = db.cryptoKeys ++
    [cryptoKeysRow keysId id (sqlParameter fields.dsaPublicKey)
      (sqlParameter fields.elGamalPublicKey) draws.keys]

/-- Both rows of the new user are there. -/
def Registered (db db' : Database) (draws : Draws) (request : Json) : Prop :=
  ∃ fields, readRegisterFields request = .ok fields ∧
    ∃ id keysId nickname password, RowsAdded db db' draws fields id keysId nickname password

/-- Success is reported exactly if both rows of the new user are there; otherwise the database is
the one before, so that the nickname is as free as it was. -/
structure AllOrNothing (env : Environment) (socket : Socket) (db : Database) (t : Transactions)
    (request : Json) (w : World) : Prop where
  success : Reports (exec (handleRegister (env.answering db t) socket request) w.beginRequest).2.log
      "success" ↔
    Registered db (db.afterRegister t request) t.draws request
  failure :
    ¬ Reports (exec (handleRegister (env.answering db t) socket request) w.beginRequest).2.log
      "success" → db.afterRegister t request = db

/-- The first transaction can be carried out: the texts, as the statement gets them, fit into their
columns, and neither the id nor the nickname is taken. -/
structure Database.AdmitsUser (db : Database) (draw : Draw) (fields : RegisterFields) (id : Int)
    (nickname password : String) : Prop where
  drawn : draw.id = some id
  nicknameFits : varchar 50 (sqlParameter fields.nickname) = some nickname
  passwordFits : varchar 255 (sqlParameter fields.password) = some password
  newId : db.users.any (hasValue usersColumns "id" (.integer id)) = false
  newNickname : db.users.any (hasValue usersColumns "nickname" (.text nickname)) = false

/-- The second transaction can be carried out for a user that is there: neither the id of the row
nor the user has keys yet. -/
structure Database.AdmitsKeys (db : Database) (draw : Draw) (userId keysId : Int) : Prop where
  drawn : draw.id = some keysId
  newId : db.cryptoKeys.any (hasValue cryptoKeysColumns "id" (.integer keysId)) = false
  newUser : db.cryptoKeys.any (hasValue cryptoKeysColumns "user_id" (.integer userId)) = false

/-- The condition: if the row of the user goes in, this is confirmed, and the row of its keys goes
in as well. -/
def Repaired (db : Database) (t : Transactions) (request : Json) : Prop :=
  ∀ fields id nickname password, readRegisterFields request = .ok fields →
    db.AdmitsUser t.draws.user fields id nickname password →
      t.userCommit = .confirmed ∧ ∃ keysId, db.AdmitsKeys t.draws.keys id keysId

/-- The ids of users are drawn from a sequence that starts at 1. -/
structure SerialIds (db : Database) (draws : Draws) : Prop where
  stored : db.users.any (hasValue usersColumns "id" (.integer 0)) = false
  drawn : draws.user.id ≠ some 0

/-! ### The transactions -/

/-- Either the user is admitted and its row is added, or nothing happens. -/
theorem Database.create_admits (db : Database) (draw : Draw) (fields : RegisterFields) :
    (∃ id nickname password, db.AdmitsUser draw fields id nickname password ∧
      db.create draw fields.nickname fields.password =
        (id, { db with users := db.users ++ [userRow id nickname password draw] })) ∨
    ((∀ id nickname password, ¬ db.AdmitsUser draw fields id nickname password) ∧
      db.create draw fields.nickname fields.password = (0, db)) := by
  unfold Database.create
  cases hdrawn : draw.id with
  | none => exact .inr ⟨fun _ _ _ h => (nomatch hdrawn.symm.trans h.drawn), rfl⟩
  | some id =>
      cases hnickname : varchar 50 (sqlParameter fields.nickname) with
      | none => exact .inr ⟨fun _ _ _ h => (nomatch hnickname.symm.trans h.nicknameFits), rfl⟩
      | some nickname =>
          cases hpassword : varchar 255 (sqlParameter fields.password) with
          | none => exact .inr ⟨fun _ _ _ h => (nomatch hpassword.symm.trans h.passwordFits), rfl⟩
          | some password =>
              dsimp only
              split
              · rename_i htaken
                refine .inr ⟨fun id' nickname' password' h => ?_, rfl⟩
                obtain rfl := Option.some.inj (hdrawn.symm.trans h.drawn)
                obtain rfl := Option.some.inj (hnickname.symm.trans h.nicknameFits)
                rw [h.newId, h.newNickname] at htaken
                cases htaken
              · rename_i hfree
                rw [Bool.or_eq_true, not_or, Bool.not_eq_true, Bool.not_eq_true] at hfree
                exact .inl ⟨id, nickname, password,
                  ⟨hdrawn, hnickname, hpassword, hfree.1, hfree.2⟩, rfl⟩

/-- A row of another user is not needed for the keys of one that is there. -/
theorem Database.setPublicKeys_admits {db : Database} {userId : Int}
    (huser : db.users.any (hasValue usersColumns "id" (.integer userId)) = true) (draw : Draw)
    (elGamalPublicKey dsaPublicKey : String) :
    (∃ keysId, db.AdmitsKeys draw userId keysId ∧
      (db.setPublicKeys draw userId elGamalPublicKey dsaPublicKey).2 =
        { db with cryptoKeys := db.cryptoKeys ++
          [cryptoKeysRow keysId userId (sqlParameter dsaPublicKey) (sqlParameter elGamalPublicKey)
            draw] }) ∨
    ((∀ keysId, ¬ db.AdmitsKeys draw userId keysId) ∧
      (db.setPublicKeys draw userId elGamalPublicKey dsaPublicKey).2 = db) := by
  unfold Database.setPublicKeys
  cases hdrawn : draw.id with
  | none => exact .inr ⟨fun _ h => (nomatch hdrawn.symm.trans h.drawn), rfl⟩
  | some keysId =>
      dsimp only
      rw [huser, Bool.not_true, Bool.false_or]
      split
      · rename_i htaken
        refine .inr ⟨fun keysId' h => ?_, rfl⟩
        obtain rfl := Option.some.inj (hdrawn.symm.trans h.drawn)
        rw [h.newId, h.newUser] at htaken
        cases htaken
      · rename_i hfree
        rw [Bool.or_eq_true, not_or, Bool.not_eq_true, Bool.not_eq_true] at hfree
        exact .inl ⟨keysId, ⟨hdrawn, hfree.1, hfree.2⟩, rfl⟩

/-- Nobody has the id 0, so it gets no keys. -/
theorem Database.setPublicKeys_zero {db : Database}
    (hzero : db.users.any (hasValue usersColumns "id" (.integer 0)) = false) (draw : Draw)
    (elGamalPublicKey dsaPublicKey : String) :
    (db.setPublicKeys draw 0 elGamalPublicKey dsaPublicKey).2 = db := by
  unfold Database.setPublicKeys
  cases draw.id with
  | none => rfl
  | some id =>
      dsimp only
      rw [hzero]
      rfl

/-! ### The handler -/

/-- What `handle_register` does with the fields of its request: the status of its reply depends on
the id of the user alone. -/
theorem handleRegister_of_fields {env : Environment} {socket : Socket} {request : Json} {w : World}
    {fields : RegisterFields} (h : readRegisterFields request = .ok fields) :
    ∃ response, response.lookup "status" =
        some (.string (if env.createUser fields.nickname fields.password ≠ 0 then "success"
          else "error")) ∧
      (exec (handleRegister env socket request) w).2.log = w.log ++
        [.createdUser (env.createUser fields.nickname fields.password) fields.nickname
            fields.password,
          .setPublicKeys (env.createUser fields.nickname fields.password) fields.elGamalPublicKey
            fields.dsaPublicKey (env.setPublicKeys (env.createUser fields.nickname fields.password)
              fields.elGamalPublicKey fields.dsaPublicKey),
          .wrote socket none response (env.writeOk w.writes)] := by
  obtain ⟨nickname, hnickname, h⟩ := bind_eq_ok.mp h
  obtain ⟨password, hpassword, h⟩ := bind_eq_ok.mp h
  obtain ⟨elGamalPublicKey, helGamal, h⟩ := bind_eq_ok.mp h
  obtain ⟨dsaPublicKey, hdsa, h⟩ := bind_eq_ok.mp h
  cases h
  have hassoc : ∀ a b c : Observation, w.log ++ [a] ++ [b] ++ [c] = w.log ++ [a, b, c] := by simp
  simp only [handleRegister, observe, exec_bind, exec_attempt, exec_modify, hnickname, hpassword,
    helGamal, hdsa]
  split
  · rw [exec_write]
    exact ⟨_, by simp, hassoc _ _ _⟩
  · rw [exec_write]
    exact ⟨_, by simp, hassoc _ _ _⟩

/-- A request without all the fields does nothing. -/
theorem handleRegister_of_missing {env : Environment} {socket : Socket} {request : Json}
    {w : World} {e : Exn} (h : readRegisterFields request = .error e) :
    (exec (handleRegister env socket request) w).2 = w := by
  unfold readRegisterFields at h
  unfold handleRegister
  cases hnickname : request.readString "nickname" with
  | error e => simp [exec_bind, exec_attempt]
  | ok nickname =>
      cases hpassword : request.readString "password" with
      | error e => simp [exec_bind, exec_attempt]
      | ok password =>
          cases helGamal : request.readString "el_gamal_public_key" with
          | error e => simp [exec_bind, exec_attempt]
          | ok elGamalPublicKey =>
              cases hdsa : request.readString "dsa_public_key" with
              | error e => simp [exec_bind, exec_attempt]
              | ok dsaPublicKey =>
                  rw [hnickname, hpassword, helGamal, hdsa] at h
                  cases h

/-- Success is reported exactly if the request has its fields and the user gets an id. -/
theorem reports_success_iff (env : Environment) (socket : Socket) (request : Json) (w : World) :
    Reports (exec (handleRegister env socket request) w.beginRequest).2.log "success" ↔
      ∃ fields, readRegisterFields request = .ok fields ∧
        env.createUser fields.nickname fields.password ≠ 0 := by
  cases hfields : readRegisterFields request with
  | error e =>
      rw [handleRegister_of_missing hfields]
      refine iff_of_false ?_ fun h => nomatch h.choose_spec.1
      intro h
      obtain ⟨_, _, _, _, hmem, -⟩ := h
      cases hmem
  | ok fields =>
      obtain ⟨response, hstatus, hlog⟩ :=
        @handleRegister_of_fields env socket request w.beginRequest fields hfields
      unfold Reports
      rw [hlog]
      by_cases hid : env.createUser fields.nickname fields.password = 0
      · rw [if_neg (not_not_intro hid)] at hstatus
        simp [World.beginRequest, hid, hstatus]
      · rw [if_pos hid] at hstatus
        simp [World.beginRequest, hid, hstatus]

/-! ### The condition -/

section

variable {db : Database} {t : Transactions} {fields : RegisterFields}

/-- A registration whose user is not admitted changes nothing. -/
theorem registered_of_refused (hserial : SerialIds db t.draws)
    (hrefused : db.create t.draws.user fields.nickname fields.password = (0, db)) :
    db.registerUser t fields.nickname fields.password = (0, db) ∧ db.registered t fields = db := by
  have huser : db.registerUser t fields.nickname fields.password = (0, db) := by
    unfold Database.registerUser
    rw [hrefused]
    cases t.userCommit <;> rfl
  refine ⟨huser, ?_⟩
  unfold Database.registered
  rw [huser]
  dsimp only
  unfold Database.registerKeys
  rw [CommitOutcome.result_snd, db.setPublicKeys_zero hserial.stored]

/-- Otherwise its row is added, whatever is reported. -/
theorem users_registered {id : Int} {nickname password : String}
    (hcreate : db.create t.draws.user fields.nickname fields.password =
      (id, { db with users := db.users ++ [userRow id nickname password t.draws.user] })) :
    (db.registered t fields).users =
      db.users ++ [userRow id nickname password t.draws.user] := by
  have huser : (db.registerUser t fields.nickname fields.password).2 =
      { db with users := db.users ++ [userRow id nickname password t.draws.user] } := by
    rw [Database.registerUser, CommitOutcome.result_snd, hcreate]
  unfold Database.registered
  rcases hresult : db.registerUser t fields.nickname fields.password with ⟨userId, db'⟩
  rw [hresult] at huser
  dsimp only at huser ⊢
  unfold Database.registerKeys
  rw [CommitOutcome.result_snd, huser]
  rcases Database.setPublicKeys_cases { db with users := db.users ++
    [userRow id nickname password t.draws.user] } t.draws.keys userId fields.elGamalPublicKey
      fields.dsaPublicKey with hsame | ⟨keysId, -, hadded⟩
  · rw [hsame]
  · rw [hadded]

/-- The keys of a user whose row goes in and is confirmed are added exactly if they are
admitted. -/
theorem cryptoKeys_registered {id : Int} {nickname password : String}
    (hcreate : db.create t.draws.user fields.nickname fields.password =
      (id, { db with users := db.users ++ [userRow id nickname password t.draws.user] }))
    (hconfirmed : t.userCommit = .confirmed) :
    (∃ keysId, db.AdmitsKeys t.draws.keys id keysId ∧
      (db.registered t fields).cryptoKeys = db.cryptoKeys ++
        [cryptoKeysRow keysId id (sqlParameter fields.dsaPublicKey)
          (sqlParameter fields.elGamalPublicKey) t.draws.keys]) ∨
    ((∀ keysId, ¬ db.AdmitsKeys t.draws.keys id keysId) ∧
      (db.registered t fields).cryptoKeys = db.cryptoKeys) := by
  have huser : db.registerUser t fields.nickname fields.password =
      (id, { db with users := db.users ++ [userRow id nickname password t.draws.user] }) := by
    rw [Database.registerUser, hconfirmed]
    exact hcreate
  have hthere : { db with
      users := db.users ++ [userRow id nickname password t.draws.user] }.users.any
      (hasValue usersColumns "id" (.integer id)) = true := by
    rw [List.any_append]
    simp [hasValue, Row.column, userRow, usersColumns]
  unfold Database.registered
  rw [huser]
  dsimp only
  unfold Database.registerKeys
  rw [CommitOutcome.result_snd]
  rcases Database.setPublicKeys_admits hthere t.draws.keys fields.elGamalPublicKey
      fields.dsaPublicKey with ⟨keysId, hadmits, hadded⟩ | ⟨hrefused, hsame⟩
  · refine .inl ⟨keysId, ⟨hadmits.drawn, hadmits.newId, hadmits.newUser⟩, ?_⟩
    rw [hadded]
  · refine .inr ⟨fun keysId h => hrefused keysId ⟨h.drawn, h.newId, h.newUser⟩, ?_⟩
    rw [hsame]

/-- All or nothing, told by the tables and by what the first transaction returns. -/
structure Database.WhollyRegistered (db : Database) (t : Transactions) (fields : RegisterFields) :
    Prop where
  success : (db.registerUser t fields.nickname fields.password).1 ≠ 0 ↔
    ∃ id keysId nickname password,
      RowsAdded db (db.registered t fields) t.draws fields id keysId nickname password
  failure : (db.registerUser t fields.nickname fields.password).1 = 0 → db.registered t fields = db

theorem whollyRegistered_of_refused (hserial : SerialIds db t.draws)
    (hrefused : db.create t.draws.user fields.nickname fields.password = (0, db)) :
    db.WhollyRegistered t fields := by
  obtain ⟨huser, hsame⟩ := registered_of_refused hserial hrefused
  refine ⟨?_, fun _ => hsame⟩
  rw [huser, hsame]
  refine iff_of_false (not_not_intro rfl) ?_
  intro h
  obtain ⟨_, _, _, _, hrows⟩ := h
  exact absurd hrows.users (by simp)

/-- A user that is registered wholly has an id that is confirmed, and its keys are admitted. -/
theorem confirmed_of_whollyRegistered {id : Int} {nickname password : String}
    (hcreate : db.create t.draws.user fields.nickname fields.password =
      (id, { db with users := db.users ++ [userRow id nickname password t.draws.user] }))
    (hwhole : db.WhollyRegistered t fields) :
    t.userCommit = .confirmed ∧ ∃ keysId, db.AdmitsKeys t.draws.keys id keysId := by
  -- the row of the user goes in, so that no success would leave a change behind
  have hreturned : (db.registerUser t fields.nickname fields.password).1 ≠ 0 := by
    intro hzero
    have husers := users_registered (t := t) hcreate
    rw [hwhole.failure hzero] at husers
    exact absurd husers (by simp)
  have hconfirmed : t.userCommit = .confirmed := by
    cases hcommit : t.userCommit with
    | confirmed => rfl
    | inDoubt =>
        refine absurd ?_ hreturned
        rw [Database.registerUser, hcommit]
        rfl
  refine ⟨hconfirmed, ?_⟩
  rcases cryptoKeys_registered hcreate hconfirmed with ⟨keysId, hkeys, -⟩ | ⟨-, hsame⟩
  · exact ⟨keysId, hkeys⟩
  · obtain ⟨_, _, _, _, hrows⟩ := hwhole.success.mp hreturned
    have hadded := hrows.cryptoKeys
    rw [hsame] at hadded
    exact absurd hadded (by simp)

theorem whollyRegistered_of_confirmed {id : Int} {nickname password : String}
    (hadmits : db.AdmitsUser t.draws.user fields id nickname password) (hid : id ≠ 0)
    (hcreate : db.create t.draws.user fields.nickname fields.password =
      (id, { db with users := db.users ++ [userRow id nickname password t.draws.user] }))
    (hconfirmed : t.userCommit = .confirmed) {keysId : Int}
    (hkeys : db.AdmitsKeys t.draws.keys id keysId) : db.WhollyRegistered t fields := by
  have hreturned : (db.registerUser t fields.nickname fields.password).1 ≠ 0 := by
    rw [Database.registerUser, hconfirmed]
    show (db.create t.draws.user fields.nickname fields.password).1 ≠ 0
    rw [hcreate]
    exact hid
  refine ⟨iff_of_true hreturned ?_, fun hzero => absurd hzero hreturned⟩
  rcases cryptoKeys_registered hcreate hconfirmed with ⟨keysId', -, hadded⟩ | ⟨hrefused, -⟩
  · exact ⟨id, keysId', nickname, password, hadmits.nicknameFits, hadmits.passwordFits,
      users_registered hcreate, hadded⟩
  · exact absurd hkeys (hrefused keysId)

end

/-- A request with its fields is handled wholly exactly if its rows are. -/
theorem allOrNothing_iff_rows (env : Environment) (socket : Socket) {db : Database}
    {t : Transactions} {request : Json} {fields : RegisterFields}
    (hfields : readRegisterFields request = .ok fields) (w : World) :
    AllOrNothing env socket db t request w ↔ db.WhollyRegistered t fields := by
  have hafter : db.afterRegister t request = db.registered t fields := by
    rw [Database.afterRegister, hfields]
  have hreports : Reports (exec (handleRegister (env.answering db t) socket request)
      w.beginRequest).2.log "success" ↔
        (db.registerUser t fields.nickname fields.password).1 ≠ 0 := by
    rw [reports_success_iff, hfields]
    simp [Environment.answering]
  have hregistered : Registered db (db.registered t fields) t.draws request ↔
      ∃ id keysId nickname password,
        RowsAdded db (db.registered t fields) t.draws fields id keysId nickname password := by
    unfold Registered
    rw [hfields]
    simp
  constructor
  · intro hall
    have hsuccess := hall.success
    have hfailure := hall.failure
    rw [hreports, hafter, hregistered] at hsuccess
    rw [hreports, hafter, not_not] at hfailure
    exact ⟨hsuccess, hfailure⟩
  · intro hwhole
    refine ⟨?_, ?_⟩
    · rw [hreports, hafter, hregistered]
      exact hwhole.success
    · rw [hreports, hafter, not_not]
      exact hwhole.failure

/-- A request without all its fields is no registration. -/
theorem allOrNothing_of_missing (env : Environment) (socket : Socket) {db : Database}
    {t : Transactions} {request : Json} {e : Exn} (hfields : readRegisterFields request = .error e)
    (w : World) : AllOrNothing env socket db t request w := by
  have hsame : db.afterRegister t request = db := by rw [Database.afterRegister, hfields]
  refine ⟨?_, fun _ => hsame⟩
  rw [reports_success_iff, hfields]
  refine iff_of_false (fun h => nomatch h.choose_spec.1) ?_
  intro h
  obtain ⟨fields, hread, -⟩ := h
  rw [hfields] at hread
  cases hread

/-- A registration is all or nothing if and only if the condition holds. -/
theorem allOrNothing_iff (env : Environment) (socket : Socket) {db : Database} {t : Transactions}
    (hserial : SerialIds db t.draws) (request : Json) (w : World) :
    AllOrNothing env socket db t request w ↔ Repaired db t request := by
  cases hfields : readRegisterFields request with
  | error e =>
      refine iff_of_true (allOrNothing_of_missing env socket hfields w) ?_
      intro fields _ _ _ hread
      rw [hfields] at hread
      cases hread
  | ok fields =>
      rw [allOrNothing_iff_rows env socket hfields]
      rcases db.create_admits t.draws.user fields with
        ⟨id, nickname, password, hadmits, hcreate⟩ | ⟨hrefused, hcreate⟩
      · have hid : id ≠ 0 := fun hzero => hserial.drawn (hzero ▸ hadmits.drawn)
        constructor
        · intro hwhole fields' id' nickname' password' hread h
          obtain rfl := Except.ok.inj (hfields.symm.trans hread)
          obtain rfl : id = id' := Option.some.inj (hadmits.drawn.symm.trans h.drawn)
          exact confirmed_of_whollyRegistered hcreate hwhole
        · intro hrepaired
          obtain ⟨hconfirmed, keysId, hkeys⟩ :=
            hrepaired fields id nickname password hfields hadmits
          exact whollyRegistered_of_confirmed hadmits hid hcreate hconfirmed hkeys
      · refine iff_of_true (whollyRegistered_of_refused hserial hcreate) ?_
        intro fields' id nickname password hread h
        obtain rfl := Except.ok.inj (hfields.symm.trans hread)
        exact absurd h (hrefused id nickname password)

/-! ### A user without keys -/

def registerRequest : Json :=
  .object [("dsa_public_key", .string "d"), ("el_gamal_public_key", .string "e"),
    ("nickname", .string "a"), ("password", .string "p"), ("type", .string "register")]

/-- The first transaction draws the id 1, the second one the given id. -/
def drawing (keysId : Option Int) : Transactions where
  draws := ⟨⟨some 1, "now", "now"⟩, ⟨keysId, "now", "now"⟩⟩
  userCommit := .confirmed
  keysCommit := .confirmed

/-- The keys cannot be stored: success is reported all the same, and the user stays without
keys. -/
theorem register_withoutKeys :
    Reports (exec (handleRegister (Environment.working.answering .empty (drawing none)) 0
        registerRequest) (World.start .fresh).beginRequest).2.log "success" ∧
      (Database.empty.afterRegister (drawing none) registerRequest).users =
        [userRow 1 "a" "p" ⟨some 1, "now", "now"⟩] ∧
      (Database.empty.afterRegister (drawing none) registerRequest).cryptoKeys = [] ∧
      ¬ AllOrNothing .working 0 .empty (drawing none) registerRequest (.start .fresh) := by
  have hreported : Reports (exec (handleRegister
      (Environment.working.answering .empty (drawing none)) 0 registerRequest)
      (World.start .fresh).beginRequest).2.log "success" :=
    (reports_success_iff _ _ _ _).mpr ⟨⟨"a", "p", "e", "d"⟩, rfl, by decide⟩
  refine ⟨hreported, rfl, rfl, fun hall => ?_⟩
  obtain ⟨fields, -, id, keysId, nickname, password, hrows⟩ := hall.success.mp hreported
  exact absurd hrows.cryptoKeys (by simp [Database.empty, show (Database.afterRegister ⟨[], []⟩
    (drawing none) registerRequest).cryptoKeys = [] from rfl])

/-- With an id for the keys the registration is all or nothing. -/
theorem allOrNothing_drawing :
    AllOrNothing .working 0 .empty (drawing (some 1)) registerRequest (.start .fresh) := by
  refine (allOrNothing_iff .working 0 ⟨rfl, by decide⟩ registerRequest (.start .fresh)).mpr ?_
  exact fun _ _ _ _ _ _ => ⟨rfl, 1, rfl, rfl, rfl⟩

end Silence.Server
