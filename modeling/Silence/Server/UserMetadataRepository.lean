import Silence.Server.RequestHandler

/-!
# Silence.Server.UserMetadataRepository

The tables `users` and `crypto_keys` (`database/user_metadata.sql`) and the part of
`server/src/user_metadata_repository.cpp` that registration and `get_user_keys` use.

Rows are written by the names of the columns and read back by their positions, and a
text is passed to a statement as a C string. A row that is there stays there: registering
only adds rows, and it fails where a constraint of the tables forbids the row
(`Holds.register`).
-/

namespace Silence.Server

open Silence.Lib.Effect (exec bind_eq_ok exec_bind exec_attempt exec_modify)

/-! ### Rows -/

/-- A value in a row. -/
inductive Value where
  | null
  | integer (value : Int)
  | boolean (value : Bool)
  | text (value : String)
  deriving DecidableEq, Repr

/-- The values of the columns, in the order of the table. -/
abbrev Row := List Value

def usersColumns : List String :=
  ["id", "nickname", "password", "registered_timestamp", "last_online_timestamp", "is_online"]

def cryptoKeysColumns : List String :=
  ["id", "user_id", "dsa_public_key", "el_gamal_public_key", "created_timestamp"]

/-- The row that `INSERT INTO` makes of named values. -/
def rowOf (columns : List String) (values : List (String × Value)) : Row :=
  columns.map fun column => (values.lookup column).getD .null

/-- The value of a row in a column. -/
def Row.column (row : Row) (columns : List String) (column : String) : Value :=
  row.getD (columns.idxOf column) .null

/-- `r[0][i].as<int>()`. -/
def Row.asInt (row : Row) (i : Nat) : Option Int :=
  match row[i]? with
  | some (.integer value) => some value
  | _ => none

/-- `r[0][i].as<std::string>()`. -/
def Row.asString (row : Row) (i : Nat) : Option String :=
  match row[i]? with
  | some (.text value) => some value
  | some (.boolean value) => some (if value then "t" else "f")
  | some (.integer value) => some (toString value)
  | _ => none

/-! ### Parameters -/

/-- The text that a statement gets of a parameter: what is in front of the first character 0. -/
def sqlParameter (text : String) : String :=
  String.ofList (text.toList.takeWhile (· ≠ Char.ofNat 0))

theorem zero_notMem_sqlParameter (text : String) :
    Char.ofNat 0 ∉ (sqlParameter text).toList := by
  rw [sqlParameter, String.toList_ofList]
  intro hzero
  exact absurd (List.mem_takeWhile_imp hzero) (by simp)

theorem sqlParameter_of_notMem {text : String} (h : Char.ofNat 0 ∉ text.toList) :
    sqlParameter text = text := by
  have hall : ∀ c ∈ text.toList, decide (c ≠ Char.ofNat 0) = true :=
    fun c hc => decide_eq_true fun hzero => h (hzero ▸ hc)
  rw [sqlParameter, List.takeWhile_eq_self_iff.mpr hall, String.ofList_toList]

theorem length_sqlParameter_le (text : String) : (sqlParameter text).length ≤ text.length := by
  rw [sqlParameter, String.length_ofList, ← String.length_toList]
  exact (List.takeWhile_prefix _).length_le

/-- It has the bytes that a function of C takes of the text. -/
theorem bytesOf_sqlParameter (text : String) :
    bytesOf (sqlParameter text) = cString (bytesOf text) := by
  have hzero : 0 ∉ bytesOf (sqlParameter text) :=
    mt zero_mem_bytesOf.mp (zero_notMem_sqlParameter text)
  have hsplit : bytesOf text = bytesOf (sqlParameter text) ++
      bytesOf (String.ofList (text.toList.dropWhile (· ≠ Char.ofNat 0))) := by
    rw [← bytesOf_append, sqlParameter, ← String.ofList_append, List.takeWhile_append_dropWhile,
      String.ofList_toList]
  have hrest : cString
      (bytesOf (String.ofList (text.toList.dropWhile (· ≠ Char.ofNat 0)))) = [] := by
    rw [bytesOf_ofList_eq]
    cases hdrop : text.toList.dropWhile (· ≠ Char.ofNat 0) with
    | nil => rfl
    | cons c cs =>
        have hc : c = Char.ofNat 0 := by
          have hhead := List.head?_dropWhile_not (· ≠ Char.ofNat 0) text.toList
          rw [hdrop] at hhead
          simpa using hhead
        rw [hc]
        rfl
  rw [hsplit, cString_append hzero, hrest, List.append_nil]

example : sqlParameter "a\x00b" = "a" := by decide

/-- The text of a number is passed on as it is. -/
theorem sqlParameter_of_hexText {num : Int} {text : String} (h : hexText num = .ok text) :
    sqlParameter text = text := by
  refine sqlParameter_of_notMem ?_
  rw [← zero_mem_bytesOf, (hexText_spec h).2]
  exact fun hzero => absurd (Crypto.isHexDigit_of_mem_toHex hzero) (by decide)

/-! ### The database -/

structure Database where
  users : List Row
  cryptoKeys : List Row

def Database.empty : Database := ⟨[], []⟩

/-- What one transaction draws: the id of its row, none if it does not get that far, and
the texts of the times. -/
structure Draw where
  id : Option Int
  timestamp : String
  lastOnlineTimestamp : String

/-- A text in a column `VARCHAR(n)`: spaces in excess are cut off, anything else in excess is an
error. -/
def varchar (n : Nat) (text : String) : Option String :=
  if text.length ≤ n then some text
  else if (text.toList.drop n).all (· = ' ') then some (String.ofList (text.toList.take n))
  else none

/-- How a transaction ends that reaches its commit and is carried out: the commit is confirmed, or
the connection is lost before that and `commit` throws. -/
inductive CommitOutcome where
  | confirmed
  | inDoubt
  deriving DecidableEq, Repr

/-- What a transaction returns; where `commit` throws, `failed`. -/
def CommitOutcome.result {α σ : Type} (commit : CommitOutcome) (failed : α) (run : α × σ) :
    α × σ :=
  match commit with
  | .confirmed => run
  | .inDoubt => (failed, run.2)

@[simp] theorem CommitOutcome.result_snd {α σ : Type} (commit : CommitOutcome) (failed : α)
    (run : α × σ) : (commit.result failed run).2 = run.2 := by
  cases commit <;> rfl

/-- Equal results stay equal. -/
theorem CommitOutcome.result_fst {α σ τ : Type} {commit : CommitOutcome} {failed : α}
    {run : α × σ} {run' : α × τ} (h : run.1 = run'.1) :
    (commit.result failed run).1 = (commit.result failed run').1 := by
  cases commit with
  | confirmed => exact h
  | inDoubt => rfl

/-- The row has a value in a column. -/
def hasValue (columns : List String) (column : String) (value : Value) (row : Row) : Bool :=
  Row.column row columns column = value

/-- `UserMetadataRepository::create`. The id and the nickname of a row are unique. -/
def Database.create (db : Database) (draw : Draw) (nickname password : String) :
    Int × Database :=
  match draw.id, varchar 50 (sqlParameter nickname), varchar 255 (sqlParameter password) with
  | some id, some nickname, some password =>
      if db.users.any (hasValue usersColumns "id" (.integer id)) ||
          db.users.any (hasValue usersColumns "nickname" (.text nickname)) then (0, db)
      else
        (id, { db with
          users := db.users ++ [rowOf usersColumns [("nickname", .text nickname),
            ("password", .text password), ("registered_timestamp", .text draw.timestamp),
            ("last_online_timestamp", .text draw.lastOnlineTimestamp),
            ("is_online", .boolean true), ("id", .integer id)]] })
  | _, _, _ => (0, db)

/-- `set_public_keys`. The user must exist and have no keys yet. -/
def Database.setPublicKeys (db : Database) (draw : Draw) (userId : Int)
    (elGamalPublicKey dsaPublicKey : String) : Bool × Database :=
  match draw.id with
  | none => (false, db)
  | some id =>
      if !db.users.any (hasValue usersColumns "id" (.integer userId)) ||
          db.cryptoKeys.any (hasValue cryptoKeysColumns "id" (.integer id)) ||
          db.cryptoKeys.any (hasValue cryptoKeysColumns "user_id" (.integer userId)) then
        (false, db)
      else
        (id ≠ 0, { db with
          cryptoKeys := db.cryptoKeys ++ [rowOf cryptoKeysColumns [("user_id", .integer userId),
            ("el_gamal_public_key", .text (sqlParameter elGamalPublicKey)),
            ("dsa_public_key", .text (sqlParameter dsaPublicKey)),
            ("created_timestamp", .text draw.timestamp), ("id", .integer id)]] })

/-- `pqxx_users_result_to_json`; none where a value is missing. -/
def pqxxUsersResultToJson (row : Row) : Option Json.Members := do
  return Json.Members.ofList [("id", .number (← row.asInt 0)),
    ("nickname", .string (← row.asString 1)), ("password", .string (← row.asString 2)),
    ("registered_timestamp", .string (← row.asString 3)),
    ("last_online_timestamp", .string (← row.asString 4)),
    ("online", .boolean ((← row.asString 5) = "t"))]

/-- `get_id`. The object is only logged. -/
def Database.getId (db : Database) (nickname : String) : Int :=
  match db.users.find? (hasValue usersColumns "nickname" (.text (sqlParameter nickname))) with
  | none => 0
  | some row =>
      match pqxxUsersResultToJson row with
      | none => 0
      | some _ => (Row.asInt row 0).getD 0

def pqxxCryptoKeysResultToJson (row : Row) : Option Json.Members := do
  return Json.Members.ofList [("id", .number (← row.asInt 0)),
    ("user_id", .number (← row.asInt 1)), ("dsa_public_key", .string (← row.asString 2)),
    ("el_gamal_public_key", .string (← row.asString 3)),
    ("created_timestamp", .string (← row.asString 4))]

def constructUserCryptoKeys (json : Json) : Except Exn UserCryptoKeys := do
  let dsaPublicKey ← json.readString "dsa_public_key"
  let elGamalPublicKey ← json.readString "el_gamal_public_key"
  return ⟨← hexNumber dsaPublicKey, ← hexNumber elGamalPublicKey⟩

def Database.getPublicKeys (db : Database) (userId : Int) : Option UserCryptoKeys :=
  match db.cryptoKeys.find? (hasValue cryptoKeysColumns "user_id" (.integer userId)) with
  | none => none
  | some row =>
      match pqxxCryptoKeysResultToJson row with
      | none => none
      | some json => (constructUserCryptoKeys (.object json)).toOption

/-! ### Registration -/

/-- What the two transactions of a registration draw. -/
structure Draws where
  user : Draw
  keys : Draw

/-- What `handle_register` does to the database: the id of the user, whether the keys are set,
and the database after it. -/
def Database.handleRegister (db : Database) (draws : Draws) (request : Json) :
    Except Exn (Int × Bool × Database) := do
  let nickname ← request.readString "nickname"
  let password ← request.readString "password"
  let elGamalPublicKey ← request.readString "el_gamal_public_key"
  let dsaPublicKey ← request.readString "dsa_public_key"
  let (userId, db) := db.create draws.user nickname password
  let (ok, db) := db.setPublicKeys draws.keys userId elGamalPublicKey dsaPublicKey
  return (userId, ok, db)

/-- The database after a request to register. -/
def Database.register (db : Database) (registration : Draws × Json) : Database :=
  match db.handleRegister registration.1 registration.2 with
  | .ok (_, _, db) => db
  | .error _ => db

/-! ### What the tables hold -/

/-- The queries for a user find the rows with its keys. -/
structure Database.Holds (db : Database) (userId : Int) (nickname dsaPublicKey elGamalPublicKey :
    String) : Prop where
  user : ∃ row,
    db.users.find? (hasValue usersColumns "nickname" (.text (sqlParameter nickname))) = some row ∧
      (pqxxUsersResultToJson row).isSome ∧ Row.asInt row 0 = some userId
  keys : ∃ row json,
    db.cryptoKeys.find? (hasValue cryptoKeysColumns "user_id" (.integer userId)) = some row ∧
      pqxxCryptoKeysResultToJson row = some json ∧
      json.lookup "dsa_public_key" = some (.string (sqlParameter dsaPublicKey)) ∧
      json.lookup "el_gamal_public_key" = some (.string (sqlParameter elGamalPublicKey))

/-- The database has the rows of another one, and perhaps more behind them. -/
structure Database.Extends (db db' : Database) : Prop where
  users : db.users <+: db'.users
  cryptoKeys : db.cryptoKeys <+: db'.cryptoKeys

theorem Database.Extends.refl (db : Database) : db.Extends db :=
  ⟨List.prefix_refl _, List.prefix_refl _⟩

theorem Database.Extends.trans {db db' db'' : Database} (h : db.Extends db')
    (h' : db'.Extends db'') : db.Extends db'' :=
  ⟨h.users.trans h'.users, h.cryptoKeys.trans h'.cryptoKeys⟩

/-- The first row of a kind stays the first. -/
theorem find?_of_prefix {rows rows' : List Row} {p : Row → Bool} {row : Row} (h : rows <+: rows')
    (hfind : rows.find? p = some row) : rows'.find? p = some row := by
  obtain ⟨more, rfl⟩ := h
  rw [List.find?_append, hfind, Option.some_or]

theorem Database.Holds.mono {db db' : Database} {userId : Int}
    {nickname dsaPublicKey elGamalPublicKey : String}
    (h : db.Holds userId nickname dsaPublicKey elGamalPublicKey) (hextends : db.Extends db') :
    db'.Holds userId nickname dsaPublicKey elGamalPublicKey where
  user := by
    obtain ⟨row, hfind, hrow⟩ := h.user
    exact ⟨row, find?_of_prefix hextends.users hfind, hrow⟩
  keys := by
    obtain ⟨row, json, hfind, hrow⟩ := h.keys
    exact ⟨row, json, find?_of_prefix hextends.cryptoKeys hfind, hrow⟩

/-- The row of a user. -/
def userRow (id : Int) (nickname password : String) (draw : Draw) : Row :=
  [.integer id, .text nickname, .text password, .text draw.timestamp,
    .text draw.lastOnlineTimestamp, .boolean true]

/-- The row of a user's keys. -/
def cryptoKeysRow (id userId : Int) (dsaPublicKey elGamalPublicKey : String) (draw : Draw) : Row :=
  [.integer id, .integer userId, .text dsaPublicKey, .text elGamalPublicKey, .text draw.timestamp]

/-- Creating a user changes nothing, or adds a row with a new nickname. -/
theorem Database.create_cases (db : Database) (draw : Draw) (nickname password : String) :
    db.create draw nickname password = (0, db) ∨
      ∃ id stored storedPassword, varchar 50 (sqlParameter nickname) = some stored ∧
        db.users.any (hasValue usersColumns "nickname" (.text stored)) = false ∧
        db.create draw nickname password =
          (id, { db with users := db.users ++ [userRow id stored storedPassword draw] }) := by
  rw [Database.create]
  cases draw.id with
  | none => exact .inl rfl
  | some id =>
      cases varchar 50 (sqlParameter nickname) with
      | none => exact .inl rfl
      | some stored =>
          cases varchar 255 (sqlParameter password) with
          | none => exact .inl rfl
          | some storedPassword =>
              dsimp only
              split
              · exact .inl rfl
              · rename_i hfree
                rw [Bool.or_eq_true, not_or, Bool.not_eq_true, Bool.not_eq_true] at hfree
                exact .inr ⟨id, stored, storedPassword, rfl, hfree.2, rfl⟩

/-- Setting the keys of a user changes nothing, or adds its first row. -/
theorem Database.setPublicKeys_cases (db : Database) (draw : Draw) (userId : Int)
    (elGamalPublicKey dsaPublicKey : String) :
    db.setPublicKeys draw userId elGamalPublicKey dsaPublicKey = (false, db) ∨
      ∃ id : Int,
        db.cryptoKeys.any (hasValue cryptoKeysColumns "user_id" (.integer userId)) = false ∧
        db.setPublicKeys draw userId elGamalPublicKey dsaPublicKey =
          (decide (id ≠ 0), { db with cryptoKeys := db.cryptoKeys ++
            [cryptoKeysRow id userId (sqlParameter dsaPublicKey) (sqlParameter elGamalPublicKey)
              draw] }) := by
  rw [Database.setPublicKeys]
  cases draw.id with
  | none => exact .inl rfl
  | some id =>
      dsimp only
      split
      · exact .inl rfl
      · rename_i hfree
        rw [Bool.or_eq_true, not_or, Bool.not_eq_true, Bool.not_eq_true] at hfree
        exact .inr ⟨id, hfree.2, rfl⟩

/-- A row of a new kind is the first of its kind. -/
theorem find?_append_new {rows : List Row} {p : Row → Bool} {row : Row} (hnew : rows.any p = false)
    (hrow : p row = true) : (rows ++ [row]).find? p = some row := by
  have hnone : rows.find? p = none := List.find?_eq_none.mpr fun r hr =>
    List.any_eq_false.mp hnew r hr
  rw [List.find?_append, hnone, Option.none_or, List.find?_cons_of_pos hrow]

theorem Database.extends_create (db : Database) (draw : Draw) (nickname password : String) :
    db.Extends (db.create draw nickname password).2 := by
  rcases db.create_cases draw nickname password with h | ⟨id, stored, storedPassword, -, -, h⟩
  · rw [h]
    exact .refl db
  · rw [h]
    exact ⟨List.prefix_append _ _, List.prefix_refl _⟩

theorem Database.extends_setPublicKeys (db : Database) (draw : Draw) (userId : Int)
    (elGamalPublicKey dsaPublicKey : String) :
    db.Extends (db.setPublicKeys draw userId elGamalPublicKey dsaPublicKey).2 := by
  rcases db.setPublicKeys_cases draw userId elGamalPublicKey dsaPublicKey with h | ⟨id, -, h⟩
  · rw [h]
    exact .refl db
  · rw [h]
    exact ⟨List.prefix_refl _, List.prefix_append _ _⟩

/-- The texts of a registration, and what it does with them. -/
theorem Database.handleRegister_eq_ok {db db' : Database} {draws : Draws} {request : Json}
    {userId : Int} {ok : Bool} (h : db.handleRegister draws request = .ok (userId, ok, db')) :
    ∃ nickname password elGamalPublicKey dsaPublicKey,
      request.readString "nickname" = .ok nickname ∧
      request.readString "el_gamal_public_key" = .ok elGamalPublicKey ∧
      request.readString "dsa_public_key" = .ok dsaPublicKey ∧
      (db.create draws.user nickname password).1 = userId ∧
      (db.create draws.user nickname password).2.setPublicKeys draws.keys userId elGamalPublicKey
        dsaPublicKey = (ok, db') := by
  obtain ⟨nickname, hnickname, h⟩ := bind_eq_ok.mp h
  obtain ⟨password, -, h⟩ := bind_eq_ok.mp h
  obtain ⟨elGamalPublicKey, helGamal, h⟩ := bind_eq_ok.mp h
  obtain ⟨dsaPublicKey, hdsa, h⟩ := bind_eq_ok.mp h
  cases h
  exact ⟨nickname, password, elGamalPublicKey, dsaPublicKey, hnickname, helGamal, hdsa, rfl, rfl⟩

/-- Registering only adds rows. -/
theorem Database.extends_register (db : Database) (registration : Draws × Json) :
    db.Extends (db.register registration) := by
  rw [Database.register]
  cases hregister : db.handleRegister registration.1 registration.2 with
  | error e => exact .refl db
  | ok p =>
      obtain ⟨userId, ok, db'⟩ := p
      obtain ⟨nickname, password, elGamalPublicKey, dsaPublicKey, -, -, -, -, hset⟩ :=
        handleRegister_eq_ok hregister
      have hkeys := extends_setPublicKeys (db.create registration.1.user nickname password).2
        registration.1.keys userId elGamalPublicKey dsaPublicKey
      rw [hset] at hkeys
      exact (db.extends_create registration.1.user nickname password).trans hkeys

theorem Database.extends_registerAll (db : Database) (registrations : List (Draws × Json)) :
    db.Extends (registrations.foldl Database.register db) := by
  induction registrations generalizing db with
  | nil => exact .refl db
  | cons registration registrations ih => exact (db.extends_register registration).trans (ih _)

/-- A registration that sets the keys makes the tables hold them. -/
theorem Database.holds_handleRegister {db db' : Database} {draws : Draws} {request : Json}
    {userId : Int} (hid : userId ≠ 0)
    (h : db.handleRegister draws request = .ok (userId, true, db')) {nickname : String}
    (hnickname : request.readString "nickname" = .ok nickname) (hfits : nickname.length ≤ 50) :
    ∃ elGamalPublicKey dsaPublicKey,
      request.readString "el_gamal_public_key" = .ok elGamalPublicKey ∧
      request.readString "dsa_public_key" = .ok dsaPublicKey ∧
      db'.Holds userId nickname dsaPublicKey elGamalPublicKey := by
  obtain ⟨name, password, elGamalPublicKey, dsaPublicKey, hname, helGamal, hdsa, hcreate, hset⟩ :=
    handleRegister_eq_ok h
  obtain rfl : name = nickname := Except.ok.inj (hname.symm.trans hnickname)
  refine ⟨elGamalPublicKey, dsaPublicKey, helGamal, hdsa, ?_⟩
  rcases db.create_cases draws.user name password with hfail | ⟨id, stored, storedPassword, hstored,
    hnew, hadd⟩
  · rw [hfail] at hcreate
    exact absurd hcreate.symm hid
  rw [hadd] at hcreate hset
  obtain rfl : id = userId := hcreate
  -- the column does not cut the nickname
  obtain rfl : sqlParameter name = stored := by
    rw [varchar, if_pos ((length_sqlParameter_le name).trans hfits)] at hstored
    exact Option.some.inj hstored
  rcases Database.setPublicKeys_cases { db with users := db.users ++
    [userRow id (sqlParameter name) storedPassword draws.user] } draws.keys id elGamalPublicKey
      dsaPublicKey with hfail | ⟨keysId, hfree, hkeys⟩
  · rw [hfail] at hset
    cases hset
  rw [hkeys] at hset
  obtain ⟨-, rfl⟩ := Prod.mk.inj hset
  exact {
    user := ⟨_, find?_append_new hnew (by simp [hasValue, Row.column, userRow, usersColumns]),
      rfl, rfl⟩
    keys := ⟨_, _, find?_append_new hfree
      (by simp [hasValue, Row.column, cryptoKeysRow, cryptoKeysColumns]), rfl, by simp, by simp⟩ }

/-! ### The queries -/

theorem Database.Holds.getId_eq {db : Database} {userId : Int}
    {nickname dsaPublicKey elGamalPublicKey : String}
    (h : db.Holds userId nickname dsaPublicKey elGamalPublicKey) : db.getId nickname = userId := by
  obtain ⟨row, hfind, hjson, hid⟩ := h.user
  obtain ⟨json, hjson⟩ := Option.isSome_iff_exists.mp hjson
  rw [getId, hfind]
  simp only [hjson, hid, Option.getD_some]

theorem Database.Holds.getPublicKeys_eq {db : Database} {userId : Int}
    {nickname dsaPublicKey elGamalPublicKey : String}
    (h : db.Holds userId nickname dsaPublicKey elGamalPublicKey) {dsaKey elGamalKey : Int}
    (hdsaKey : hexNumber (sqlParameter dsaPublicKey) = .ok dsaKey)
    (helGamalKey : hexNumber (sqlParameter elGamalPublicKey) = .ok elGamalKey) :
    db.getPublicKeys userId = some ⟨dsaKey, elGamalKey⟩ := by
  obtain ⟨row, json, hfind, hjson, hdsa, helGamal⟩ := h.keys
  have hread : constructUserCryptoKeys (.object json) = .ok ⟨dsaKey, elGamalKey⟩ := by
    have hreadDsa : Json.readString (.object json) "dsa_public_key" =
        .ok (sqlParameter dsaPublicKey) := Json.readString_of_member? hdsa
    have hreadElGamal : Json.readString (.object json) "el_gamal_public_key" =
        .ok (sqlParameter elGamalPublicKey) := Json.readString_of_member? helGamal
    rw [constructUserCryptoKeys, hreadDsa, hreadElGamal]
    simp only [bind, Except.bind, hdsaKey, helGamalKey]
    rfl
  rw [getPublicKeys, hfind]
  simp only [hjson, hread]
  rfl

end Silence.Server
