import Silence.Lib.Run
import Silence.Lib.UniqueKeys
import Silence.Server.UserMetadataRepository

/-!
# Silence.Server.UserAccounts

The repository of the users as a map of accounts.

Every call of `UserMetadataRepository` that changes the tables is one transaction. The
constraints of the tables decide whether it goes through, and a commit that is carried out
but not confirmed is returned as a failure. `Accounts` says what the tables are for: each
user has a nickname and a password, no two users share a nickname, and a user may have keys,
which go when the user goes. `repository_refined` says that the calls, in any order, return
what they should on the map, and that the queries read the map back.
-/

namespace Silence.Server

open Silence.Lib

/-! ### The other calls -/

/-- `authorize`. The object is only logged. The query gets the nickname as a C string, while
`operator==` compares the whole password. -/
def Database.authorize (db : Database) (userId : Int) (nickname password : String) : Bool :=
  match db.users.find? fun row => hasValue usersColumns "id" (.integer userId) row &&
      hasValue usersColumns "nickname" (.text (sqlParameter nickname)) row with
  | none => false
  | some row =>
      match pqxxUsersResultToJson row, Row.asString row 2 with
      | some _, some storedPassword => password = storedPassword
      | _, _ => false

/-- The values of a row of `users`. -/
structure UserRecord where
  id : Int
  nickname : String
  password : String
  registeredTimestamp : String
  lastOnlineTimestamp : String
  isOnline : Bool

/-- `update`. Another row with the nickname makes it fail. -/
def Database.update (db : Database) (user : UserRecord) : Bool × Database :=
  match varchar 50 (sqlParameter user.nickname), varchar 255 (sqlParameter user.password) with
  | some nickname, some password =>
      if !db.users.any (hasValue usersColumns "id" (.integer user.id)) ||
          db.users.any (fun row => hasValue usersColumns "nickname" (.text nickname) row &&
            !hasValue usersColumns "id" (.integer user.id) row) then (false, db)
      else
        (true, { db with
          users := db.users.map fun row =>
            if hasValue usersColumns "id" (.integer user.id) row then
              rowOf usersColumns [("nickname", .text nickname), ("password", .text password),
                ("registered_timestamp", .text user.registeredTimestamp),
                ("last_online_timestamp", .text user.lastOnlineTimestamp),
                ("is_online", .boolean user.isOnline), ("id", .integer user.id)]
            else row })
  | _, _ => (false, db)

/-- `remove`. The keys of the user go with it (`ON DELETE CASCADE`). -/
def Database.remove (db : Database) (id : Int) : Bool × Database :=
  if !db.users.any (hasValue usersColumns "id" (.integer id)) then (false, db)
  else
    (true, {
      users := db.users.filter fun row => !hasValue usersColumns "id" (.integer id) row
      cryptoKeys := db.cryptoKeys.filter fun row =>
        !hasValue cryptoKeysColumns "user_id" (.integer id) row })

/-- A call that changes the tables, and how its transaction ends. One that is not carried out draws
no id, or has no commit. -/
inductive Call where
  | create (draw : Draw) (commit : CommitOutcome) (nickname password : String)
  | setPublicKeys (draw : Draw) (commit : CommitOutcome) (userId : Int)
      (elGamalPublicKey dsaPublicKey : String)
  | update (user : UserRecord) (commit : Option CommitOutcome)
  | remove (id : Int) (commit : Option CommitOutcome)

/-- What a call returns. -/
inductive CallResult where
  | userId (id : Int)
  | done (ok : Bool)
  deriving DecidableEq, Repr

def Database.perform (db : Database) : Call → CallResult × Database
  | .create draw commit nickname password =>
      let (id, db) := commit.result 0 (db.create draw nickname password)
      (.userId id, db)
  | .setPublicKeys draw commit userId elGamalPublicKey dsaPublicKey =>
      let (ok, db) := commit.result false
        (db.setPublicKeys draw userId elGamalPublicKey dsaPublicKey)
      (.done ok, db)
  | .update _ none => (.done false, db)
  | .update user (some commit) =>
      let (ok, db) := commit.result false (db.update user)
      (.done ok, db)
  | .remove _ none => (.done false, db)
  | .remove id (some commit) =>
      let (ok, db) := commit.result false (db.remove id)
      (.done ok, db)

/-- The ids that a call draws are positive, as from a sequence, and new in its table. -/
def Call.DrawsNew (db : Database) : Call → Prop
  | .create draw _ _ _ => ∀ id, draw.id = some id →
      id ≠ 0 ∧ db.users.any (hasValue usersColumns "id" (.integer id)) = false
  | .setPublicKeys draw _ _ _ _ => ∀ id, draw.id = some id →
      id ≠ 0 ∧ db.cryptoKeys.any (hasValue cryptoKeysColumns "id" (.integer id)) = false
  | .update _ _ => True
  | .remove _ _ => True

/-! ### Accounts -/

/-- The nickname and the password of each user, and the texts of the keys of those that have
some. -/
structure Accounts where
  users : Int → Option (String × String)
  keys : Int → Option (String × String)

def Accounts.empty : Accounts := ⟨fun _ => none, fun _ => none⟩

/-- Nobody else has the nickname. -/
def Accounts.Free (accounts : Accounts) (nickname : String) (id : Int) : Prop :=
  ∀ id' password, accounts.users id' = some (nickname, password) → id' = id

section

open Classical

/-- A user has a nickname of its own. -/
noncomputable def Accounts.create (accounts : Accounts) (draw : Draw) (nickname password : String) :
    Int × Accounts :=
  match draw.id, varchar 50 (sqlParameter nickname), varchar 255 (sqlParameter password) with
  | some id, some nickname, some password =>
      if accounts.Free nickname id then
        (id, { accounts with users := Function.update accounts.users id (nickname, password) })
      else (0, accounts)
  | _, _, _ => (0, accounts)

/-- Keys are set once, and only for a user. -/
noncomputable def Accounts.setPublicKeys (accounts : Accounts) (draw : Draw) (userId : Int)
    (elGamalPublicKey dsaPublicKey : String) : Bool × Accounts :=
  if draw.id.isSome ∧ accounts.users userId ≠ none ∧ accounts.keys userId = none then
    (true, { accounts with
      keys := Function.update accounts.keys userId
        (sqlParameter dsaPublicKey, sqlParameter elGamalPublicKey) })
  else (false, accounts)

noncomputable def Accounts.update (accounts : Accounts) (user : UserRecord) : Bool × Accounts :=
  match varchar 50 (sqlParameter user.nickname), varchar 255 (sqlParameter user.password) with
  | some nickname, some password =>
      if accounts.users user.id ≠ none ∧ accounts.Free nickname user.id then
        (true, { accounts with
          users := Function.update accounts.users user.id (nickname, password) })
      else (false, accounts)
  | _, _ => (false, accounts)

noncomputable def Accounts.remove (accounts : Accounts) (id : Int) : Bool × Accounts :=
  if accounts.users id ≠ none then
    (true, {
      users := Function.update accounts.users id none
      keys := Function.update accounts.keys id none })
  else (false, accounts)

end

/-- What a call should do. -/
noncomputable def Accounts.perform (accounts : Accounts) : Call → CallResult × Accounts
  | .create draw commit nickname password =>
      let (id, accounts) := commit.result 0 (accounts.create draw nickname password)
      (.userId id, accounts)
  | .setPublicKeys draw commit userId elGamalPublicKey dsaPublicKey =>
      let (ok, accounts) := commit.result false
        (accounts.setPublicKeys draw userId elGamalPublicKey dsaPublicKey)
      (.done ok, accounts)
  | .update _ none => (.done false, accounts)
  | .update user (some commit) =>
      let (ok, accounts) := commit.result false (accounts.update user)
      (.done ok, accounts)
  | .remove _ none => (.done false, accounts)
  | .remove id (some commit) =>
      let (ok, accounts) := commit.result false (accounts.remove id)
      (.done ok, accounts)

/-- The numbers of stored keys. -/
def readKeys (dsaPublicKey elGamalPublicKey : String) : Except Exn UserCryptoKeys := do
  return ⟨← hexNumber dsaPublicKey, ← hexNumber elGamalPublicKey⟩

/-! ### Rows as records -/

def UserRecord.row (user : UserRecord) : Row :=
  [.integer user.id, .text user.nickname, .text user.password, .text user.registeredTimestamp,
    .text user.lastOnlineTimestamp, .boolean user.isOnline]

/-- The values of a row of `crypto_keys`. -/
structure KeysRecord where
  id : Int
  userId : Int
  dsaPublicKey : String
  elGamalPublicKey : String
  createdTimestamp : String

def KeysRecord.row (keys : KeysRecord) : Row :=
  [.integer keys.id, .integer keys.userId, .text keys.dsaPublicKey, .text keys.elGamalPublicKey,
    .text keys.createdTimestamp]

/-- The object that is made of a row of keys. -/
def KeysRecord.json (keys : KeysRecord) : Json.Members :=
  Json.Members.ofList [("id", .number keys.id), ("user_id", .number keys.userId),
    ("dsa_public_key", .string keys.dsaPublicKey),
    ("el_gamal_public_key", .string keys.elGamalPublicKey),
    ("created_timestamp", .string keys.createdTimestamp)]

@[simp] theorem hasValue_id_row (user : UserRecord) (id : Int) :
    hasValue usersColumns "id" (.integer id) user.row = decide (user.id = id) := by
  simp [hasValue, Row.column, UserRecord.row, usersColumns]

@[simp] theorem hasValue_nickname_row (user : UserRecord) (nickname : String) :
    hasValue usersColumns "nickname" (.text nickname) user.row =
      decide (user.nickname = nickname) := by
  simp [hasValue, Row.column, UserRecord.row, usersColumns]

@[simp] theorem hasValue_userId_row (keys : KeysRecord) (userId : Int) :
    hasValue cryptoKeysColumns "user_id" (.integer userId) keys.row =
      decide (keys.userId = userId) := by
  simp [hasValue, Row.column, KeysRecord.row, cryptoKeysColumns]

/-- The tables consist of these rows, which meet the constraints and are those of the accounts. -/
structure Database.Represents (db : Database) (accounts : Accounts) (users : List UserRecord)
    (keys : List KeysRecord) : Prop where
  userRows : db.users = users.map UserRecord.row
  keysRows : db.cryptoKeys = keys.map KeysRecord.row
  uniqueIds : UniqueKeys UserRecord.id users
  uniqueNicknames : UniqueKeys UserRecord.nickname users
  uniqueUserIds : UniqueKeys KeysRecord.userId keys
  positive : ∀ user ∈ users, user.id ≠ 0
  owned : ∀ record ∈ keys, ∃ user ∈ users, user.id = record.userId
  ofUser : ∀ id nickname password, accounts.users id = some (nickname, password) ↔
    ∃ user ∈ users, user.id = id ∧ user.nickname = nickname ∧ user.password = password
  ofKeys : ∀ id dsaPublicKey elGamalPublicKey,
    accounts.keys id = some (dsaPublicKey, elGamalPublicKey) ↔ ∃ record ∈ keys,
      record.userId = id ∧ record.dsaPublicKey = dsaPublicKey ∧
        record.elGamalPublicKey = elGamalPublicKey

theorem Database.represents_empty : Database.empty.Represents .empty [] [] where
  userRows := rfl
  keysRows := rfl
  uniqueIds := .nil
  uniqueNicknames := .nil
  uniqueUserIds := .nil
  positive := nofun
  owned := nofun
  ofUser _ _ _ := ⟨nofun, nofun⟩
  ofKeys _ _ _ := ⟨nofun, nofun⟩

namespace Database.Represents

variable {db : Database} {accounts : Accounts} {users : List UserRecord} {keys : List KeysRecord}

theorem user_isSome_iff (h : db.Represents accounts users keys) (id : Int) :
    accounts.users id ≠ none ↔ ∃ user ∈ users, user.id = id := by
  constructor
  · intro hsome
    obtain ⟨⟨nickname, password⟩, haccount⟩ := Option.ne_none_iff_exists'.mp hsome
    obtain ⟨user, hmem, hid, -⟩ := (h.ofUser id nickname password).mp haccount
    exact ⟨user, hmem, hid⟩
  · rintro ⟨user, hmem, hid⟩ hnone
    rw [(h.ofUser id _ _).mpr ⟨user, hmem, hid, rfl, rfl⟩] at hnone
    cases hnone

theorem id_ne_zero (h : db.Represents accounts users keys) {id : Int} {account : String × String}
    (haccount : accounts.users id = some account) : id ≠ 0 := by
  obtain ⟨user, hmem, rfl, -⟩ := (h.ofUser id account.1 account.2).mp haccount
  exact h.positive user hmem

/-- A nickname is that of one user. -/
theorem id_eq_of_nickname (h : db.Represents accounts users keys) {id id' : Int}
    {nickname password password' : String}
    (haccount : accounts.users id = some (nickname, password))
    (haccount' : accounts.users id' = some (nickname, password')) : id = id' := by
  obtain ⟨user, hmem, rfl, hnickname, -⟩ := (h.ofUser _ _ _).mp haccount
  obtain ⟨user', hmem', rfl, hnickname', -⟩ := (h.ofUser _ _ _).mp haccount'
  rw [h.uniqueNicknames.eq_of_mem hmem hmem' (hnickname.trans hnickname'.symm)]

theorem keys_isSome_iff (h : db.Represents accounts users keys) (id : Int) :
    accounts.keys id ≠ none ↔ ∃ record ∈ keys, record.userId = id := by
  constructor
  · intro hsome
    obtain ⟨⟨dsaPublicKey, elGamalPublicKey⟩, hkeys⟩ := Option.ne_none_iff_exists'.mp hsome
    obtain ⟨record, hmem, hid, -⟩ := (h.ofKeys id dsaPublicKey elGamalPublicKey).mp hkeys
    exact ⟨record, hmem, hid⟩
  · rintro ⟨record, hmem, hid⟩ hnone
    rw [(h.ofKeys id _ _).mpr ⟨record, hmem, hid, rfl, rfl⟩] at hnone
    cases hnone

/-- Keys are those of a user that is there. -/
theorem keys_eq_none (h : db.Represents accounts users keys) {id : Int}
    (hnone : accounts.users id = none) : accounts.keys id = none := by
  by_contra hsome
  obtain ⟨record, hmem, rfl⟩ := (h.keys_isSome_iff id).mp hsome
  exact (h.user_isSome_iff _).mpr (h.owned record hmem) hnone

theorem free_iff (h : db.Represents accounts users keys) (nickname : String) (id : Int) :
    accounts.Free nickname id ↔ ∀ user ∈ users, user.nickname = nickname → user.id = id := by
  constructor
  · intro hfree user hmem hnickname
    exact hfree user.id user.password ((h.ofUser _ _ _).mpr ⟨user, hmem, rfl, hnickname, rfl⟩)
  · intro hrows id' password haccount
    obtain ⟨user, hmem, rfl, hnickname, -⟩ := (h.ofUser _ _ _).mp haccount
    exact hrows user hmem hnickname

theorem any_id (h : db.Represents accounts users keys) (id : Int) :
    db.users.any (hasValue usersColumns "id" (.integer id)) = true ↔ accounts.users id ≠ none := by
  rw [h.user_isSome_iff, h.userRows]
  simp

theorem any_nickname (h : db.Represents accounts users keys) {id : Int}
    (hnew : accounts.users id = none) (nickname : String) :
    db.users.any (hasValue usersColumns "nickname" (.text nickname)) = false ↔
      accounts.Free nickname id := by
  have hid : ∀ user ∈ users, user.id ≠ id :=
    fun user hmem heq => (h.user_isSome_iff id).mpr ⟨user, hmem, heq⟩ hnew
  rw [h.free_iff, h.userRows]
  simp only [List.any_map, List.any_eq_false, Function.comp_apply, hasValue_nickname_row,
    decide_eq_true_eq]
  exact forall₂_congr fun user hmem => ⟨fun hne heq => absurd heq hne,
    fun hfree heq => hid user hmem (hfree heq)⟩

theorem any_other (h : db.Represents accounts users keys) (nickname : String) (id : Int) :
    db.users.any (fun row => hasValue usersColumns "nickname" (.text nickname) row &&
      !hasValue usersColumns "id" (.integer id) row) = false ↔ accounts.Free nickname id := by
  rw [h.free_iff, h.userRows]
  simp

theorem any_userId (h : db.Represents accounts users keys) (userId : Int) :
    db.cryptoKeys.any (hasValue cryptoKeysColumns "user_id" (.integer userId)) = true ↔
      accounts.keys userId ≠ none := by
  rw [h.keys_isSome_iff, h.keysRows]
  simp

/-! ### The calls -/

/-- The row of a new user. -/
theorem addUser (h : db.Represents accounts users keys) (user : UserRecord)
    (hpositive : user.id ≠ 0) (hnew : accounts.users user.id = none)
    (hfree : accounts.Free user.nickname user.id) :
    Database.Represents { db with users := db.users ++ [user.row] }
      { accounts with
        users := Function.update accounts.users user.id (user.nickname, user.password) }
      (users ++ [user]) keys := by
  have hid : ∀ other ∈ users, other.id ≠ user.id :=
    fun other hmem heq => (h.user_isSome_iff _).mpr ⟨other, hmem, heq⟩ hnew
  have hnickname : ∀ other ∈ users, other.nickname ≠ user.nickname :=
    fun other hmem heq => hid other hmem ((h.free_iff _ _).mp hfree other hmem heq)
  exact {
    userRows := by simp [h.userRows]
    keysRows := h.keysRows
    uniqueIds := h.uniqueIds.snoc hid
    uniqueNicknames := h.uniqueNicknames.snoc hnickname
    uniqueUserIds := h.uniqueUserIds
    positive := by
      simp only [List.forall_mem_append, List.forall_mem_singleton]
      exact ⟨h.positive, hpositive⟩
    owned := fun record hmem => by
      obtain ⟨owner, howner, heq⟩ := h.owned record hmem
      exact ⟨owner, List.mem_append_left _ howner, heq⟩
    ofUser := fun id nickname password => by
      dsimp only
      by_cases heq : id = user.id
      · subst heq
        rw [Function.update_self]
        constructor
        · intro haccount
          obtain ⟨rfl, rfl⟩ := Prod.mk.inj (Option.some.inj haccount)
          exact ⟨user, by simp, rfl, rfl, rfl⟩
        · rintro ⟨other, hmem, hsame, rfl, rfl⟩
          rcases List.mem_append.mp hmem with hold | hlast
          · exact absurd hsame (hid other hold)
          · rw [List.mem_singleton.mp hlast]
      · rw [Function.update_of_ne heq, h.ofUser]
        constructor
        · rintro ⟨other, hmem, hrest⟩
          exact ⟨other, List.mem_append_left _ hmem, hrest⟩
        · rintro ⟨other, hmem, rfl, hrest⟩
          rcases List.mem_append.mp hmem with hold | hlast
          · exact ⟨other, hold, rfl, hrest⟩
          · exact absurd (congrArg UserRecord.id (List.mem_singleton.mp hlast)) heq
    ofKeys := h.ofKeys }

/-- The row of the first keys of a user. -/
theorem addKeys (h : db.Represents accounts users keys) (record : KeysRecord)
    (hnew : accounts.keys record.userId = none) (howner : accounts.users record.userId ≠ none) :
    Database.Represents { db with cryptoKeys := db.cryptoKeys ++ [record.row] }
      { accounts with
        keys := Function.update accounts.keys record.userId
          (record.dsaPublicKey, record.elGamalPublicKey) }
      users (keys ++ [record]) := by
  have hid : ∀ other ∈ keys, other.userId ≠ record.userId :=
    fun other hmem heq => (h.keys_isSome_iff _).mpr ⟨other, hmem, heq⟩ hnew
  exact {
    userRows := h.userRows
    keysRows := by simp [h.keysRows]
    uniqueIds := h.uniqueIds
    uniqueNicknames := h.uniqueNicknames
    uniqueUserIds := h.uniqueUserIds.snoc hid
    positive := h.positive
    owned := by
      simp only [List.forall_mem_append, List.forall_mem_singleton]
      exact ⟨h.owned, (h.user_isSome_iff _).mp howner⟩
    ofUser := h.ofUser
    ofKeys := fun id dsaPublicKey elGamalPublicKey => by
      dsimp only
      by_cases heq : id = record.userId
      · subst heq
        rw [Function.update_self]
        constructor
        · intro hkeys
          obtain ⟨rfl, rfl⟩ := Prod.mk.inj (Option.some.inj hkeys)
          exact ⟨record, by simp, rfl, rfl, rfl⟩
        · rintro ⟨other, hmem, hsame, rfl, rfl⟩
          rcases List.mem_append.mp hmem with hold | hlast
          · exact absurd hsame (hid other hold)
          · rw [List.mem_singleton.mp hlast]
      · rw [Function.update_of_ne heq, h.ofKeys]
        constructor
        · rintro ⟨other, hmem, hrest⟩
          exact ⟨other, List.mem_append_left _ hmem, hrest⟩
        · rintro ⟨other, hmem, rfl, hrest⟩
          rcases List.mem_append.mp hmem with hold | hlast
          · exact ⟨other, hold, rfl, hrest⟩
          · exact absurd (congrArg KeysRecord.userId (List.mem_singleton.mp hlast)) heq }

/-- A user's row is replaced. -/
theorem replaceUser (h : db.Represents accounts users keys) (user : UserRecord)
    (hthere : accounts.users user.id ≠ none) (hfree : accounts.Free user.nickname user.id) :
    Database.Represents
      { db with
        users := db.users.map fun row =>
          if hasValue usersColumns "id" (.integer user.id) row then user.row else row }
      { accounts with
        users := Function.update accounts.users user.id (user.nickname, user.password) }
      (users.map fun other => if other.id = user.id then user else other) keys := by
  obtain ⟨old, hold, hid⟩ := (h.user_isSome_iff _).mp hthere
  have hnickname : ∀ other ∈ users, other.id ≠ user.id → other.nickname ≠ user.nickname :=
    fun other hmem hne heq => hne ((h.free_iff _ _).mp hfree other hmem heq)
  -- the replaced rows keep their ids
  have hids : ∀ other : UserRecord, (if other.id = user.id then user else other).id = other.id := by
    intro other
    split
    · rename_i heq
      exact heq.symm
    · rfl
  exact {
    userRows := by
      rw [h.userRows, List.map_map, List.map_map]
      refine List.map_congr_left fun other _ => ?_
      by_cases heq : other.id = user.id
      · simp [heq]
      · simp [heq]
    keysRows := h.keysRows
    uniqueIds := h.uniqueIds.replace h.uniqueIds fun other _ hne => hne
    uniqueNicknames := h.uniqueNicknames.replace h.uniqueIds hnickname
    uniqueUserIds := h.uniqueUserIds
    positive := by
      intro other hmem
      obtain ⟨before, hbefore, rfl⟩ := List.mem_map.mp hmem
      rw [hids]
      exact h.positive before hbefore
    owned := fun record hmem => by
      obtain ⟨owner, howner, heq⟩ := h.owned record hmem
      exact ⟨_, List.mem_map_of_mem howner, (hids owner).trans heq⟩
    ofUser := fun id nickname password => by
      simp only [List.mem_map, exists_exists_and_eq_and]
      by_cases heq : id = user.id
      · subst heq
        rw [Function.update_self]
        constructor
        · intro haccount
          obtain ⟨rfl, rfl⟩ := Prod.mk.inj (Option.some.inj haccount)
          exact ⟨old, hold, by simp [hid]⟩
        · rintro ⟨other, -, hsame, rfl, rfl⟩
          rw [hids] at hsame
          rw [if_pos hsame]
      · rw [Function.update_of_ne heq, h.ofUser]
        constructor
        · rintro ⟨other, hmem, rfl, hrest⟩
          exact ⟨other, hmem, by simpa [heq] using hrest⟩
        · rintro ⟨other, hmem, hsame, hrest⟩
          rw [hids] at hsame
          subst hsame
          exact ⟨other, hmem, rfl, by simpa [heq] using hrest⟩
    ofKeys := h.ofKeys }

/-- A user's row is removed, and that of its keys. -/
theorem removeUser (h : db.Represents accounts users keys) (id : Int) :
    Database.Represents
      { users := db.users.filter fun row => !hasValue usersColumns "id" (.integer id) row
        cryptoKeys := db.cryptoKeys.filter fun row =>
          !hasValue cryptoKeysColumns "user_id" (.integer id) row }
      { users := Function.update accounts.users id none
        keys := Function.update accounts.keys id none }
      (users.filter fun user => !decide (user.id = id))
      (keys.filter fun record => !decide (record.userId = id)) where
  userRows := by
    rw [h.userRows, List.filter_map]
    exact congrArg (List.map UserRecord.row) (List.filter_congr fun user _ => by simp)
  keysRows := by
    rw [h.keysRows, List.filter_map]
    exact congrArg (List.map KeysRecord.row) (List.filter_congr fun record _ => by simp)
  uniqueIds := h.uniqueIds.filter _
  uniqueNicknames := h.uniqueNicknames.filter _
  uniqueUserIds := h.uniqueUserIds.filter _
  positive user hmem := h.positive user (List.mem_of_mem_filter hmem)
  owned record hmem := by
    obtain ⟨hmem, hne⟩ := List.mem_filter.mp hmem
    obtain ⟨owner, howner, heq⟩ := h.owned record hmem
    exact ⟨owner, List.mem_filter.mpr ⟨howner, by rwa [heq]⟩, heq⟩
  ofUser id' nickname password := by
    dsimp only
    by_cases heq : id' = id
    · subst heq
      rw [Function.update_self]
      refine iff_of_false nofun ?_
      rintro ⟨user, hmem, hid, -⟩
      simp [hid] at hmem
    · rw [Function.update_of_ne heq, h.ofUser]
      constructor
      · rintro ⟨user, hmem, rfl, hrest⟩
        exact ⟨user, List.mem_filter.mpr ⟨hmem, by simpa using heq⟩, rfl, hrest⟩
      · rintro ⟨user, hmem, hrest⟩
        exact ⟨user, List.mem_of_mem_filter hmem, hrest⟩
  ofKeys id' dsaPublicKey elGamalPublicKey := by
    dsimp only
    by_cases heq : id' = id
    · subst heq
      rw [Function.update_self]
      refine iff_of_false nofun ?_
      rintro ⟨record, hmem, hid, -⟩
      simp [hid] at hmem
    · rw [Function.update_of_ne heq, h.ofKeys]
      constructor
      · rintro ⟨record, hmem, rfl, hrest⟩
        exact ⟨record, List.mem_filter.mpr ⟨hmem, by simpa using heq⟩, rfl, hrest⟩
      · rintro ⟨record, hmem, hrest⟩
        exact ⟨record, List.mem_of_mem_filter hmem, hrest⟩

theorem create (h : db.Represents accounts users keys) {draw : Draw}
    (hdraws : ∀ id, draw.id = some id →
      id ≠ 0 ∧ db.users.any (hasValue usersColumns "id" (.integer id)) = false)
    (nickname password : String) :
    (db.create draw nickname password).1 = (accounts.create draw nickname password).1 ∧
      ∃ users', (db.create draw nickname password).2.Represents
        (accounts.create draw nickname password).2 users' keys := by
  unfold Database.create Accounts.create
  cases hdraw : draw.id with
  | none => exact ⟨rfl, users, h⟩
  | some id =>
      cases varchar 50 (sqlParameter nickname) with
      | none => exact ⟨rfl, users, h⟩
      | some nickname =>
          cases varchar 255 (sqlParameter password) with
          | none => exact ⟨rfl, users, h⟩
          | some password =>
              obtain ⟨hpositive, hid⟩ := hdraws id hdraw
              have hnew : accounts.users id = none := by
                by_contra hsome
                rw [(h.any_id id).mpr hsome] at hid
                cases hid
              have hany := h.any_nickname hnew nickname
              dsimp only
              rw [hid, Bool.false_or]
              by_cases hfree : accounts.Free nickname id
              · rw [if_neg (Bool.eq_false_iff.mp (hany.mpr hfree)), if_pos hfree]
                exact ⟨rfl, _, h.addUser ⟨id, nickname, password, draw.timestamp,
                  draw.lastOnlineTimestamp, true⟩ hpositive hnew hfree⟩
              · rw [if_pos (by simpa using mt hany.mp hfree), if_neg hfree]
                exact ⟨rfl, users, h⟩

theorem setPublicKeys (h : db.Represents accounts users keys) {draw : Draw}
    (hdraws : ∀ id, draw.id = some id →
      id ≠ 0 ∧ db.cryptoKeys.any (hasValue cryptoKeysColumns "id" (.integer id)) = false)
    (userId : Int) (elGamalPublicKey dsaPublicKey : String) :
    (db.setPublicKeys draw userId elGamalPublicKey dsaPublicKey).1 =
        (accounts.setPublicKeys draw userId elGamalPublicKey dsaPublicKey).1 ∧
      ∃ keys', (db.setPublicKeys draw userId elGamalPublicKey dsaPublicKey).2.Represents
        (accounts.setPublicKeys draw userId elGamalPublicKey dsaPublicKey).2 users keys' := by
  unfold Database.setPublicKeys Accounts.setPublicKeys
  cases hdraw : draw.id with
  | none =>
      rw [if_neg (by simp)]
      exact ⟨rfl, keys, h⟩
  | some id =>
      obtain ⟨hpositive, hid⟩ := hdraws id hdraw
      dsimp only
      rw [hid, Bool.or_false]
      by_cases hadmits : accounts.users userId ≠ none ∧ accounts.keys userId = none
      · have howner := (h.any_id userId).mpr hadmits.1
        have hfirst : db.cryptoKeys.any
            (hasValue cryptoKeysColumns "user_id" (.integer userId)) = false := by
          rw [Bool.eq_false_iff, ne_eq, h.any_userId]
          exact not_not_intro hadmits.2
        rw [howner, hfirst, if_neg (by simp), if_pos ⟨rfl, hadmits⟩]
        exact ⟨by simp [hpositive], _, h.addKeys ⟨id, userId, sqlParameter dsaPublicKey,
          sqlParameter elGamalPublicKey, draw.timestamp⟩ hadmits.2 hadmits.1⟩
      · rw [if_pos ?_, if_neg fun hall => hadmits hall.2]
        · exact ⟨rfl, keys, h⟩
        · rw [Bool.or_eq_true, h.any_userId, Bool.not_eq_true', Bool.eq_false_iff, ne_eq, h.any_id]
          tauto

theorem update (h : db.Represents accounts users keys) (user : UserRecord) :
    (db.update user).1 = (accounts.update user).1 ∧
      ∃ users', (db.update user).2.Represents (accounts.update user).2 users' keys := by
  unfold Database.update Accounts.update
  cases varchar 50 (sqlParameter user.nickname) with
  | none => exact ⟨rfl, users, h⟩
  | some nickname =>
      cases varchar 255 (sqlParameter user.password) with
      | none => exact ⟨rfl, users, h⟩
      | some password =>
          dsimp only
          by_cases hadmits : accounts.users user.id ≠ none ∧ accounts.Free nickname user.id
          · have hthere := (h.any_id user.id).mpr hadmits.1
            have hother := (h.any_other nickname user.id).mpr hadmits.2
            rw [hthere, hother, if_neg (by simp), if_pos hadmits]
            exact ⟨rfl, _, h.replaceUser
              { user with nickname := nickname, password := password } hadmits.1 hadmits.2⟩
          · rw [if_pos ?_, if_neg hadmits]
            · exact ⟨rfl, users, h⟩
            · have hother := h.any_other nickname user.id
              rw [Bool.or_eq_true, Bool.not_eq_true', Bool.eq_false_iff, ne_eq, h.any_id]
              by_contra hnone
              rw [not_or, not_not, Bool.not_eq_true, hother] at hnone
              exact hadmits hnone

theorem remove (h : db.Represents accounts users keys) (id : Int) :
    (db.remove id).1 = (accounts.remove id).1 ∧
      ∃ users' keys', (db.remove id).2.Represents (accounts.remove id).2 users' keys' := by
  unfold Database.remove Accounts.remove
  by_cases hthere : accounts.users id ≠ none
  · rw [(h.any_id id).mpr hthere, if_neg (by simp), if_pos hthere]
    exact ⟨rfl, _, _, h.removeUser id⟩
  · have hany := mt (h.any_id id).mp hthere
    rw [if_pos (by simpa using hany), if_neg hthere]
    exact ⟨rfl, users, keys, h⟩

/-- A call returns what it should, and leaves what it should. -/
theorem perform (h : db.Represents accounts users keys) {call : Call}
    (hdraws : call.DrawsNew db) :
    (db.perform call).1 = (accounts.perform call).1 ∧
      ∃ users' keys', (db.perform call).2.Represents (accounts.perform call).2 users' keys' := by
  cases call with
  | create draw commit nickname password =>
      obtain ⟨hresult, users', hafter⟩ := h.create hdraws nickname password
      simp only [Database.perform, Accounts.perform, CommitOutcome.result_snd]
      exact ⟨congrArg CallResult.userId (CommitOutcome.result_fst hresult), users', keys, hafter⟩
  | setPublicKeys draw commit userId elGamalPublicKey dsaPublicKey =>
      obtain ⟨hresult, keys', hafter⟩ :=
        h.setPublicKeys hdraws userId elGamalPublicKey dsaPublicKey
      simp only [Database.perform, Accounts.perform, CommitOutcome.result_snd]
      exact ⟨congrArg CallResult.done (CommitOutcome.result_fst hresult), users, keys', hafter⟩
  | update user commit =>
      cases commit with
      | none => exact ⟨rfl, users, keys, h⟩
      | some commit =>
          obtain ⟨hresult, users', hafter⟩ := h.update user
          simp only [Database.perform, Accounts.perform, CommitOutcome.result_snd]
          exact ⟨congrArg CallResult.done (CommitOutcome.result_fst hresult), users', keys, hafter⟩
  | remove id commit =>
      cases commit with
      | none => exact ⟨rfl, users, keys, h⟩
      | some commit =>
          obtain ⟨hresult, users', keys', hafter⟩ := h.remove id
          simp only [Database.perform, Accounts.perform, CommitOutcome.result_snd]
          exact ⟨congrArg CallResult.done (CommitOutcome.result_fst hresult), users', keys',
            hafter⟩

/-! ### The queries -/

theorem authorize_iff (h : db.Represents accounts users keys) (userId : Int)
    (nickname password : String) :
    db.authorize userId nickname password = true ↔
      accounts.users userId = some (sqlParameter nickname, password) := by
  rw [h.ofUser, Database.authorize, h.userRows, List.find?_map]
  cases hfind : users.find? ((fun row => hasValue usersColumns "id" (.integer userId) row &&
      hasValue usersColumns "nickname" (.text (sqlParameter nickname)) row) ∘ UserRecord.row) with
  | none =>
      refine iff_of_false nofun ?_
      rintro ⟨user, hmem, hid, hnickname, -⟩
      exact absurd (List.find?_eq_none.mp hfind user hmem) (by simp [hid, hnickname])
  | some user =>
      have hmem := List.mem_of_find?_eq_some hfind
      have hfound : user.id = userId ∧ user.nickname = sqlParameter nickname := by
        simpa using List.find?_some hfind
      show decide (password = user.password) = true ↔ _
      rw [decide_eq_true_iff]
      constructor
      · rintro rfl
        exact ⟨user, hmem, hfound.1, hfound.2, rfl⟩
      · rintro ⟨other, hother, hid, -, rfl⟩
        rw [h.uniqueIds.eq_of_mem hother hmem (hid.trans hfound.1.symm)]

theorem getId_eq_iff (h : db.Represents accounts users keys) (nickname : String) {userId : Int}
    (hid : userId ≠ 0) :
    db.getId nickname = userId ↔
      ∃ password, accounts.users userId = some (sqlParameter nickname, password) := by
  have hrows : (∃ password, accounts.users userId = some (sqlParameter nickname, password)) ↔
      ∃ user ∈ users, user.id = userId ∧ user.nickname = sqlParameter nickname := by
    simp only [h.ofUser]
    constructor
    · rintro ⟨_, user, hmem, huser, hnickname, -⟩
      exact ⟨user, hmem, huser, hnickname⟩
    · rintro ⟨user, hmem, huser, hnickname⟩
      exact ⟨user.password, user, hmem, huser, hnickname, rfl⟩
  rw [hrows, Database.getId, h.userRows, List.find?_map]
  cases hfind : users.find? (hasValue usersColumns "nickname" (.text (sqlParameter nickname)) ∘
      UserRecord.row) with
  | none =>
      refine iff_of_false (fun hzero => hid hzero.symm) ?_
      rintro ⟨user, hmem, -, hnickname⟩
      exact absurd (List.find?_eq_none.mp hfind user hmem) (by simp [hnickname])
  | some user =>
      have hmem := List.mem_of_find?_eq_some hfind
      have hfound : user.nickname = sqlParameter nickname := by
        simpa using List.find?_some hfind
      show user.id = userId ↔ _
      constructor
      · intro huser
        exact ⟨user, hmem, huser, hfound⟩
      · rintro ⟨other, hother, huser, hnickname⟩
        rw [← huser, h.uniqueNicknames.eq_of_mem hother hmem (hnickname.trans hfound.symm)]

theorem getPublicKeys_eq (h : db.Represents accounts users keys) (userId : Int) :
    db.getPublicKeys userId =
      (accounts.keys userId).bind fun texts => (readKeys texts.1 texts.2).toOption := by
  rw [Database.getPublicKeys, h.keysRows, List.find?_map]
  cases hfind : keys.find? (hasValue cryptoKeysColumns "user_id" (.integer userId) ∘
      KeysRecord.row) with
  | none =>
      have hnone : accounts.keys userId = none := by
        by_contra hsome
        obtain ⟨record, hmem, huser⟩ := (h.keys_isSome_iff userId).mp hsome
        exact absurd (List.find?_eq_none.mp hfind record hmem) (by simp [huser])
      rw [hnone]
      rfl
  | some record =>
      have hmem := List.mem_of_find?_eq_some hfind
      have hfound : record.userId = userId := by simpa using List.find?_some hfind
      rw [(h.ofKeys userId _ _).mpr ⟨record, hmem, hfound, rfl, rfl⟩]
      have hdsa : Json.readString (.object record.json) "dsa_public_key" =
          .ok record.dsaPublicKey :=
        Json.readString_of_member? (by simp [Json.member?, KeysRecord.json])
      have helGamal : Json.readString (.object record.json) "el_gamal_public_key" =
          .ok record.elGamalPublicKey :=
        Json.readString_of_member? (by simp [Json.member?, KeysRecord.json])
      show (constructUserCryptoKeys (.object record.json)).toOption = _
      rw [constructUserCryptoKeys, hdsa, helGamal]
      rfl

end Database.Represents

/-! ### Runs -/

/-- The calls of a run, one after the other, on the accounts. -/
noncomputable def Accounts.performAll (accounts : Accounts) (calls : List Call) : Accounts :=
  calls.foldl (fun accounts call => (accounts.perform call).2) accounts

/-- The runs of the repository from empty tables, if the ids are drawn from sequences. -/
abbrev RepositoryRun (history : List (Call × Database)) (db : Database) : Prop :=
  Run (fun db call => (db.perform call).2) (fun db call => call.DrawsNew db) Database.empty
    history db

/-- In every run the tables are the map of accounts that the calls should have made: the next call
returns what it should, a user is authorized exactly with a nickname that is its own in front of the
first character 0 and with its password, such a nickname is found exactly for its one user, and keys
are those of a user that is there. -/
theorem repository_refined {history : List (Call × Database)} {db : Database}
    (hrun : RepositoryRun history db) :
    let accounts := Accounts.empty.performAll (history.map (·.1))
    (∀ call : Call, call.DrawsNew db → (db.perform call).1 = (accounts.perform call).1) ∧
      (∀ userId nickname password, db.authorize userId nickname password = true ↔
        accounts.users userId = some (sqlParameter nickname, password)) ∧
      (∀ nickname userId, userId ≠ 0 → (db.getId nickname = userId ↔
        ∃ password, accounts.users userId = some (sqlParameter nickname, password))) ∧
      (∀ userId, db.getPublicKeys userId =
        (accounts.keys userId).bind fun texts => (readKeys texts.1 texts.2).toOption) ∧
      ∀ userId, accounts.keys userId ≠ none → accounts.users userId ≠ none := by
  have hrepresents : ∃ users keys,
      db.Represents (Accounts.empty.performAll (history.map (·.1))) users keys := by
    refine hrun.invariant (I := fun history db => ∃ users keys,
      db.Represents (Accounts.empty.performAll (history.map (·.1))) users keys) ?_ ?_
    · exact ⟨[], [], Database.represents_empty⟩
    · rintro history db call ⟨users, keys, h⟩ hdraws
      rw [List.map_append, Accounts.performAll, List.foldl_append]
      exact (h.perform hdraws).2
  obtain ⟨users, keys, h⟩ := hrepresents
  refine ⟨fun call hdraws => (h.perform hdraws).1, h.authorize_iff,
    fun nickname userId => h.getId_eq_iff nickname, h.getPublicKeys_eq, fun userId hkeys => ?_⟩
  obtain ⟨record, hmem, rfl⟩ := (h.keys_isSome_iff userId).mp hkeys
  exact (h.user_isSome_iff _).mpr (h.owned record hmem)

/-- The creation of a user whose commit is not confirmed: it returns no id, and the user is
authorized all the same, with any nickname that is cut to its own. -/
theorem repository_refined_created :
    let call := Call.create ⟨some 1, "t", "t"⟩ .inDoubt "linus" "secret"
    (Database.empty.perform call).1 = .userId 0 ∧
      ∀ userId nickname password,
        (Database.empty.perform call).2.authorize userId nickname password = true ↔
          userId = 1 ∧ sqlParameter nickname = "linus" ∧ password = "secret" := by
  intro call
  have hdraws : call.DrawsNew .empty := by
    intro id hid
    obtain rfl := Option.some.inj hid
    simp [Database.empty]
  refine ⟨rfl, fun userId nickname password => ?_⟩
  rw [(repository_refined (.snoc call .nil hdraws)).2.1]
  have hnickname : varchar 50 (sqlParameter "linus") = some "linus" := by decide
  have hpassword : varchar 255 (sqlParameter "secret") = some "secret" := by decide
  have hfree : Accounts.empty.Free "linus" 1 := by
    intro id password haccount
    cases haccount
  have husers : (Accounts.empty.performAll [call]).users =
      Function.update Accounts.empty.users 1 (some ("linus", "secret")) := by
    simp only [call, Accounts.performAll, List.foldl_cons, List.foldl_nil, Accounts.perform,
      CommitOutcome.result_snd, Accounts.create, hnickname, hpassword, if_pos hfree]
  show (Accounts.empty.performAll [call]).users userId = _ ↔ _
  rw [husers]
  by_cases huser : userId = 1
  · simp [huser, eq_comm]
  · simp [huser, Accounts.empty]

end Silence.Server
