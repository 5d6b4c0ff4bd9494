import Silence.Common.Timestamp
import Silence.Common.UserFile
import Silence.Server.UserAccounts

/-!
# Silence.Server.UserRows

What comes back of the rows of `users` (`create`, `read` and `update` of
`server/src/user_metadata_repository.cpp`).

`read` takes the way of `from_json`, which leaves both timestamps out; the next `update`
then overwrites them with the epoch. `users_roundTrip_iff` says for which rows and users
nothing is lost. The rows have their columns here as PostgreSQL has them; the tables of
`Database` hold what a query returns of them (`UsersTable.create_toDatabase`,
`UsersTable.update_toDatabase`).
-/

namespace Silence.Server

open Silence.Lib
open Common (User Fields Timestamp formatTimestamp getTime getTime_formatTimestamp toTimeT
  toTimeT_zero)

/-! ### Columns -/

/-- A value of a column `VARCHAR(n)`. The texts of PostgreSQL do not have the character 0. -/
structure Varchar (n : Nat) where
  text : String
  fits : text.length ≤ n
  nonzero : Char.ofNat 0 ∉ text.toList
  deriving DecidableEq

/-- A value of a column `TIMESTAMP WITH TIME ZONE`, in microseconds since the epoch. -/
inductive Instant where
  | finite (micros : Int)
  | infinity
  | minusInfinity
  deriving DecidableEq, Repr

def Instant.ofSeconds (seconds : Int) : Instant := .finite (seconds * 1000000)

/-- The instant to the second, cut off towards zero as by `to_time_t`. -/
def Instant.toSecond : Instant → Instant
  | .finite micros => .ofSeconds (micros.tdiv 1000000)
  | .infinity => .infinity
  | .minusInfinity => .minusInfinity

@[simp] theorem Instant.toSecond_ofSeconds (seconds : Int) :
    (Instant.ofSeconds seconds).toSecond = .ofSeconds seconds := by
  show Instant.ofSeconds ((seconds * 1000000).tdiv 1000000) = .ofSeconds seconds
  rw [Int.mul_tdiv_cancel _ (by decide)]

@[simp] theorem Instant.ofSeconds_inj {seconds seconds' : Int} :
    Instant.ofSeconds seconds = .ofSeconds seconds' ↔ seconds = seconds' := by
  simp [Instant.ofSeconds]

/-- A row of `users`. The timestamps and the flag may be `NULL`. -/
structure UserRow where
  id : Int32
  nickname : Varchar 50
  password : Varchar 255
  registeredTimestamp : Option Instant
  lastOnlineTimestamp : Option Instant
  isOnline : Option Bool
  deriving DecidableEq

/-- The table `users`, with its constraints. -/
structure UsersTable where
  rows : List UserRow
  uniqueIds : rows.Pairwise fun row row' => row.id ≠ row'.id
  uniqueNicknames : rows.Pairwise fun row row' => row.nickname ≠ row'.nickname

/-- What the settings of a session decide: the seconds since the epoch of a local time, and how an
instant is written. -/
structure SqlSession where
  secondsOf : Tm → Int
  display : Instant → String

/-! ### Parameters and results -/

/-- A text as the parameter of a statement: what is in front of the first byte 0, if this is valid
UTF-8. -/
def sqlText (bytes : Bytes) : Option String := String.fromUTF8? ⟨(cString bytes).toArray⟩

/-- The bytes of a text are passed on as the text is. -/
theorem sqlText_bytesOf (text : String) : sqlText (bytesOf text) = some (sqlParameter text) := by
  rw [sqlText, ← bytesOf_sqlParameter, fromUTF8?_bytesOf]

theorem length_le_of_varchar {n : Nat} {text stored : String} (h : varchar n text = some stored) :
    stored.length ≤ n := by
  unfold varchar at h
  split at h
  · cases h
    assumption
  · split at h
    · cases h
      simp
    · cases h

theorem mem_of_varchar {n : Nat} {text stored : String} (h : varchar n text = some stored)
    {c : Char} (hc : c ∈ stored.toList) : c ∈ text.toList := by
  unfold varchar at h
  split at h
  · cases h
    exact hc
  · split at h
    · cases h
      rw [String.toList_ofList] at hc
      exact List.mem_of_mem_take hc
    · cases h

theorem nonzero_of_sqlText {bytes : Bytes} {text : String} (h : sqlText bytes = some text) :
    Char.ofNat 0 ∉ text.toList := by
  rw [← zero_mem_bytesOf, bytesOf_of_fromUTF8? h]
  intro hzero
  exact absurd (List.mem_takeWhile_imp hzero) (by decide)

/-- The value of a column `VARCHAR(n)` that a parameter gives, none if it is refused. -/
def Varchar.ofBytes (n : Nat) (bytes : Bytes) : Option (Varchar n) :=
  match hsql : sqlText bytes with
  | none => none
  | some text =>
      match hvarchar : varchar n text with
      | none => none
      | some stored => some ⟨stored, length_le_of_varchar hvarchar, fun hzero =>
          nonzero_of_sqlText hsql (mem_of_varchar hvarchar hzero)⟩

/-- A text is stored as the column has it. -/
theorem Varchar.text_ofBytes (n : Nat) (text : String) :
    (Varchar.ofBytes n (bytesOf text)).map Varchar.text = varchar n (sqlParameter text) := by
  unfold Varchar.ofBytes
  split
  · rename_i hnone
    rw [sqlText_bytesOf] at hnone
    cases hnone
  · rename_i parameter hparameter
    obtain rfl := Option.some.inj ((sqlText_bytesOf text).symm.trans hparameter)
    split
    · rename_i hnone
      rw [hnone]
      rfl
    · rename_i stored hstored
      exact hstored.symm

theorem Varchar.text_injective {n : Nat} : Function.Injective (@Varchar.text n) := by
  intro value value' h
  cases value
  cases value'
  cases h
  rfl

/-- A value of the column is stored as it is. -/
theorem Varchar.ofBytes_bytesOf {n : Nat} (value : Varchar n) :
    Varchar.ofBytes n (bytesOf value.text) = some value := by
  have htext := Varchar.text_ofBytes n value.text
  rw [sqlParameter_of_notMem value.nonzero, varchar, if_pos value.fits] at htext
  obtain ⟨stored, hstored, hsame⟩ := Option.map_eq_some_iff.mp htext
  rw [hstored, Varchar.text_injective hsame]

/-! ### The statements -/

/-- The instant of a literal in the format of the repository, in the time zone of the session. -/
def SqlSession.instantOf (s : SqlSession) (literal : Bytes) : Instant :=
  .ofSeconds (s.secondsOf (getTime literal))

/-- The row that `INSERT` or `UPDATE` makes of a user; none if a text is refused. -/
def UserRow.ofUser (s : SqlSession) (id : Int32) (user : User) : Option UserRow := do
  let nickname ← Varchar.ofBytes 50 user.nickname
  let password ← Varchar.ofBytes 255 user.password
  return { id := id, nickname := nickname, password := password,
           registeredTimestamp := some (s.instantOf (formatTimestamp user.registeredTimestamp)),
           lastOnlineTimestamp := some (s.instantOf (formatTimestamp user.lastOnlineTimestamp)),
           isOnline := some user.online }

/-- The row goes in if its id and its nickname are free. -/
def UsersTable.insert (users : UsersTable) (row : UserRow) : Option UsersTable :=
  if hfree : ∀ row' ∈ users.rows, row'.id ≠ row.id ∧ row'.nickname ≠ row.nickname then
    some { rows := users.rows ++ [row]
           uniqueIds := List.pairwise_append.mpr ⟨users.uniqueIds, List.pairwise_singleton _ _,
             fun row' hrow' _ hrow => List.mem_singleton.mp hrow ▸ (hfree row' hrow').1⟩
           uniqueNicknames := List.pairwise_append.mpr ⟨users.uniqueNicknames,
             List.pairwise_singleton _ _,
             fun row' hrow' _ hrow => List.mem_singleton.mp hrow ▸ (hfree row' hrow').2⟩ }
  else none

/-- The row in the place of the one with its id. -/
def UserRow.replacing (row old : UserRow) : UserRow := if old.id = row.id then row else old

@[simp] theorem UserRow.replacing_id (row old : UserRow) : (row.replacing old).id = old.id := by
  unfold UserRow.replacing
  split
  · rename_i hid
    exact hid.symm
  · rfl

/-- The row takes the place of the one with its id if its nickname is free. -/
def UsersTable.replace (users : UsersTable) (row : UserRow) : Option UsersTable :=
  if hfree : ∀ old ∈ users.rows, old.id ≠ row.id → old.nickname ≠ row.nickname then
    some { rows := users.rows.map row.replacing
           uniqueIds := by
             rw [List.pairwise_map]
             simpa using users.uniqueIds
           uniqueNicknames := by
             rw [List.pairwise_map]
             refine (users.uniqueIds.and users.uniqueNicknames).imp_of_mem ?_
             intro old old' hold hold' hne
             unfold UserRow.replacing
             split
             · rename_i hid
               rw [if_neg fun hid' => hne.1 (hid.trans hid'.symm)]
               exact (hfree old' hold' fun hid' => hne.1 (hid.trans hid'.symm)).symm
             · rename_i hid
               split
               · exact hfree old hold hid
               · exact hne.2 }
  else none

/-- `UserMetadataRepository::create`. The id is drawn from a sequence, none if the transaction is
not carried out. -/
def UsersTable.create (s : SqlSession) (users : UsersTable) (drawn : Option Int32) (user : User) :
    Int32 × UsersTable :=
  match drawn with
  | none => (0, users)
  | some id =>
      match (UserRow.ofUser s id user).bind users.insert with
      | none => (0, users)
      | some users' => (id, users')

/-- `UserMetadataRepository::update`. -/
def UsersTable.update (s : SqlSession) (users : UsersTable) (user : User) : Bool × UsersTable :=
  if users.rows.any (·.id = user.id) then
    match (UserRow.ofUser s user.id user).bind users.replace with
    | none => (false, users)
    | some users' => (true, users')
  else (false, users)

/-- A value of the result, in its text format. -/
def SqlSession.timestamp (s : SqlSession) : Option Instant → Value
  | none => .null
  | some instant => .text (s.display instant)

def flagValue : Option Bool → Value
  | none => .null
  | some flag => .boolean flag

/-- The row as it is returned by `SELECT *`. -/
def UserRow.result (s : SqlSession) (row : UserRow) : Row := [.integer row.id.toInt,
  .text row.nickname.text, .text row.password.text, s.timestamp row.registeredTimestamp,
  s.timestamp row.lastOnlineTimestamp, flagValue row.isOnline]

/-- `construct_user` on the object of a result. -/
def constructUser (result : Row) : Option User := do
  let json ← pqxxUsersResultToJson result
  (User.fromJson (.ofMembers json)).toOption

/-- `UserMetadataRepository::read`. -/
def UsersTable.read (s : SqlSession) (users : UsersTable) (id : Int32) : Option User :=
  (users.rows.find? (·.id = id)).bind fun row => constructUser (row.result s)

/-! ### What the queries return -/

/-- The table as the queries return it, beside the one of the keys. -/
def UsersTable.toDatabase (s : SqlSession) (users : UsersTable) (cryptoKeys : List Row) :
    Database where
  users := users.rows.map (UserRow.result s)
  cryptoKeys := cryptoKeys

/-- What the transaction that creates a user draws. -/
def SqlSession.draw (s : SqlSession) (drawn : Option Int32) (user : User) : Draw where
  id := drawn.map Int32.toInt
  timestamp := s.display (s.instantOf (formatTimestamp user.registeredTimestamp))
  lastOnlineTimestamp := s.display (s.instantOf (formatTimestamp user.lastOnlineTimestamp))

/-- The values that `update` gets of a user with these texts. -/
def SqlSession.record (s : SqlSession) (user : User) (nickname password : String) :
    UserRecord where
  id := user.id.toInt
  nickname := nickname
  password := password
  registeredTimestamp := s.display (s.instantOf (formatTimestamp user.registeredTimestamp))
  lastOnlineTimestamp := s.display (s.instantOf (formatTimestamp user.lastOnlineTimestamp))
  isOnline := user.online

@[simp] theorem hasValue_id_result (s : SqlSession) (row : UserRow) (id : Int32) :
    hasValue usersColumns "id" (.integer id.toInt) (row.result s) = decide (row.id = id) := by
  simp [hasValue, Row.column, UserRow.result, usersColumns, Int32.toInt_inj]

@[simp] theorem hasValue_nickname_result (s : SqlSession) (row : UserRow) (nickname : Varchar 50) :
    hasValue usersColumns "nickname" (.text nickname.text) (row.result s) =
      decide (row.nickname = nickname) := by
  simp [hasValue, Row.column, UserRow.result, usersColumns, Varchar.text_injective.eq_iff]

section

variable (s : SqlSession) (users : UsersTable) (cryptoKeys : List Row) (row : UserRow)

/-- The constraints of the columns are those of the table. -/
theorem UsersTable.taken_iff :
    ((users.toDatabase s cryptoKeys).users.any
          (hasValue usersColumns "id" (.integer row.id.toInt)) ||
        (users.toDatabase s cryptoKeys).users.any
          (hasValue usersColumns "nickname" (.text row.nickname.text))) = true ↔
      ¬ ∀ row' ∈ users.rows, row'.id ≠ row.id ∧ row'.nickname ≠ row.nickname := by
  simp only [UsersTable.toDatabase, List.any_map, Bool.or_eq_true, List.any_eq_true,
    Function.comp_apply, hasValue_id_result, hasValue_nickname_result, decide_eq_true_iff,
    not_forall]
  grind

theorem UsersTable.takenByOther_iff {id : Int32} (hid : row.id = id) :
    (users.toDatabase s cryptoKeys).users.any (fun result =>
        hasValue usersColumns "nickname" (.text row.nickname.text) result &&
          !hasValue usersColumns "id" (.integer id.toInt) result) = true ↔
      ¬ ∀ old ∈ users.rows, old.id ≠ row.id → old.nickname ≠ row.nickname := by
  simp only [UsersTable.toDatabase, List.any_map, List.any_eq_true, Function.comp_apply,
    hasValue_id_result, hasValue_nickname_result, hid]
  grind

end

/-- The row of a user, as a query returns it. -/
theorem UserRow.result_ofUser (s : SqlSession) (id : Int32) {user : User}
    {nickname password : String} (hnickname : user.nickname = bytesOf nickname)
    (hpassword : user.password = bytesOf password) :
    (UserRow.ofUser s id user = none ∧ (varchar 50 (sqlParameter nickname) = none ∨
        varchar 255 (sqlParameter password) = none)) ∨
      ∃ row, UserRow.ofUser s id user = some row ∧ row.id = id ∧
        varchar 50 (sqlParameter nickname) = some row.nickname.text ∧
        varchar 255 (sqlParameter password) = some row.password.text ∧
        row.result s = [.integer id.toInt, .text row.nickname.text, .text row.password.text,
          .text (s.display (s.instantOf (formatTimestamp user.registeredTimestamp))),
          .text (s.display (s.instantOf (formatTimestamp user.lastOnlineTimestamp))),
          .boolean user.online] := by
  rw [← Varchar.text_ofBytes, ← Varchar.text_ofBytes, ← hnickname, ← hpassword]
  unfold UserRow.ofUser
  cases Varchar.ofBytes 50 user.nickname with
  | none => exact .inl ⟨rfl, .inl rfl⟩
  | some nickname =>
      cases Varchar.ofBytes 255 user.password with
      | none => exact .inl ⟨rfl, .inr rfl⟩
      | some password => exact .inr ⟨_, rfl, rfl, rfl, rfl, rfl⟩

/-- Creating a user is `create` on what the queries return. `handle_register` makes users that are
online. -/
theorem UsersTable.create_toDatabase (s : SqlSession) (users : UsersTable)
    (cryptoKeys : List Row) (drawn : Option Int32) {user : User} {nickname password : String}
    (hnickname : user.nickname = bytesOf nickname) (hpassword : user.password = bytesOf password)
    (honline : user.online = true) :
    (users.toDatabase s cryptoKeys).create (s.draw drawn user) nickname password =
      ((users.create s drawn user).1.toInt,
        (users.create s drawn user).2.toDatabase s cryptoKeys) := by
  cases drawn with
  | none => rfl
  | some id =>
      unfold Database.create UsersTable.create
      rcases UserRow.result_ofUser s id hnickname hpassword with
        ⟨hrow, hrefused⟩ | ⟨row, hrow, rfl, hfits, hfits', hresult⟩
      · rcases hrefused with h | h <;> simp [hrow, h, SqlSession.draw]
      · have htaken := users.taken_iff s cryptoKeys row
        simp only [SqlSession.draw, Option.map_some, hfits, hfits', hrow, Option.bind_some,
          UsersTable.insert]
        by_cases hfree : ∀ row' ∈ users.rows, row'.id ≠ row.id ∧ row'.nickname ≠ row.nickname
        · rw [if_neg (mt htaken.mp (not_not_intro hfree)), dif_pos hfree]
          simp only [UsersTable.toDatabase, List.map_append, List.map_cons, List.map_nil, hresult,
            honline]
          rfl
        · rw [if_pos (htaken.mpr hfree), dif_neg hfree]
          rfl

/-- Updating a user is `update` on what the queries return. -/
theorem UsersTable.update_toDatabase (s : SqlSession) (users : UsersTable)
    (cryptoKeys : List Row) {user : User} {nickname password : String}
    (hnickname : user.nickname = bytesOf nickname) (hpassword : user.password = bytesOf password) :
    (users.toDatabase s cryptoKeys).update (s.record user nickname password) =
      ((users.update s user).1, (users.update s user).2.toDatabase s cryptoKeys) := by
  have hthere : (users.toDatabase s cryptoKeys).users.any
      (hasValue usersColumns "id" (.integer user.id.toInt)) =
        users.rows.any (·.id = user.id) := by
    simp only [UsersTable.toDatabase, List.any_map]
    exact congrArg (List.any users.rows) (funext fun row => hasValue_id_result s row user.id)
  unfold Database.update UsersTable.update
  rcases UserRow.result_ofUser s user.id hnickname hpassword with
    ⟨hrow, hrefused⟩ | ⟨row, hrow, hid, hfits, hfits', hresult⟩
  · rcases hrefused with h | h <;> simp [hrow, h, SqlSession.record]
  · simp only [SqlSession.record, hfits, hfits', hrow, hthere, Option.bind_some]
    cases users.rows.any (·.id = user.id) with
    | false => rfl
    | true =>
        have htaken := users.takenByOther_iff s cryptoKeys row hid
        rw [Bool.not_true, Bool.false_or, if_pos rfl, UsersTable.replace]
        by_cases hfree : ∀ old ∈ users.rows, old.id ≠ row.id → old.nickname ≠ row.nickname
        · rw [if_neg (mt htaken.mp (not_not_intro hfree)), dif_pos hfree]
          refine congrArg (fun rows => (true, Database.mk rows cryptoKeys)) ?_
          show (users.rows.map (UserRow.result s)).map _ =
            (users.rows.map row.replacing).map (UserRow.result s)
          rw [List.map_map, List.map_map]
          refine List.map_congr_left fun old _ => ?_
          show (if hasValue usersColumns "id" (.integer user.id.toInt) (old.result s) then _
            else old.result s) = (row.replacing old).result s
          rw [hasValue_id_result, UserRow.replacing, hid]
          by_cases hsame : old.id = user.id
          · rw [if_pos (decide_eq_true hsame), if_pos hsame, hresult]
            rfl
          · rw [if_neg (by simpa using hsame), if_neg hsame]
        · rw [if_pos (htaken.mpr hfree), dif_neg hfree]

/-! ### Round trips -/

/-- The user has all the columns of the row, the timestamps to the second. -/
structure UserRow.IsColumnsOf (row : UserRow) (user : User) : Prop where
  id : user.id = row.id
  nickname : user.nickname = bytesOf row.nickname.text
  password : user.password = bytesOf row.password.text
  registeredTimestamp : row.registeredTimestamp.map Instant.toSecond =
    some (Instant.ofSeconds (toTimeT user.registeredTimestamp))
  lastOnlineTimestamp : row.lastOnlineTimestamp.map Instant.toSecond =
    some (Instant.ofSeconds (toTimeT user.lastOnlineTimestamp))
  online : row.isOnline = some user.online

/-- The rows are equal, their timestamps to the second. -/
structure UserRow.Agrees (row row' : UserRow) : Prop where
  id : row'.id = row.id
  nickname : row'.nickname = row.nickname
  password : row'.password = row.password
  registeredTimestamp :
    row'.registeredTimestamp.map Instant.toSecond = row.registeredTimestamp.map Instant.toSecond
  lastOnlineTimestamp :
    row'.lastOnlineTimestamp.map Instant.toSecond = row.lastOnlineTimestamp.map Instant.toSecond
  isOnline : row'.isOnline = row.isOnline

/-- Reading the row gives all its columns, and writing what was read leaves the table as it is. -/
def UsersTable.Keeps (s : SqlSession) (users : UsersTable) (row : UserRow) : Prop :=
  ∃ user, users.read s row.id = some user ∧ row.IsColumnsOf user ∧
    List.Forall₂ UserRow.Agrees users.rows (users.update s user).2.rows

/-- The texts, the timestamps to the second and the flag of both users are equal. -/
structure GivenBack (user user' : User) : Prop where
  nickname : user'.nickname = user.nickname
  password : user'.password = user.password
  registeredTimestamp : toTimeT user'.registeredTimestamp = toTimeT user.registeredTimestamp
  lastOnlineTimestamp : toTimeT user'.lastOnlineTimestamp = toTimeT user.lastOnlineTimestamp
  online : user'.online = user.online

/-- The user that was created can be read back. -/
def UsersTable.GivesBack (s : SqlSession) (users : UsersTable) (drawn : Option Int32)
    (user : User) : Prop :=
  ∃ user', (users.create s drawn user).2.read s (users.create s drawn user).1 = some user' ∧
    GivenBack user user'

/-- The session takes midnight of 1970-01-01 for the epoch. -/
def SqlSession.InUtc (s : SqlSession) : Prop := s.secondsOf (gmtime 0) = 0

/-- The condition on a row: it has both timestamps, which are in the second of the epoch, and its
flag. -/
structure UserRow.AtEpoch (row : UserRow) : Prop where
  registeredTimestamp : row.registeredTimestamp.map Instant.toSecond = some (Instant.ofSeconds 0)
  lastOnlineTimestamp : row.lastOnlineTimestamp.map Instant.toSecond = some (Instant.ofSeconds 0)
  isOnline : row.isOnline.isSome

/-- The condition on a new user: both timestamps are in the second of the epoch, and the columns can
have the texts as they are. -/
structure Storable (user : User) : Prop where
  nickname : ∃ value : Varchar 50, bytesOf value.text = user.nickname
  password : ∃ value : Varchar 255, bytesOf value.text = user.password
  registeredTimestamp : toTimeT user.registeredTimestamp = 0
  lastOnlineTimestamp : toTimeT user.lastOnlineTimestamp = 0

/-! ### Reading -/

/-- The columns that `read` gives back. -/
def UserRow.untimed (row : UserRow) (online : Bool) : User where
  id := row.id
  nickname := bytesOf row.nickname.text
  password := bytesOf row.password.text
  registeredTimestamp := 0
  lastOnlineTimestamp := 0
  online := online

/-- The user that `read` makes of a row, whatever its timestamps are. -/
def UserRow.user? (row : UserRow) : Option User := do
  let _ ← row.registeredTimestamp
  let _ ← row.lastOnlineTimestamp
  return row.untimed (← row.isOnline)

theorem UserRow.user?_eq_some {row : UserRow} {user : User} (h : row.user? = some user) :
    user = row.untimed user.online ∧ row.isOnline = some user.online := by
  unfold UserRow.user? at h
  obtain ⟨registered, -, h⟩ := Option.bind_eq_some_iff.mp h
  obtain ⟨lastOnline, -, h⟩ := Option.bind_eq_some_iff.mp h
  obtain ⟨online, honline, h⟩ := Option.bind_eq_some_iff.mp h
  obtain rfl := Option.some.inj h
  exact ⟨rfl, honline⟩

/-- What `from_json` reads from the object of a row. -/
theorem fromJson_columns (row : UserRow) (registered lastOnline : String) (online : Bool) :
    (User.fromJson (.ofMembers (Json.Members.ofList [("id", .number row.id.toInt),
      ("nickname", .string row.nickname.text), ("password", .string row.password.text),
      ("registered_timestamp", .string registered), ("last_online_timestamp", .string lastOnline),
      ("online", .boolean ((if online then "t" else "f") = "t"))]))).toOption =
    some (row.untimed online) := by
  have hat : ∀ (members : Json.Members) key value, members.lookup key = some value →
      (Fields.ofMembers (.ofList members)).at? key = .ok (.json value) := by
    intro members key value hlookup
    exact Common.Fields.at?_ofMembers (by rwa [Json.lookup_ofList])
  have hid : (Common.Value.json (.number row.id.toInt)).getInt = .ok row.id :=
    Common.Value.getInt_ofInt row.id
  rw [User.fromJson, hat _ "id" _ rfl, hat _ "nickname" _ rfl, hat _ "password" _ rfl,
    hat _ "online" _ rfl]
  simp only [bind, Except.bind, hid]
  cases online <;> rfl

/-- The object of a row that has all its columns. -/
theorem pqxxUsersResultToJson_result {s : SqlSession} {row : UserRow}
    {registered lastOnline : Instant} {online : Bool}
    (hregistered : row.registeredTimestamp = some registered)
    (hlastOnline : row.lastOnlineTimestamp = some lastOnline)
    (honline : row.isOnline = some online) :
    pqxxUsersResultToJson (row.result s) = some (Json.Members.ofList [
      ("id", .number row.id.toInt), ("nickname", .string row.nickname.text),
      ("password", .string row.password.text),
      ("registered_timestamp", .string (s.display registered)),
      ("last_online_timestamp", .string (s.display lastOnline)),
      ("online", .boolean ((if online then "t" else "f") = "t"))]) := by
  unfold UserRow.result pqxxUsersResultToJson
  rw [hregistered, hlastOnline, honline]
  simp [Row.asInt, Row.asString, SqlSession.timestamp, flagValue]

/-- The texts of the timestamps get lost. -/
theorem constructUser_result (s : SqlSession) (row : UserRow) :
    constructUser (row.result s) = row.user? := by
  obtain ⟨id, nickname, password, registeredTimestamp, lastOnlineTimestamp, isOnline⟩ := row
  cases registeredTimestamp with
  | none => rfl
  | some registered =>
      cases lastOnlineTimestamp with
      | none => rfl
      | some lastOnline =>
          cases isOnline with
          | none => rfl
          | some online =>
              rw [constructUser, pqxxUsersResultToJson_result rfl rfl rfl, Option.bind_eq_bind,
                Option.bind_some]
              exact fromJson_columns _ (s.display registered) (s.display lastOnline) online

section

variable {users : UsersTable} {row : UserRow}

theorem UsersTable.eq_of_id (hrow : row ∈ users.rows) {row' : UserRow} (hrow' : row' ∈ users.rows)
    (hid : row'.id = row.id) : row' = row := by
  by_contra hne
  have hsymm : Std.Symm fun row row' : UserRow => row.id ≠ row'.id := ⟨fun _ _ => Ne.symm⟩
  exact users.uniqueIds.forall hrow' hrow hne hid

theorem UsersTable.read_of_mem (s : SqlSession) (hrow : row ∈ users.rows) :
    users.read s row.id = row.user? := by
  have hfind : users.rows.find? (·.id = row.id) = some row := by
    cases hfind : users.rows.find? (·.id = row.id) with
    | none => exact absurd (decide_eq_true rfl) (List.find?_eq_none.mp hfind row hrow)
    | some row' =>
        have hid : row'.id = row.id := by simpa using List.find?_some hfind
        rw [UsersTable.eq_of_id hrow (List.mem_of_find?_eq_some hfind) hid]
  unfold UsersTable.read
  rw [hfind]
  exact constructUser_result s row

/-! ### Writing -/

/-- The row after the user that was read from it is written back. -/
def UserRow.overwritten (s : SqlSession) (row : UserRow) : UserRow :=
  { row with
    registeredTimestamp := some (.ofSeconds (s.secondsOf (gmtime 0)))
    lastOnlineTimestamp := some (.ofSeconds (s.secondsOf (gmtime 0))) }

theorem UserRow.ofUser_of_user? (s : SqlSession) {user : User} (h : row.user? = some user) :
    UserRow.ofUser s user.id user = some (row.overwritten s) := by
  obtain ⟨huser, honline⟩ := UserRow.user?_eq_some h
  have hliteral : s.instantOf (formatTimestamp 0) = .ofSeconds (s.secondsOf (gmtime 0)) := by
    rw [SqlSession.instantOf, getTime_formatTimestamp]
    rfl
  rw [huser]
  unfold UserRow.ofUser
  simp only [UserRow.untimed, Varchar.ofBytes_bytesOf, hliteral]
  rw [← honline]
  rfl

/-- The update overwrites the row. -/
theorem UsersTable.update_of_mem (s : SqlSession) (hrow : row ∈ users.rows) {user : User}
    (h : row.user? = some user) :
    (users.update s user).2.rows = users.rows.map (row.overwritten s).replacing := by
  have hid : user.id = row.id := by rw [(UserRow.user?_eq_some h).1, UserRow.untimed]
  have hany : users.rows.any (·.id = user.id) = true :=
    List.any_eq_true.mpr ⟨row, hrow, decide_eq_true hid.symm⟩
  have hfree : ∀ old ∈ users.rows, old.id ≠ (row.overwritten s).id →
      old.nickname ≠ (row.overwritten s).nickname := by
    intro old hold hne
    have hsymm : Std.Symm fun row row' : UserRow => row.nickname ≠ row'.nickname :=
      ⟨fun _ _ => Ne.symm⟩
    have hother : old ≠ row := fun hsame => hne (hsame ▸ rfl)
    have hnickname : old.nickname ≠ row.nickname := users.uniqueNicknames.forall hold hrow hother
    exact hnickname
  unfold UsersTable.update
  rw [if_pos hany, UserRow.ofUser_of_user? s h, Option.bind_some, UsersTable.replace, dif_pos hfree]

/-- Only the row itself can change. -/
theorem UsersTable.forall₂_replacing_iff (hrow : row ∈ users.rows) {new : UserRow}
    (hid : new.id = row.id) :
    List.Forall₂ UserRow.Agrees users.rows (users.rows.map new.replacing) ↔ row.Agrees new := by
  rw [List.forall₂_map_right_iff, List.forall₂_same]
  constructor
  · intro h
    have hnew := h row hrow
    rwa [UserRow.replacing, if_pos hid.symm] at hnew
  · intro h old hold
    unfold UserRow.replacing
    split
    · rename_i hsame
      rwa [UsersTable.eq_of_id hrow hold (hsame.trans hid)]
    · exact ⟨rfl, rfl, rfl, rfl, rfl, rfl⟩

theorem UserRow.agrees_overwritten_iff (s : SqlSession) :
    row.Agrees (row.overwritten s) ↔
      row.registeredTimestamp.map Instant.toSecond =
          some (Instant.ofSeconds (s.secondsOf (gmtime 0))) ∧
        row.lastOnlineTimestamp.map Instant.toSecond =
          some (Instant.ofSeconds (s.secondsOf (gmtime 0))) := by
  constructor
  · intro h
    have hregistered := h.registeredTimestamp
    have honline := h.lastOnlineTimestamp
    simp only [UserRow.overwritten, Option.map_some, Instant.toSecond_ofSeconds]
      at hregistered honline
    exact ⟨hregistered.symm, honline.symm⟩
  · intro h
    refine ⟨rfl, rfl, rfl, ?_, ?_, rfl⟩
    · rw [h.1]
      simp [UserRow.overwritten]
    · rw [h.2]
      simp [UserRow.overwritten]

theorem UserRow.isColumnsOf_iff {user : User} (h : row.user? = some user) :
    row.IsColumnsOf user ↔
      row.registeredTimestamp.map Instant.toSecond = some (Instant.ofSeconds 0) ∧
        row.lastOnlineTimestamp.map Instant.toSecond = some (Instant.ofSeconds 0) := by
  obtain ⟨huser, honline⟩ := UserRow.user?_eq_some h
  have hregistered : toTimeT user.registeredTimestamp = 0 := by
    rw [huser]
    exact toTimeT_zero
  have hlastOnline : toTimeT user.lastOnlineTimestamp = 0 := by
    rw [huser]
    exact toTimeT_zero
  constructor
  · intro hcolumns
    have hfirst := hcolumns.registeredTimestamp
    have hlast := hcolumns.lastOnlineTimestamp
    rw [hregistered] at hfirst
    rw [hlastOnline] at hlast
    exact ⟨hfirst, hlast⟩
  · intro htimes
    refine ⟨?_, ?_, ?_, ?_, ?_, honline⟩
    · rw [huser, UserRow.untimed]
    · rw [huser, UserRow.untimed]
    · rw [huser, UserRow.untimed]
    · rw [hregistered]
      exact htimes.1
    · rw [hlastOnline]
      exact htimes.2

/-- A row is kept if and only if it has the times that `read` makes up. -/
theorem UsersTable.keeps_iff (s : SqlSession) (hrow : row ∈ users.rows) :
    users.Keeps s row ↔ row.AtEpoch ∧ s.InUtc := by
  have hrewritten : ∀ {user}, row.user? = some user →
      (List.Forall₂ UserRow.Agrees users.rows (users.update s user).2.rows ↔
        row.Agrees (row.overwritten s)) := by
    intro user huser
    rw [users.update_of_mem s hrow huser]
    exact UsersTable.forall₂_replacing_iff hrow rfl
  unfold UsersTable.Keeps
  rw [users.read_of_mem s hrow]
  constructor
  · intro h
    obtain ⟨user, huser, hcolumns, hrows⟩ := h
    have hflag : row.isOnline.isSome := by rw [(UserRow.user?_eq_some huser).2, Option.isSome_some]
    rw [UserRow.isColumnsOf_iff huser] at hcolumns
    rw [hrewritten huser, UserRow.agrees_overwritten_iff] at hrows
    have hutc := hrows.1
    rw [hcolumns.1] at hutc
    exact ⟨⟨hcolumns.1, hcolumns.2, hflag⟩, (Instant.ofSeconds_inj.mp (Option.some.inj hutc)).symm⟩
  · intro h
    obtain ⟨⟨hregistered, hlastOnline, hflag⟩, hutc⟩ := h
    obtain ⟨registered, hsome, -⟩ := Option.map_eq_some_iff.mp hregistered
    obtain ⟨lastOnline, hsome', -⟩ := Option.map_eq_some_iff.mp hlastOnline
    obtain ⟨online, honline⟩ := Option.isSome_iff_exists.mp hflag
    have huser : row.user? = some (row.untimed online) := by
      rw [UserRow.user?, hsome, hsome', honline]
      rfl
    refine ⟨_, huser, ?_, ?_⟩
    · exact (UserRow.isColumnsOf_iff huser).mpr ⟨hregistered, hlastOnline⟩
    · rw [hrewritten huser, UserRow.agrees_overwritten_iff, hutc]
      exact ⟨hregistered, hlastOnline⟩

/-! ### Creating -/

theorem UserRow.ofUser_eq_some {s : SqlSession} {id : Int32} {user : User}
    (h : UserRow.ofUser s id user = some row) :
    Varchar.ofBytes 50 user.nickname = some row.nickname ∧
      Varchar.ofBytes 255 user.password = some row.password ∧ row.id = id ∧
      row.user? = some (row.untimed user.online) := by
  unfold UserRow.ofUser at h
  obtain ⟨nickname, hnickname, h⟩ := Option.bind_eq_some_iff.mp h
  obtain ⟨password, hpassword, h⟩ := Option.bind_eq_some_iff.mp h
  obtain rfl := Option.some.inj h
  exact ⟨hnickname, hpassword, rfl, rfl⟩

theorem UsersTable.mem_of_insert {users' : UsersTable} (h : users.insert row = some users') :
    row ∈ users'.rows := by
  unfold UsersTable.insert at h
  split at h
  · obtain rfl := Option.some.inj h
    simp
  · cases h

/-- A user that is created is read back without its timestamps, with the texts of its row. -/
theorem UsersTable.read_create {s : SqlSession} {drawn : Option Int32} {user : User}
    (h : (users.create s drawn user).1 ≠ 0) :
    ∃ row : UserRow, Varchar.ofBytes 50 user.nickname = some row.nickname ∧
      Varchar.ofBytes 255 user.password = some row.password ∧
      (users.create s drawn user).2.read s (users.create s drawn user).1 =
        some (row.untimed user.online) := by
  cases drawn with
  | none => exact absurd rfl h
  | some id =>
      unfold UsersTable.create at h ⊢
      dsimp only at h ⊢
      cases hinserted : (UserRow.ofUser s id user).bind users.insert with
      | none =>
          rw [hinserted] at h
          exact absurd rfl h
      | some users' =>
          obtain ⟨row, hrow, hinsert⟩ := Option.bind_eq_some_iff.mp hinserted
          obtain ⟨hnickname, hpassword, hid, huser⟩ := UserRow.ofUser_eq_some hrow
          refine ⟨row, hnickname, hpassword, ?_⟩
          have hread := users'.read_of_mem s (UsersTable.mem_of_insert hinsert)
          rwa [hid, huser] at hread

/-- A text comes back exactly if the column can have it. -/
theorem Varchar.bytesOf_eq_iff {n : Nat} {bytes : Bytes} {stored : Varchar n}
    (h : Varchar.ofBytes n bytes = some stored) :
    bytesOf stored.text = bytes ↔ ∃ value : Varchar n, bytesOf value.text = bytes := by
  constructor
  · intro hsame
    exact ⟨stored, hsame⟩
  · intro hvalue
    obtain ⟨value, rfl⟩ := hvalue
    rw [Varchar.ofBytes_bytesOf] at h
    rw [Option.some.inj h]

/-- A user that is created comes back if and only if it has no times, and texts that fit. -/
theorem UsersTable.givesBack_iff {s : SqlSession} {drawn : Option Int32} {user : User}
    (h : (users.create s drawn user).1 ≠ 0) :
    users.GivesBack s drawn user ↔ Storable user := by
  obtain ⟨row, hnickname, hpassword, hread⟩ := UsersTable.read_create h
  unfold UsersTable.GivesBack
  rw [hread]
  constructor
  · intro hback
    obtain ⟨user', huser', hback⟩ := hback
    obtain rfl := Option.some.inj huser'
    refine ⟨?_, ?_, ?_, ?_⟩
    · exact (Varchar.bytesOf_eq_iff hnickname).mp hback.nickname
    · exact (Varchar.bytesOf_eq_iff hpassword).mp hback.password
    · exact hback.registeredTimestamp.symm.trans toTimeT_zero
    · exact hback.lastOnlineTimestamp.symm.trans toTimeT_zero
  · intro hstorable
    refine ⟨_, rfl, ?_, ?_, ?_, ?_, rfl⟩
    · exact (Varchar.bytesOf_eq_iff hnickname).mpr hstorable.nickname
    · exact (Varchar.bytesOf_eq_iff hpassword).mpr hstorable.password
    · exact toTimeT_zero.trans hstorable.registeredTimestamp.symm
    · exact toTimeT_zero.trans hstorable.lastOnlineTimestamp.symm

end

/-- What is kept of the rows that are there, and of the users that are created. -/
theorem users_roundTrip_iff (s : SqlSession) (users : UsersTable) :
    (∀ row ∈ users.rows, (users.Keeps s row ↔ row.AtEpoch ∧ s.InUtc)) ∧
      ∀ drawn user, (users.create s drawn user).1 ≠ 0 →
        (users.GivesBack s drawn user ↔ Storable user) :=
  ⟨fun _ hrow => users.keeps_iff s hrow, fun _ _ h => UsersTable.givesBack_iff h⟩

/-! ### A user of the tests -/

/-- A session in UTC. How it writes an instant does not matter. -/
def utcSession : SqlSession := ⟨timegm, fun _ => ""⟩

/-- The row of the user with the id 1, with one time for both columns. -/
def linusRow (registered : Int) : UserRow where
  id := 1
  nickname := ⟨"linus_torvalds", by decide, by decide⟩
  password := ⟨"linus_torvalds_pass", by decide, by decide⟩
  registeredTimestamp := some (.ofSeconds registered)
  lastOnlineTimestamp := some (.ofSeconds registered)
  isOnline := some true

def linusTable (registered : Int) : UsersTable :=
  ⟨[linusRow registered], List.pairwise_singleton _ _, List.pairwise_singleton _ _⟩

/-- Its times, in September 2024, are read as the epoch; the update writes the epoch. -/
theorem linus_overwritten :
    (linusTable 1727521200).read utcSession 1 = some ((linusRow 1727521200).untimed true) ∧
      ((linusTable 1727521200).update utcSession ((linusRow 1727521200).untimed true)).2.rows =
        [linusRow 0] ∧
      ¬ (linusTable 1727521200).Keeps utcSession (linusRow 1727521200) := by
  have hmem : linusRow 1727521200 ∈ (linusTable 1727521200).rows := List.mem_singleton.mpr rfl
  refine ⟨UsersTable.read_of_mem utcSession hmem, ?_, ?_⟩
  · rw [UsersTable.update_of_mem utcSession hmem rfl]
    have hseconds : utcSession.secondsOf (gmtime 0) = 0 := timegm_gmtime 0
    simp [UserRow.overwritten, UserRow.replacing, linusTable, linusRow, hseconds]
  · rw [UsersTable.keeps_iff utcSession hmem]
    intro h
    have hfirst := h.1.registeredTimestamp
    simp [linusRow] at hfirst

/-- A new user without times. -/
def untimedUser : User where
  id := 0
  nickname := bytesOf "tux"
  password := bytesOf "tux_pass"
  registeredTimestamp := 0
  lastOnlineTimestamp := 0
  online := false

/-- With the epoch for a time the row stays as it is, and a new user comes back. -/
theorem linus_kept :
    (linusTable 0).Keeps utcSession (linusRow 0) ∧
      (linusTable 0).GivesBack utcSession (some 2) untimedUser := by
  obtain ⟨hkeeps, hgivesBack⟩ := users_roundTrip_iff utcSession (linusTable 0)
  let nickname : Varchar 50 := ⟨"tux", by decide, by decide⟩
  let password : Varchar 255 := ⟨"tux_pass", by decide, by decide⟩
  have hnickname : Varchar.ofBytes 50 untimedUser.nickname = some nickname :=
    Varchar.ofBytes_bytesOf nickname
  have hpassword : Varchar.ofBytes 255 untimedUser.password = some password :=
    Varchar.ofBytes_bytesOf password
  constructor
  · exact (hkeeps (linusRow 0) (List.mem_singleton.mpr rfl)).mpr ⟨⟨rfl, rfl, rfl⟩, timegm_gmtime 0⟩
  · refine (hgivesBack (some 2) untimedUser ?_).mpr ⟨⟨nickname, rfl⟩, ⟨password, rfl⟩, rfl, rfl⟩
    simp [UsersTable.create, UserRow.ofUser, hnickname, hpassword, UsersTable.insert, linusTable,
      linusRow, nickname]

end Silence.Server
