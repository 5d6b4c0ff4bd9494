import Silence.Common.Entities

/-!
# Silence.Common.UserFile

The file in which a client keeps its user, and what comes back from it.

`from_json` leaves the timestamps of a `User` out, so they are lost with the first
reload and overwritten with the next save. Chats and messages come back whole.
`roundTrip_iff` says for which users everything is kept.
-/

namespace Silence.Common

open Silence.Lib
open Lib.JsonText (indented)
open Server (Json JsonParser ParseFailure Exn dumpedText ParsesTexts)

/-! ### Saving and loading -/

/-- `User()`. Its flag is not initialized. -/
def User.default : User where
  id := 0
  nickname := []
  password := []
  registeredTimestamp := 0
  lastOnlineTimestamp := 0
  online := false

/-- The outcome, and the content of the file, which was opened before. -/
def User.saveUserDataToJson (user : User) : Except Exn Unit × Bytes :=
  match user.toJson.dumped with
  | .error e => (.error e, [])
  | .ok members => (.ok (), (members.text? (indented 4)).getD [])

inductive LoadError where
  | parse (failure : ParseFailure)
  | json (e : Exn)
  deriving DecidableEq, Repr

/-- A file that cannot be opened gives `User()`. -/
def User.loadUserDataFromJson (parse : JsonParser) : Option Bytes → Except LoadError User
  | none => .ok .default
  | some text =>
      match parse text with
      | .error failure => .error (.parse failure)
      | .ok (.object members) => (User.fromJson (.ofMembers members)).mapError .json
      | .ok _ => .error (.json .typeError)

/-- The user after it was saved and loaded. -/
def User.reload (parse : JsonParser) (user : User) : Option User :=
  match user.saveUserDataToJson with
  | (.ok (), text) => (User.loadUserDataFromJson parse (some text)).toOption
  | (.error _, _) => none

/-- The user after so many cycles. -/
def User.cycle (parse : JsonParser) : Nat → User → Option User
  | 0, user => some user
  | n + 1, user => (user.reload parse).bind (cycle parse n)

/-! ### The members of the file -/

/-- The members of a user whose strings are texts. -/
def User.members (user : User) (nickname password : String) : Json.Members := [
  ("id", .number user.id.toInt), ("nickname", .string nickname), ("password", .string password),
  ("registered_timestamp", .number user.registeredTimestamp.toInt),
  ("last_online_timestamp", .number user.lastOnlineTimestamp.toInt),
  ("online", .boolean user.online)]

/-- `dump` takes the user exactly if both strings are texts. -/
theorem User.dumped_toJson (user : User) :
    user.toJson.dumped = do
      let nickname ← dumpedText user.nickname
      let password ← dumpedText user.password
      return .ofList (user.members nickname password) := by
  cases hnickname : dumpedText user.nickname with
  | error e =>
      simp [User.toJson, Fields.dumped, Value.dumped, Value.ofInt, hnickname, bind, Except.bind,
        pure, Except.pure]
  | ok nickname =>
      cases hpassword : dumpedText user.password with
      | error e =>
          simp [User.toJson, Fields.dumped, Value.dumped, Value.ofInt, hnickname, hpassword, bind,
            Except.bind, pure, Except.pure]
      | ok password =>
          simp [User.toJson, User.members, Fields.dumped, Value.dumped, Value.ofInt, Value.ofInt64,
            Value.ofBool, hnickname, hpassword, bind, Except.bind, pure, Except.pure]

theorem User.inRange_members (user : User) (nickname password : String) :
    (Json.Members.ofList (user.members nickname password)).InRange := by
  intro key n hmem
  have hnumber := Json.Members.mem_of_mem_ofList hmem
  have hid := user.id.toInt_lt
  have hid' := user.id.le_toInt
  have hregistered := user.registeredTimestamp.toInt_lt
  have hregistered' := user.registeredTimestamp.le_toInt
  have honline := user.lastOnlineTimestamp.toInt_lt
  have honline' := user.lastOnlineTimestamp.le_toInt
  simp only [User.members, List.mem_cons, Prod.mk.injEq, Json.number.injEq, reduceCtorEq, and_false,
    false_or, List.not_mem_nil, or_false] at hnumber
  rcases hnumber with ⟨-, rfl⟩ | ⟨-, rfl⟩ | ⟨-, rfl⟩ <;> omega

theorem User.flat_members (user : User) (nickname password : String) :
    ∀ e ∈ Json.Members.ofList (user.members nickname password), e.2.scalar?.isSome := by
  intro e he
  have hvalue := Json.Members.mem_of_mem_ofList he
  simp only [User.members, List.mem_cons, List.not_mem_nil, or_false] at hvalue
  rcases hvalue with rfl | rfl | rfl | rfl | rfl | rfl <;> rfl

theorem Fields.at?_ofMembers {members : Json.Members} {key : String} {value : Json}
    (h : members.lookup key = some value) :
    (Fields.ofMembers members).at? key = .ok (.json value) := by
  have hlookup : (Fields.ofMembers members).lookup key = some (.json value) := by
    induction members with
    | nil => cases h
    | cons e members ih =>
        obtain ⟨key', value'⟩ := e
        rw [List.lookup_cons] at h
        rw [Fields.ofMembers, List.map_cons, List.lookup_cons]
        cases hkey : key == key' with
        | true =>
            rw [hkey] at h
            rw [Option.some.inj h]
        | false =>
            rw [hkey] at h
            exact ih h
  rw [Fields.at?, hlookup]

/-- What is read from the members. -/
theorem User.fromJson_members (user : User) (nickname password : String) :
    User.fromJson (.ofMembers (.ofList (user.members nickname password))) =
      .ok { user with
        nickname := bytesOf nickname, password := bytesOf password
        registeredTimestamp := 0, lastOnlineTimestamp := 0 } := by
  have hat : ∀ key value, (user.members nickname password).lookup key = some value →
      (Fields.ofMembers (.ofList (user.members nickname password))).at? key =
        .ok (.json value) := by
    intro key value hlookup
    exact Fields.at?_ofMembers (by rwa [Json.lookup_ofList])
  have hid : (Value.json (.number user.id.toInt)).getInt = .ok user.id :=
    Value.getInt_ofInt user.id
  rw [User.fromJson, hat "id" _ rfl, hat "nickname" _ rfl, hat "password" _ rfl,
    hat "online" _ rfl]
  simp only [bind, Except.bind, hid]
  rfl

/-! ### Cycles -/

section Cycles

variable {parse : JsonParser} {user : User}

/-- The user without its timestamps. -/
def User.kept (user : User) : User :=
  { user with registeredTimestamp := 0, lastOnlineTimestamp := 0 }

theorem User.kept_eq_iff :
    user.kept = user ↔ user.registeredTimestamp = 0 ∧ user.lastOnlineTimestamp = 0 := by
  constructor
  · intro h
    exact ⟨(congrArg User.registeredTimestamp h).symm, (congrArg User.lastOnlineTimestamp h).symm⟩
  · rintro ⟨hregistered, honline⟩
    cases user
    cases hregistered
    cases honline
    rfl

theorem User.fromJson_toJson_eq_iff :
    User.fromJson user.toJson = .ok user ↔
      user.registeredTimestamp = 0 ∧ user.lastOnlineTimestamp = 0 := by
  rw [User.fromJson_toJson, ← User.kept_eq_iff, User.kept, Except.ok.injEq]

/-- What comes back from the file of a user whose strings are texts. -/
theorem User.reload_of_validUtf8 (hparse : ParsesTexts parse) (hnickname : ValidUtf8 user.nickname)
    (hpassword : ValidUtf8 user.password) : user.reload parse = some user.kept := by
  obtain ⟨nickname, hdumped, hbytes⟩ := Server.exists_dumpedText hnickname
  obtain ⟨password, hdumped', hbytes'⟩ := Server.exists_dumpedText hpassword
  obtain ⟨text, htext⟩ :=
    Json.Members.exists_text (indented 4) (user.flat_members nickname password)
  have hsaved : user.saveUserDataToJson = (.ok (), text) := by
    rw [User.saveUserDataToJson, User.dumped_toJson, hdumped, hdumped']
    simp only [bind, Except.bind, pure, Except.pure, htext, Option.getD_some]
  -- the text is that of a flat object, with nothing behind it
  have hparsed : parse text =
      .ok (.object (Json.Members.ofList (user.members nickname password))) := by
    have hblank : ∀ c ∈ "".toList, JsonText.isSpace c = true := nofun
    have hwhole := Json.Members.parse_text hparse (JsonText.blank_indented 4)
      (Json.Members.sorted_ofList _) (user.inRange_members nickname password) htext hblank
    rwa [show bytesOf "" = [] from rfl, List.append_nil] at hwhole
  rw [User.reload, hsaved]
  show (User.loadUserDataFromJson parse (some text)).toOption = _
  rw [User.loadUserDataFromJson, hparsed]
  dsimp only
  rw [User.fromJson_members, hbytes, hbytes']
  rfl

/-- `dump` throws on any other user, and the file is left empty. -/
theorem User.validUtf8_of_reload {reloaded : User} (h : user.reload parse = some reloaded) :
    ValidUtf8 user.nickname ∧ ValidUtf8 user.password := by
  rw [User.reload, User.saveUserDataToJson, User.dumped_toJson] at h
  cases hnickname : dumpedText user.nickname with
  | error e =>
      rw [hnickname] at h
      cases h
  | ok nickname =>
      cases hpassword : dumpedText user.password with
      | error e =>
          rw [hnickname, hpassword] at h
          cases h
      | ok password =>
          exact ⟨Server.validUtf8_of_dumpedText hnickname, Server.validUtf8_of_dumpedText hpassword⟩

/-- A user that keeps everything in one cycle does in any number of them. -/
theorem User.cycle_of_reload (h : user.reload parse = some user) (n : Nat) :
    user.cycle parse n = some user := by
  induction n with
  | zero => rfl
  | succ n ih => rw [User.cycle, h, Option.bind_some, ih]

/-- The timestamps do not come back with later cycles. -/
theorem User.cycle_succ_of_validUtf8 (hparse : ParsesTexts parse)
    (hnickname : ValidUtf8 user.nickname) (hpassword : ValidUtf8 user.password) (n : Nat) :
    user.cycle parse (n + 1) = some user.kept := by
  rw [User.cycle, User.reload_of_validUtf8 hparse hnickname hpassword, Option.bind_some]
  -- what is left after the first cycle stays
  have hkept : user.kept.reload parse = some user.kept :=
    User.reload_of_validUtf8 hparse hnickname hpassword
  exact User.cycle_of_reload hkept n

theorem User.cycle_eq_iff (hparse : ParsesTexts parse) :
    (∀ n, user.cycle parse n = some user) ↔
      user.registeredTimestamp = 0 ∧ user.lastOnlineTimestamp = 0 ∧
        ValidUtf8 user.nickname ∧ ValidUtf8 user.password := by
  constructor
  · intro h
    -- one cycle is enough to see what is lost
    have hreload : user.reload parse = some user := by
      have hone := h 1
      rw [User.cycle] at hone
      obtain ⟨reloaded, hreloaded, hcycle⟩ := Option.bind_eq_some_iff.mp hone
      rw [hreloaded, ← hcycle, User.cycle]
    obtain ⟨hnickname, hpassword⟩ := User.validUtf8_of_reload hreload
    have hkept := User.reload_of_validUtf8 hparse hnickname hpassword
    rw [hreload] at hkept
    obtain ⟨hregistered, honline⟩ := User.kept_eq_iff.mp (Option.some.inj hkept).symm
    exact ⟨hregistered, honline, hnickname, hpassword⟩
  · rintro ⟨hregistered, honline, hnickname, hpassword⟩
    refine User.cycle_of_reload ?_
    rw [User.reload_of_validUtf8 hparse hnickname hpassword,
      User.kept_eq_iff.mpr ⟨hregistered, honline⟩]

/-- Which values come back as they were, and which users stay as they are in their file. -/
theorem roundTrip_iff (hparse : ParsesTexts parse) :
    (∀ chat : Chat, Chat.fromJson chat.toJson = .ok chat) ∧
    (∀ msg : MessageMetadata, MessageMetadata.fromJson msg.toJson = .ok msg) ∧
    (∀ msg : MessageText, MessageText.fromJson msg.toJson = .ok msg) ∧
    (∀ user : User, User.fromJson user.toJson = .ok user ↔
      user.registeredTimestamp = 0 ∧ user.lastOnlineTimestamp = 0) ∧
    ∀ user : User, (∀ n, user.cycle parse n = some user) ↔
      user.registeredTimestamp = 0 ∧ user.lastOnlineTimestamp = 0 ∧
        ValidUtf8 user.nickname ∧ ValidUtf8 user.password :=
  ⟨Chat.fromJson_toJson, MessageMetadata.fromJson_toJson, MessageText.fromJson_toJson,
    fun _ => User.fromJson_toJson_eq_iff, fun _ => User.cycle_eq_iff hparse⟩

end Cycles

/-- A user as it is registered, at some time. -/
def registeredUser : User where
  id := 1
  nickname := bytesOf "a"
  password := bytesOf "b"
  registeredTimestamp := 1728333347000000000
  lastOnlineTimestamp := 0
  online := true

/-- Its time of registration is lost with the first reload. -/
theorem registeredUser_lost :
    User.fromJson registeredUser.toJson ≠ .ok registeredUser ∧
      registeredUser.cycle Server.parseFlat 1 ≠ some registeredUser := by
  have hchanged : registeredUser.kept ≠ registeredUser := by
    intro h
    exact absurd (User.kept_eq_iff.mp h).1 (by decide)
  constructor
  · intro h
    exact absurd (User.fromJson_toJson_eq_iff.mp h).1 (by decide)
  · have hcycle : registeredUser.cycle Server.parseFlat 1 = some registeredUser.kept :=
      User.cycle_succ_of_validUtf8 Server.parsesTexts_parseFlat (validUtf8_bytesOf "a")
        (validUtf8_bytesOf "b") 0
    intro h
    rw [hcycle] at h
    exact hchanged (Option.some.inj h)

/-- A user without times stays as it is. -/
theorem untimedUser_kept :
    registeredUser.kept.cycle Server.parseFlat 3 = some registeredUser.kept :=
  ((roundTrip_iff Server.parsesTexts_parseFlat).2.2.2.2 registeredUser.kept).mpr
    ⟨rfl, rfl, validUtf8_bytesOf "a", validUtf8_bytesOf "b"⟩ 3

end Silence.Common
