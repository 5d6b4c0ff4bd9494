import Silence.Client.Reading
import Silence.Client.UserKeys
import Silence.Common.UserFile

/-!
# Silence.Client.Identity

How a client comes to its user: the constructor, `register_user`, `authorize_user`, and the
file in which the user is kept.

A client that finds no user in the file of its nickname registers; the id that it gets goes
into the file. After that it only logs in, with the id from the file and the password that
is typed in. `registerUser_eq` says that the id is that of `Session.handle`.
-/

namespace Silence.Client

open Silence.Crypto
open Common (User LoadError)
open Server (Json JsonParser dumpedText ParsesTexts validUtf8_of_dumpedText)

/-! ### The user of a client -/

/-- The constructor of `Client`, given the file of its nickname. -/
def startUser (parse : JsonParser) (nick : Bytes) (file : Option Bytes) :
    Except LoadError User := do
  let user ← User.loadUserDataFromJson parse file
  return if user.id = 0 then { User.default with nickname := nick } else user

/-- `save_user_data_to_json`. A file that does not open is left as it is. -/
def saveUser (opens : Bool) (user : User) (file : Option Bytes) :
    Except Server.Exn Unit × Option Bytes :=
  if opens then
    let (result, text) := user.saveUserDataToJson
    (result, some text)
  else (.ok (), file)

/-- The request of `register_user` for the password that is typed in. -/
def registration (system : HybridCryptoSystem) (user : User) (password : Bytes) :
    Except Server.Exn Json.Members := do
  let nickname ← dumpedText user.nickname
  let password ← dumpedText password
  registerRequest nickname password system.getElGamalPublicKey system.getDsaPublicKey

/-- The request of `authorize_user` for the password that is typed in. -/
def authorization (user : User) (password : Bytes) : Except Server.Exn Json.Members := do
  let nickname ← dumpedText user.nickname
  let password ← dumpedText password
  return Json.Members.ofList [("type", .string "authorize"), ("user_id", .number user.id.toInt),
    ("nickname", .string nickname), ("password", .string password)]

/-- The id in the response to a registration, if there is one. -/
def responseId (user : User) (response : Json) : Except Server.Exn Int32 :=
  match optionalField response "user_id" with
  | some value => Int32.ofInt <$> value.getInt
  | none => .ok user.id

def responseTimestamp (user : User) (response : Json) : Except Server.Exn Int64 :=
  match optionalField response "registered_timestamp" with
  | some value => Int64.ofInt <$> value.getInt64
  | none => .ok user.registeredTimestamp

/-- What `register_user` makes of the response: the user that it saves, if it is a success. -/
def registered (user : User) (password : Bytes) (response : Json) :
    Except Server.Exn (Option User) := do
  let status ← fieldOf "status" response
  if status.isText "success" then
    let id ← responseId user response
    let registeredTimestamp ← responseTimestamp user response
    return some { user with
      id := id, registeredTimestamp := registeredTimestamp, password := password }
  else return none

/-! ### Starting -/

/-- What a client waits for that is not authorized yet. -/
inductive Awaiting where
  | nothing
  | registration (password : Bytes)
  | authorization
  deriving DecidableEq, Repr

/-- A client that `run` has not authorized yet. -/
structure Starting where
  system : HybridCryptoSystem
  user : User
  waiting : Awaiting

/-- The next call of `register_user` or `authorize_user`, up to the request. None where the client
ends: `run` does not go on after an exception of `register_user`. -/
def Starting.ask (client : Starting) (password : Bytes) :
    Option (Starting × Option Json.Members) :=
  if client.user.id = 0 then
    match registration client.system client.user password with
    | .error _ => none
    | .ok request => some ({ client with waiting := .registration password }, some request)
  else
    match authorization client.user password with
    | .error _ => some (client, none)
    | .ok request => some ({ client with waiting := .authorization }, some request)

/-- The call from its response on, which may not parse, with the file of the user. The client is
done when it is authorized, or has ended. -/
def Starting.answer (client : Starting) (opens : Bool) (response : Option Json)
    (file : Option Bytes) : Option Starting × Option Bytes :=
  match client.waiting, response with
  | .nothing, _ => (some client, file)
  | .registration _, none => (none, file)
  | .registration password, some response =>
      match registered client.user password response with
      | .error _ => (none, file)
      | .ok none => (some { client with waiting := .nothing }, file)
      | .ok (some user) =>
          match saveUser opens user file with
          | (.ok (), file) => (some { client with user := user, waiting := .nothing }, file)
          | (.error _, file) => (none, file)
  | .authorization, none => (some { client with waiting := .nothing }, file)
  | .authorization, some response =>
      if authorizeUser response then (none, (saveUser opens client.user file).2)
      else (some { client with waiting := .nothing }, file)

/-! ### The id -/

/-- Whether it is a success and what its id is, `registerUser` says as well. -/
theorem registerUser_eq (user : User) (password : Bytes) (response : Json) :
    (registerUser true user.id.toInt response).map Int32.ofInt =
      (registered user password response).map fun saved => (saved.map (·.id)).getD user.id := by
  unfold registerUser registered responseId responseTimestamp
  cases hstatus : fieldOf "status" response with
  | error e => rfl
  | ok status =>
      cases hsuccess : status.isText "success" with
      | false => simp [bind, Except.bind, pure, Except.pure, Except.map, hsuccess]
      | true =>
          simp only [bind, Except.bind, hsuccess, if_true]
          -- the two fields of the response
          cases optionalField response "user_id" with
          | none =>
              cases optionalField response "registered_timestamp" with
              | none => simp [pure, Except.pure, Except.map]
              | some value => cases hvalue : value.getInt64 <;>
                  simp [pure, Except.pure, Except.map, Functor.map, hvalue]
          | some value =>
              cases hid : value.getInt with
              | error e => simp [Except.map, Functor.map, hid]
              | ok id =>
                  cases optionalField response "registered_timestamp" with
                  | none => simp [pure, Except.pure, Except.map, Functor.map, hid]
                  | some value => cases hvalue : value.getInt64 <;>
                      simp [pure, Except.pure, Except.map, Functor.map, hid, hvalue]

/-- What is saved can be loaded again. -/
theorem load_saved {parse : JsonParser} (hparse : ParsesTexts parse) {user : User}
    {nickname password : String} (hnickname : dumpedText user.nickname = .ok nickname)
    (hpassword : dumpedText user.password = .ok password) :
    ∃ text, user.saveUserDataToJson = (.ok (), text) ∧
      User.loadUserDataFromJson parse (some text) = .ok user.kept := by
  have hreload := User.reload_of_validUtf8 hparse (validUtf8_of_dumpedText hnickname)
    (validUtf8_of_dumpedText hpassword)
  unfold User.reload at hreload
  rcases hsave : user.saveUserDataToJson with ⟨result, text⟩
  rw [hsave] at hreload
  cases result with
  | error e => cases hreload
  | ok done =>
      refine ⟨text, rfl, ?_⟩
      dsimp only at hreload
      cases hload : User.loadUserDataFromJson parse (some text) with
      | error e =>
          rw [hload] at hreload
          cases hreload
      | ok loaded =>
          rw [hload] at hreload
          exact congrArg Except.ok (Option.some.inj hreload)

end Silence.Client
