import Silence.Client.KeySet
import Silence.Server.UserMetadataRepository

/-!
# Silence.Client.UserKeys

The way of a user's public keys from its registration to another client.

The server keeps the keys and hands out exactly the registered numbers
(`exec_dispatch_userKeysRequest`), but its reply has no type, and
`process_server_message` goes by the type of a frame. So the asking client knows the
keys afterwards if it knew them before (`knowsKeys_iff`).
-/

namespace Silence.Client

open Silence.Lib Silence.Lib.Effect Silence.Crypto
open Server (Json JsonParser World Environment Socket Database Draws hexText)

/-! ### The reply -/

/-- A frame without a type leaves the client as it is. -/
theorem exec_processServerMessage_untyped {parse : JsonParser} {message : Bytes}
    {frame : Json.Members} (hparse : parse message = .ok (.object frame))
    (h : frame.lookup "type" = none) (system : HybridCryptoSystem) (client : State) :
    exec (processServerMessage parse system message) client = (.ok (), client) := by
  have htype : typeOf (.object frame) = .ok .null := by
    rw [typeOf, fieldOf, h]
    rfl
  rw [processServerMessage, hparse]
  change exec (dispatchMessage system (.object frame)) client = _
  rw [dispatchMessage, exec_bind, exec_read, htype]
  rfl

theorem dispatch_userKeysRequest (env : Environment) (socket : Socket) (nickname : String) :
    Server.dispatch env socket (.object (userKeysRequest nickname)) =
      Server.handleGetUserKeys env socket (.object (userKeysRequest nickname)) := by
  have htype : Json.member? (.object (userKeysRequest nickname)) "type" =
      some (.string "get_user_keys") := by simp [Json.member?, userKeysRequest]
  rw [Server.dispatch, htype]
  rfl

theorem readString_userKeysRequest (nickname : String) :
    Json.readString (.object (userKeysRequest nickname)) "nickname" = .ok nickname := by
  have hlookup : (userKeysRequest nickname).lookup "nickname" = some (.string nickname) := by
    simp [userKeysRequest]
  exact Json.readString_of_member? hlookup

/-- The reply for a user whose stored keys are not negative. -/
theorem exec_dispatch_userKeysRequest {env : Environment} {nickname : String} {userId : Int}
    {keys : Server.UserCryptoKeys} (hid : env.getUserId nickname = userId) (hne : userId ≠ 0)
    (hkeys : env.getPublicKeys userId = some keys) (hdsa : 0 ≤ keys.dsaPublicKey)
    (helGamal : 0 ≤ keys.elGamalPublicKey) (socket : Socket) (w : World) :
    ∃ dsaPublicKey elGamalPublicKey, hexText keys.dsaPublicKey = .ok dsaPublicKey ∧
      hexText keys.elGamalPublicKey = .ok elGamalPublicKey ∧
      (exec (Server.dispatch env socket (.object (userKeysRequest nickname))) w).2 =
        w.recordWrite (.wrote socket none (Json.Members.ofList [("status", .string "success"),
          ("user_id", .number userId), ("dsa_public_key", .string dsaPublicKey),
          ("el_gamal_public_key", .string elGamalPublicKey)]) (env.writeOk w.writes)) := by
  refine ⟨_, _, Server.hexText_of_nonneg hdsa, Server.hexText_of_nonneg helGamal, ?_⟩
  rw [dispatch_userKeysRequest, Server.handleGetUserKeys, exec_bind, exec_attempt,
    readString_userKeysRequest]
  simp only [hid, if_neg hne, hkeys, exec_bind, exec_attempt, Server.hexText_of_nonneg hdsa,
    Server.hexText_of_nonneg helGamal, Server.exec_write]

/-- A world shows the frame that was written last. -/
theorem recordWrite_inj {w : World} {socket : Socket} {frame frame' : Json.Members} {ok : Bool}
    (h : w.recordWrite (.wrote socket none frame ok) =
      w.recordWrite (.wrote socket none frame' ok)) : frame = frame' := by
  have hlog := List.append_cancel_left (congrArg World.log h)
  cases hlog
  rfl

/-- Stored keys of which one is negative are not printed, and there is no reply. -/
theorem exec_dispatch_userKeysRequest_negative {env : Environment} {nickname : String}
    {keys : Server.UserCryptoKeys} (hne : env.getUserId nickname ≠ 0)
    (hkeys : env.getPublicKeys (env.getUserId nickname) = some keys)
    (hnegative : keys.dsaPublicKey < 0 ∨ keys.elGamalPublicKey < 0) (socket : Socket)
    (w : World) :
    (exec (Server.dispatch env socket (.object (userKeysRequest nickname))) w).2 = w := by
  have htext : ∀ num : Int, num < 0 → hexText num = .error .runtimeError := by
    intro num hnum
    rw [hexText, cppIntToHex, if_pos hnum]
  rw [dispatch_userKeysRequest, Server.handleGetUserKeys, exec_bind, exec_attempt,
    readString_userKeysRequest]
  simp only [if_neg hne, hkeys]
  rw [exec_bind, exec_attempt]
  by_cases hdsa : keys.dsaPublicKey < 0
  · rw [htext _ hdsa]
  · have helGamal := hnegative.resolve_left hdsa
    rw [Server.hexText_of_nonneg (Int.not_lt.mp hdsa)]
    simp only
    rw [exec_bind, exec_attempt, htext _ helGamal]

/-- Whatever the databases answer, a reply has no type. -/
theorem lookup_type_reply {env : Environment} {nickname : String} {socket : Socket} {w : World}
    {frame : Json.Members}
    (h : (exec (Server.dispatch env socket (.object (userKeysRequest nickname))) w).2 =
      w.recordWrite (.wrote socket none frame (env.writeOk w.writes))) :
    frame.lookup "type" = none := by
  by_cases hid : env.getUserId nickname = 0
  · rw [dispatch_userKeysRequest, Server.handleGetUserKeys, exec_bind, exec_attempt,
      readString_userKeysRequest] at h
    simp only [if_pos hid, Server.exec_write] at h
    rw [← recordWrite_inj h]
    simp
  · cases hget : env.getPublicKeys (env.getUserId nickname) with
    | none =>
        rw [dispatch_userKeysRequest, Server.handleGetUserKeys, exec_bind, exec_attempt,
          readString_userKeysRequest] at h
        simp only [if_neg hid, hget, Server.exec_write] at h
        rw [← recordWrite_inj h]
        simp
    | some keys =>
        by_cases hnonneg : 0 ≤ keys.dsaPublicKey ∧ 0 ≤ keys.elGamalPublicKey
        · obtain ⟨dsaPublicKey, elGamalPublicKey, -, -, hreply⟩ :=
            exec_dispatch_userKeysRequest rfl hid hget hnonneg.1 hnonneg.2 socket w
          rw [← recordWrite_inj (hreply.symm.trans h)]
          simp
        · have hnegative : keys.dsaPublicKey < 0 ∨ keys.elGamalPublicKey < 0 := by omega
          rw [exec_dispatch_userKeysRequest_negative hid hget hnegative] at h
          have hlen := congrArg (fun w => w.log.length) h
          simp [World.recordWrite, World.observe] at hlen

/-! ### From the registration to the reply -/

/-- The keys are held for a user. -/
def State.KnowsKeys (client : State) (userId elGamalPublicKey dsaPublicKey : Int) : Prop :=
  ∃ keys, client.keySet.getUserKeys userId = some keys ∧
    keys.elGamalPublicKey = elGamalPublicKey ∧ keys.dsaPublicKey = dsaPublicKey

/-- The keys that a frame carries for a user. -/
def CarriesKeys (frame : Json.Members) (userId elGamalPublicKey dsaPublicKey : Int) : Prop :=
  frame.lookup "user_id" = some (.number userId) ∧
    readHex (.object frame) "el_gamal_public_key" = .ok elGamalPublicKey ∧
    readHex (.object frame) "dsa_public_key" = .ok dsaPublicKey

/-- The answers of the database to the queries of `get_user_keys`. -/
structure Answers (env : Environment) (db : Database) : Prop where
  getUserId : ∀ nickname, env.getUserId nickname = db.getId nickname
  getPublicKeys : ∀ userId, env.getPublicKeys userId = db.getPublicKeys userId

theorem readString_of_lookup {fields : Json.Members} {key text : String}
    (h : fields.lookup key = some (.string text)) :
    Json.readString (.object fields) key = .ok text := Json.readString_of_member? h

/-- The text of a number is read as the number. -/
theorem readHex_of_lookup {fields : Json.Members} {key text : String} {num : Int}
    (h : fields.lookup key = some (.string text)) (htext : hexText num = .ok text) :
    readHex (.object fields) key = .ok num := by
  rw [readHex, readString_of_lookup h]
  exact Server.hexNumber_hexText htext

/-- The texts of a registration are those of the two keys. -/
theorem registerRequest_eq_ok {nickname password : String} {elGamalKey dsaKey : Int}
    {request : Json.Members}
    (h : registerRequest nickname password elGamalKey dsaKey = .ok request) :
    ∃ elGamalPublicKey dsaPublicKey, hexText elGamalKey = .ok elGamalPublicKey ∧
      hexText dsaKey = .ok dsaPublicKey ∧
      Json.readString (.object request) "nickname" = .ok nickname ∧
      Json.readString (.object request) "el_gamal_public_key" = .ok elGamalPublicKey ∧
      Json.readString (.object request) "dsa_public_key" = .ok dsaPublicKey := by
  obtain ⟨elGamalPublicKey, helGamal, h⟩ := bind_eq_ok.mp h
  obtain ⟨dsaPublicKey, hdsa, h⟩ := bind_eq_ok.mp h
  cases h
  exact ⟨elGamalPublicKey, dsaPublicKey, helGamal, hdsa, readString_of_lookup (by simp),
    readString_of_lookup (by simp), readString_of_lookup (by simp)⟩

/-- The reply for a registered user carries the registered numbers, and a client that is given a
reply knows them afterwards if and only if it knew them before. -/
theorem knowsKeys_iff {nickname password : String} {elGamalKey dsaKey : Int}
    {request : Json.Members}
    (hrequest : registerRequest nickname password elGamalKey dsaKey = .ok request)
    {db db' : Database} {draws : Draws} {userId : Int} (hid : userId ≠ 0)
    (hregister : db.handleRegister draws (.object request) = .ok (userId, true, db'))
    (later : List (Draws × Json)) {env : Environment}
    (hanswers : Answers env (later.foldl Database.register db')) (socket : Socket) (w : World) :
    let after := (exec (Server.dispatch env socket (.object (userKeysRequest nickname))) w).2
    (nickname.length ≤ 50 → ∃ frame : Json.Members,
      after = w.recordWrite (.wrote socket none frame (env.writeOk w.writes)) ∧
        CarriesKeys frame userId elGamalKey dsaKey) ∧
    ∀ frame : Json.Members,
      after = w.recordWrite (.wrote socket none frame (env.writeOk w.writes)) →
      ∀ parse message, parse message = .ok (.object frame) → ∀ system (client : State),
        (exec (processServerMessage parse system message) client).2.KnowsKeys userId elGamalKey
          dsaKey ↔ client.KnowsKeys userId elGamalKey dsaKey := by
  intro after
  constructor
  · intro hfits
    obtain ⟨elGamalPublicKey, dsaPublicKey, helGamal, hdsa, hnickname, hreadElGamal, hreadDsa⟩ :=
      registerRequest_eq_ok hrequest
    obtain ⟨elGamalText, dsaText, hstoredElGamal, hstoredDsa, hholds⟩ :=
      Database.holds_handleRegister hid hregister hnickname hfits
    -- the texts that the client sent are those in the tables
    obtain rfl : elGamalPublicKey = elGamalText :=
      Except.ok.inj (hreadElGamal.symm.trans hstoredElGamal)
    obtain rfl : dsaPublicKey = dsaText := Except.ok.inj (hreadDsa.symm.trans hstoredDsa)
    -- later registrations leave the rows as they are
    have hholds := hholds.mono (Database.extends_registerAll db' later)
    have hget : env.getUserId nickname = userId :=
      (hanswers.getUserId nickname).trans hholds.getId_eq
    -- a statement passes them on as they are
    have hdsaKey : Server.hexNumber (Server.sqlParameter dsaPublicKey) = .ok dsaKey := by
      rw [Server.sqlParameter_of_hexText hdsa, Server.hexNumber_hexText hdsa]
    have helGamalKey : Server.hexNumber (Server.sqlParameter elGamalPublicKey) =
        .ok elGamalKey := by
      rw [Server.sqlParameter_of_hexText helGamal, Server.hexNumber_hexText helGamal]
    have hkeys := (hanswers.getPublicKeys userId).trans
      (hholds.getPublicKeys_eq hdsaKey helGamalKey)
    obtain ⟨dsaText, elGamalText, hdsaText, helGamalText, hframe⟩ :=
      exec_dispatch_userKeysRequest hget hid hkeys (Server.hexText_spec hdsa).1
        (Server.hexText_spec helGamal).1 socket w
    exact ⟨_, hframe, by simp, readHex_of_lookup (by simp) helGamalText,
      readHex_of_lookup (by simp) hdsaText⟩
  · intro frame hreply parse message hparse system client
    rw [exec_processServerMessage_untyped hparse (lookup_type_reply hreply)]

/-! ### A registration -/

/-- The request that bob registers with. -/
def bobRequest : Json.Members :=
  Json.Members.ofList [("type", .string "register"), ("nickname", .string "bob"),
    ("password", .string "secret"), ("el_gamal_public_key", .string "7"),
    ("dsa_public_key", .string "8")]

def firstDraws : Draws where
  user := ⟨some 1, "2024-09-28 10:00:00", "1970-01-01 00:00:00"⟩
  keys := ⟨some 1, "2024-09-28 10:00:00", "1970-01-01 00:00:00"⟩

/-- The database after his registration. -/
def bobDatabase : Database := Database.empty.register (firstDraws, .object bobRequest)

theorem handleRegister_bob :
    Database.empty.handleRegister firstDraws (.object bobRequest) = .ok (1, true, bobDatabase) :=
  rfl

def bobEnvironment : Environment :=
  { Environment.working with
    getUserId := bobDatabase.getId
    getPublicKeys := bobDatabase.getPublicKeys }

/-- The reply for bob, who has registered the keys 7 and 8. -/
theorem knowsKeys_iff_bob :
    let after := (exec (Server.dispatch bobEnvironment 3 (.object (userKeysRequest "bob")))
      (.start .fresh)).2
    (3 ≤ 50 → ∃ frame : Json.Members,
      after = (World.start .fresh).recordWrite (.wrote 3 none frame true) ∧
        CarriesKeys frame 1 7 8) ∧
    ∀ frame : Json.Members,
      after = (World.start .fresh).recordWrite (.wrote 3 none frame true) →
      ∀ parse message, parse message = .ok (.object frame) → ∀ system (client : State),
        (exec (processServerMessage parse system message) client).2.KnowsKeys 1 7 8 ↔
          client.KnowsKeys 1 7 8 := by
  have hrequest : registerRequest "bob" "secret" 7 8 = .ok bobRequest := rfl
  have hanswers : Answers bobEnvironment bobDatabase := ⟨fun _ => rfl, fun _ => rfl⟩
  exact knowsKeys_iff hrequest (by decide) handleRegister_bob [] hanswers 3 (.start .fresh)

/-- The keys of bob reach a client without keys, and it does not take them. -/
theorem keys_notTaken_bob :
    ∃ frame : Json.Members,
      (exec (Server.dispatch bobEnvironment 3 (.object (userKeysRequest "bob")))
          (.start .fresh)).2 =
        (World.start .fresh).recordWrite (.wrote 3 none frame true) ∧
      frame.lookup "user_id" = some (.number 1) ∧
      frame.lookup "el_gamal_public_key" = some (.string "7") ∧
      frame.lookup "dsa_public_key" = some (.string "8") ∧
      ∀ parse message, parse message = .ok (.object frame) →
        ¬ (exec (processServerMessage parse (.ofKeys 4 2) message)
          (.withKeys .empty)).2.KnowsKeys 1 7 8 := by
  have hid : bobEnvironment.getUserId "bob" = 1 := rfl
  have hkeys : bobEnvironment.getPublicKeys 1 = some ⟨8, 7⟩ := rfl
  obtain ⟨dsaPublicKey, elGamalPublicKey, hdsa, helGamal, hreply⟩ :=
    exec_dispatch_userKeysRequest hid (by decide) hkeys (by decide) (by decide) 3 (.start .fresh)
  have hdsa : "8" = dsaPublicKey := Except.ok.inj hdsa
  have helGamal : "7" = elGamalPublicKey := Except.ok.inj helGamal
  subst hdsa helGamal
  refine ⟨_, hreply, by simp, by simp, by simp, ?_⟩
  intro parse message hparse
  rw [exec_processServerMessage_untyped hparse (by simp)]
  rintro ⟨keys, hkeys, -⟩
  cases hkeys

end Silence.Client
