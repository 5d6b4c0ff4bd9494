import Silence.Client.UserKeys
import Silence.Server.Acknowledgments
import Silence.System.Accounts

/-!
# Silence.System.PublicKeys

The server as the directory of public keys.

A user's keys are stored by its registration, in a second transaction, and nothing replaces
them. So what `get_user_keys` hands out for a nickname is settled by the registration of
this nickname (`keys_iff_registered`), and whoever asks, whenever, gets the same
(`keys_of_nickname`).

The server prints the numbers that it has read; two texts of one number are the same key.
-/

namespace Silence.System

open Silence.Lib Silence.Lib.Effect
open Client (CarriesKeys readHex_of_lookup)
open Server (Json JsonParser World Environment Socket Database Accounts RegisterFields
  readRegisterFields sqlParameter varchar readKeys hexNumber hexText Observation UserRecord
  KeysRecord)

/-! ### The reply -/

section Reply

variable {env : Environment} {socket : Socket} {request : Json} {asked : String}
  {id elGamalKey dsaKey : Int}

theorem dispatch_getUserKeys (h : request.HasType "get_user_keys") (env : Environment)
    (socket : Socket) : Server.dispatch env socket request =
      Server.handleGetUserKeys env socket request := by
  rw [Server.dispatch, h]
  rfl

/-- Behind the request the only frame for its socket is the one that was written. -/
theorem framesTo_recordWrite_beginRequest (w : World) (socket : Socket) (frame : Json.Members)
    (ok : Bool) : (w.beginRequest.recordWrite (.wrote socket none frame ok)).framesTo socket =
      if ok then [frame] else [] := by
  cases ok <;> simp [World.framesTo, World.beginRequest, World.recordWrite, World.observe,
    Server.Observation.frameTo?]

/-- The reply to a request for the keys of a nickname. There is none with a negative number. -/
def keysReply (env : Environment) (nickname : String) : Option Json.Members :=
  if env.getUserId nickname = 0 then
    some (Json.Members.ofList [("status", .string "error"),
      ("response", .string "Receiver not found")])
  else
    match env.getPublicKeys (env.getUserId nickname) with
    | none => some (Json.Members.ofList [("status", .string "error"),
        ("response", .string "Failed to retrieve keys")])
    | some keys =>
        match hexText keys.dsaPublicKey, hexText keys.elGamalPublicKey with
        | .ok dsaPublicKey, .ok elGamalPublicKey =>
            some (Json.Members.ofList [("status", .string "success"),
              ("user_id", .number (env.getUserId nickname)),
              ("dsa_public_key", .string dsaPublicKey),
              ("el_gamal_public_key", .string elGamalPublicKey)])
        | _, _ => none

theorem readKeys_eq_ok_iff {dsaText elGamalText : String} :
    readKeys dsaText elGamalText = .ok ⟨dsaKey, elGamalKey⟩ ↔
      hexNumber elGamalText = .ok elGamalKey ∧ hexNumber dsaText = .ok dsaKey := by
  unfold readKeys
  cases hexNumber dsaText <;> cases hexNumber elGamalText <;>
    simp [bind, Except.bind, pure, Except.pure, and_comm]

theorem framesTo_getUserKeys {parse : JsonParser} {line : Bytes}
    (hparse : parse line = .ok request) (htype : request.HasType "get_user_keys")
    (hasked : request.readString "nickname" = .ok asked) (w : World) :
    (w.step parse (.request socket env line)).framesTo socket =
      if env.writeOk 0 then (keysReply env asked).toList else [] := by
  have hnothing : w.beginRequest.framesTo socket = [] := rfl
  rw [Server.step_request_of_parse hparse, dispatch_getUserKeys htype, Server.handleGetUserKeys,
    exec_bind, exec_attempt, hasked, keysReply]
  dsimp only
  split
  · rw [Server.exec_write, framesTo_recordWrite_beginRequest]
    rfl
  · cases env.getPublicKeys (env.getUserId asked) with
    | none =>
        dsimp only
        rw [Server.exec_write, framesTo_recordWrite_beginRequest]
        rfl
    | some keys =>
        dsimp only
        rw [exec_bind, exec_attempt]
        cases hexText keys.dsaPublicKey with
        | error e => simp [hnothing]
        | ok dsaPublicKey =>
            dsimp only
            rw [exec_bind, exec_attempt]
            cases hexText keys.elGamalPublicKey with
            | error e => simp [hnothing]
            | ok elGamalPublicKey =>
                dsimp only
                rw [Server.exec_write, framesTo_recordWrite_beginRequest]
                rfl

/-- The success carries the numbers of which it has the texts. -/
theorem carriesKeys_success_iff {userId dsa elGamal : Int} {dsaText elGamalText : String}
    (hdsa : hexText dsa = .ok dsaText) (helGamal : hexText elGamal = .ok elGamalText) :
    CarriesKeys (Json.Members.ofList [("status", .string "success"), ("user_id", .number userId),
        ("dsa_public_key", .string dsaText), ("el_gamal_public_key", .string elGamalText)])
        id elGamalKey dsaKey ↔
      userId = id ∧ elGamal = elGamalKey ∧ dsa = dsaKey := by
  rw [CarriesKeys, readHex_of_lookup (by simp) helGamal, readHex_of_lookup (by simp) hdsa]
  simp

/-- The reply carries keys if and only if the user is found, and has keys that are not negative. -/
theorem carriesKeys_keysReply_iff :
    (∃ frame, keysReply env asked = some frame ∧ CarriesKeys frame id elGamalKey dsaKey) ↔
      id ≠ 0 ∧ env.getUserId asked = id ∧ env.getPublicKeys id = some ⟨dsaKey, elGamalKey⟩ ∧
        0 ≤ elGamalKey ∧ 0 ≤ dsaKey := by
  -- an error has no id
  have herror : ∀ response : String, ¬ CarriesKeys (Json.Members.ofList
      [("status", .string "error"), ("response", .string response)]) id elGamalKey dsaKey := by
    intro response hcarries
    simpa using hcarries.1
  constructor
  · rintro ⟨frame, hreply, hcarries⟩
    unfold keysReply at hreply
    split at hreply
    · rw [← Option.some.inj hreply] at hcarries
      exact absurd hcarries (herror _)
    · rename_i hzero
      split at hreply
      · rw [← Option.some.inj hreply] at hcarries
        exact absurd hcarries (herror _)
      · rename_i keys hkeys
        split at hreply
        · rename_i dsaPublicKey elGamalPublicKey hdsa helGamal
          rw [← Option.some.inj hreply] at hcarries
          obtain ⟨rfl, rfl, rfl⟩ := (carriesKeys_success_iff hdsa helGamal).mp hcarries
          exact ⟨hzero, rfl, hkeys, (Server.hexText_spec helGamal).1, (Server.hexText_spec hdsa).1⟩
        · cases hreply
  · rintro ⟨hid, rfl, hkeys, helGamal, hdsa⟩
    simp only [keysReply, if_neg hid, hkeys, Server.hexText_of_nonneg hdsa,
      Server.hexText_of_nonneg helGamal]
    exact ⟨_, rfl, (carriesKeys_success_iff (Server.hexText_of_nonneg hdsa)
      (Server.hexText_of_nonneg helGamal)).mpr ⟨rfl, rfl, rfl⟩⟩

theorem exists_mem_framesTo_iff {parse : JsonParser} {line : Bytes}
    (hparse : parse line = .ok request) (htype : request.HasType "get_user_keys")
    (hasked : request.readString "nickname" = .ok asked) (w : World) :
    (∃ frame ∈ (w.step parse (.request socket env line)).framesTo socket,
        CarriesKeys frame id elGamalKey dsaKey) ↔
      env.writeOk 0 = true ∧
        ∃ frame, keysReply env asked = some frame ∧ CarriesKeys frame id elGamalKey dsaKey := by
  rw [framesTo_getUserKeys hparse htype hasked]
  cases env.writeOk 0 <;> simp

end Reply

/-! ### The directory -/

/-- A request of the run registers the user under its nickname with these texts of keys, and the
server has returned its id. -/
def KeysRegisteredBy (parse : JsonParser)
    (history : List (DeploymentEvent × Deployment)) (id : Int) (nickname : String)
    (texts : String × String) : Prop :=
  ∃ entry ∈ history, ∃ socket env queries line fields,
    entry.1 = .request socket env queries line ∧ Registering (parse.value line) fields ∧
      .createdUser id fields.nickname fields.password ∈ entry.2.world.log ∧
      varchar 50 (sqlParameter fields.nickname) = some nickname ∧
      queries.storedKeys fields = some texts

/-- A request of the run asks for a nickname, and the reply carries these keys. -/
def HandedOut (parse : JsonParser) (history : List (DeploymentEvent × Deployment))
    (asked : String) (id elGamalKey dsaKey : Int) : Prop :=
  ∃ entry ∈ history, ∃ socket env queries line request,
    entry.1 = .request socket env queries line ∧ parse line = .ok request ∧
      request.HasType "get_user_keys" ∧ request.readString "nickname" = .ok asked ∧
      ∃ frame ∈ entry.2.world.framesTo socket, CarriesKeys frame id elGamalKey dsaKey

/-- The keys of the accounts are those of registrations, those whose users were reported have them,
and those that were handed out are theirs. -/
structure Deployment.Directory (parse : JsonParser)
    (history : List (DeploymentEvent × Deployment)) (t : Deployment) (accounts : Accounts) : Prop
    extends t.Consistent parse history accounts where
  keysRegistered : ∀ id texts, accounts.keys id = some texts →
    ∃ nickname password, accounts.users id = some (nickname, password) ∧
      KeysRegisteredBy parse history id nickname texts
  keysReported : ∀ entry ∈ history, ∀ socket env queries line fields id,
    entry.1 = .request socket env queries line → Registering (parse.value line) fields →
    id ≠ 0 → .createdUser id fields.nickname fields.password ∈ entry.2.world.log →
    accounts.keys id = queries.storedKeys fields
  handedOut : ∀ asked id elGamalKey dsaKey, HandedOut parse history asked id elGamalKey dsaKey →
    ∃ password texts, accounts.users id = some (sqlParameter asked, password) ∧
      accounts.keys id = some texts ∧ readKeys texts.1 texts.2 = .ok ⟨dsaKey, elGamalKey⟩

/-- The keys that are handed out for a nickname are those of its account. -/
theorem exists_carriesKeys_iff {db : Database} {accounts : Accounts} {users : List UserRecord}
    {keys : List KeysRecord} (h : db.Represents accounts users keys) {env : Environment}
    {queries : Queries} {request : Json} {asked : String} {id elGamalKey dsaKey : Int} :
    (∃ frame, keysReply (backed env db queries request) asked = some frame ∧
        CarriesKeys frame id elGamalKey dsaKey) ↔
      queries.answered = true ∧
        (∃ password, accounts.users id = some (sqlParameter asked, password)) ∧
        (∃ texts, accounts.keys id = some texts ∧
          readKeys texts.1 texts.2 = .ok ⟨dsaKey, elGamalKey⟩) ∧ 0 ≤ elGamalKey ∧ 0 ≤ dsaKey := by
  rw [carriesKeys_keysReply_iff]
  have hanswer : queries.answered = true → (backed env db queries request).getPublicKeys id =
      (accounts.keys id).bind fun texts => (readKeys texts.1 texts.2).toOption := by
    intro hanswered
    rw [← h.getPublicKeys_eq]
    exact if_pos hanswered
  constructor
  · rintro ⟨hid, hfound, hkeys, hnonneg⟩
    obtain ⟨hanswered, haccount⟩ := (getUserId_backed_iff h hid).mp hfound
    rw [hanswer hanswered] at hkeys
    obtain ⟨texts, htexts, hread⟩ := Option.bind_eq_some_iff.mp hkeys
    exact ⟨hanswered, haccount, ⟨texts, htexts, toOption_eq_some_iff.mp hread⟩, hnonneg⟩
  · rintro ⟨hanswered, haccount, ⟨texts, htexts, hread⟩, hnonneg⟩
    have hid : id ≠ 0 := by
      obtain ⟨password, haccount⟩ := haccount
      exact h.id_ne_zero haccount
    refine ⟨hid, (getUserId_backed_iff h hid).mpr ⟨hanswered, haccount⟩, ?_, hnonneg⟩
    rw [hanswer hanswered, htexts]
    exact toOption_eq_some_iff.mpr hread

/-- An id with keys is that of a user, so it is not 0. -/
theorem id_ne_zero_of_keys {db : Database} {accounts : Accounts} {users : List UserRecord}
    {keys : List KeysRecord} (h : db.Represents accounts users keys) {id : Int}
    {texts : String × String} (hsome : accounts.keys id = some texts) : id ≠ 0 := by
  have huser : accounts.users id ≠ none := fun hnone => by
    rw [h.keys_eq_none hnone] at hsome
    cases hsome
  obtain ⟨account, haccount⟩ := Option.ne_none_iff_exists'.mp huser
  exact h.id_ne_zero haccount

/-- A registration reports the user that it creates. -/
theorem createdUser_mem {parse : JsonParser} {line : Bytes} {fields : RegisterFields}
    (h : Registering (parse.value line) fields) (w : World) (socket : Socket)
    (env : Environment) : .createdUser (env.createUser fields.nickname fields.password)
      fields.nickname fields.password ∈ (w.step parse (.request socket env line)).log := by
  cases hparse : parse line with
  | error failure =>
      rw [JsonParser.value_of_error hparse] at h
      cases h.1
  | ok request =>
      rw [JsonParser.value_of_ok hparse] at h
      obtain ⟨response, -, hlog⟩ := @Server.handleRegister_of_fields env socket request
        w.beginRequest fields h.2
      rw [Server.step_request_of_parse hparse, dispatch_register h.1, hlog]
      simp

theorem KeysRegisteredBy.mono {parse : JsonParser}
    {history : List (DeploymentEvent × Deployment)} {id : Int} {nickname : String}
    {texts : String × String} (h : KeysRegisteredBy parse history id nickname texts)
    (more : List (DeploymentEvent × Deployment)) :
    KeysRegisteredBy parse (history ++ more) id nickname texts := by
  obtain ⟨entry, hmem, hentry⟩ := h
  exact ⟨entry, List.mem_append_left _ hmem, hentry⟩

namespace Deployment.Directory

variable {parse : JsonParser} {history : List (DeploymentEvent × Deployment)}
  {t : Deployment} {accounts : Accounts}

theorem start (fileServer : FileServer.State) :
    Deployment.Directory parse [] (.start fileServer) .empty where
  toConsistent := .start fileServer
  keysRegistered _ _ hsome := by cases hsome
  keysReported _ hmem := absurd hmem List.not_mem_nil
  handedOut _ _ _ _ := by
    rintro ⟨entry, hmem, -⟩
    cases hmem

theorem disconnect (h : t.Directory parse history accounts) (socket : Socket) :
    (t.step parse (.disconnect socket)).Directory parse
      (history ++ [(.disconnect socket, t.step parse (.disconnect socket))]) accounts where
  toConsistent := h.toConsistent.disconnect socket
  keysRegistered id texts hsome := by
    obtain ⟨nickname, password, haccount, hregistered⟩ := h.keysRegistered id texts hsome
    exact ⟨nickname, password, haccount, hregistered.mono _⟩
  keysReported entry hmem := by
    intro socket' env queries line fields id hevent hfields hid hcreated
    rcases List.mem_append.mp hmem with hold | hlast
    · exact h.keysReported entry hold socket' env queries line fields id hevent hfields hid hcreated
    · rw [List.mem_singleton.mp hlast] at hevent
      cases hevent
  handedOut asked id elGamalKey dsaKey := by
    rintro ⟨entry, hmem, socket', env, queries, line, request, hevent, hrequest⟩
    rcases List.mem_append.mp hmem with hold | hlast
    · exact h.handedOut _ _ _ _
        ⟨entry, hold, socket', env, queries, line, request, hevent, hrequest⟩
    · rw [List.mem_singleton.mp hlast] at hevent
      cases hevent

theorem request (h : t.Directory parse history accounts) (socket : Socket) (env : Environment)
    {queries : Queries} {line : Bytes} {accounts' : Accounts}
    (hafter : AccountsAfter t.db queries (parse.value line) accounts accounts') :
    (t.step parse (.request socket env queries line)).Directory parse
      (history ++ [(.request socket env queries line,
        t.step parse (.request socket env queries line))]) accounts' := by
  obtain ⟨users, keys, hdb⟩ := h.represents
  refine ⟨h.toConsistent.request socket env hafter, ?_, ?_, ?_⟩
  · intro id texts hsome
    rcases hafter.keysAdded id texts hsome with hold | ⟨fields, hfields, hresult⟩
    · obtain ⟨nickname, password, haccount, hregistered⟩ := h.keysRegistered id texts hold
      exact ⟨nickname, password, hafter.kept _ _ haccount, hregistered.mono _⟩
    · obtain ⟨users', keys', hdb'⟩ := hafter.represents
      have hid : id ≠ 0 := id_ne_zero_of_keys hdb' hsome
      obtain ⟨-, hstored, nickname, password, hnickname, -, haccount⟩ :=
        hafter.returned fields id hfields hid hresult
      subst hresult
      exact ⟨nickname, password, haccount, _, List.mem_append_right _ (List.mem_singleton.mpr rfl),
        socket, env, queries, line, fields, rfl, hfields, createdUser_mem hfields _ _ _, hnickname,
        hstored.symm.trans hsome⟩
  · intro entry hmem socket' env' queries' line' fields id hevent hfields hid hcreated
    rcases List.mem_append.mp hmem with hold | hlast
    · obtain ⟨_, _, -, -, haccount⟩ := h.reported entry hold id _ _ hid hcreated
      rw [hafter.keysKept id (by rw [haccount]; exact Option.some_ne_none _)]
      exact h.keysReported entry hold socket' env' queries' line' fields id hevent hfields hid
        hcreated
    · rw [List.mem_singleton.mp hlast] at hevent hcreated
      cases hevent
      obtain ⟨fields', hfields', -, -, hresult⟩ := createdUser_step hcreated
      obtain rfl : fields' = fields := Except.ok.inj (hfields'.2.symm.trans hfields.2)
      exact (hafter.returned fields' id hfields hid hresult).2.1
  · rintro asked id elGamalKey dsaKey
      ⟨entry, hmem, socket', env', queries', line', request, hevent, hparse, htype, hasked, hframe⟩
    have hgiven : ∃ password texts, accounts.users id = some (sqlParameter asked, password) ∧
        accounts.keys id = some texts ∧ readKeys texts.1 texts.2 = .ok ⟨dsaKey, elGamalKey⟩ := by
      rcases List.mem_append.mp hmem with hold | hlast
      · exact h.handedOut _ _ _ _ ⟨entry, hold, socket', env', queries', line', request, hevent,
          hparse, htype, hasked, hframe⟩
      · rw [List.mem_singleton.mp hlast] at hevent hframe
        cases hevent
        have hstep : (t.step parse (.request socket env queries line)).world =
            t.world.step parse (.request socket
              (backed env t.db queries (parse.value line)) line) := rfl
        rw [hstep, exists_mem_framesTo_iff hparse htype hasked] at hframe
        obtain ⟨-, ⟨password, haccount⟩, ⟨texts, htexts, hread⟩, -⟩ :=
          (exists_carriesKeys_iff hdb).mp hframe.2
        exact ⟨password, texts, haccount, htexts, hread⟩
    obtain ⟨password, texts, haccount, htexts, hread⟩ := hgiven
    refine ⟨password, texts, hafter.kept _ _ haccount, ?_, hread⟩
    rw [hafter.keysKept id (by rw [haccount]; exact Option.some_ne_none _)]
    exact htexts

end Deployment.Directory

theorem directory_run {parse : JsonParser} {fileServer : FileServer.State}
    {history : List (DeploymentEvent × Deployment)} {t : Deployment}
    (hrun : DeploymentRun parse fileServer history t) :
    ∃ accounts, t.Directory parse history accounts := by
  refine hrun.invariant (I := fun history t => ∃ accounts, t.Directory parse history accounts)
    ⟨_, .start fileServer⟩ ?_
  rintro history t event ⟨accounts, h⟩ hguard
  cases event with
  | request socket env queries line =>
      obtain ⟨users, keys, hdb⟩ := h.represents
      obtain ⟨accounts', hafter⟩ :=
        exists_accountsAfter hdb hguard.1 hguard.2 (parse.value line)
      exact ⟨accounts', h.request socket env hafter⟩
  | disconnect socket => exact ⟨accounts, h.disconnect socket⟩

/-! ### What is handed out -/

/-- In every run in which a registration returned an id, keys of this user are handed out to a later
request if and only if it asks for the nickname that was registered and is answered, the
registration has stored its keys, and these are texts of the numbers that are handed out. -/
theorem keys_iff_registered {parse : JsonParser} {fileServer : FileServer.State}
    {history : List (DeploymentEvent × Deployment)} {t registered : Deployment}
    (hrun : DeploymentRun parse fileServer history t) {registrant : Socket} {env : Environment}
    {queries : Queries} {line : Bytes}
    (hentry : (.request registrant env queries line, registered) ∈ history)
    {fields : RegisterFields} (hfields : Registering (parse.value line) fields) {id : Int}
    (hid : id ≠ 0)
    (hcreated : .createdUser id fields.nickname fields.password ∈ registered.world.log)
    {request : Json} {asking : Bytes} (hparse : parse asking = .ok request)
    (htype : request.HasType "get_user_keys") {asked : String}
    (hasked : request.readString "nickname" = .ok asked) (socket : Socket) (env' : Environment)
    (queries' : Queries) (elGamalKey dsaKey : Int) :
    (∃ frame ∈ (t.step parse (.request socket env' queries' asking)).world.framesTo socket,
        CarriesKeys frame id elGamalKey dsaKey) ↔
      (queries'.answered = true ∧ env'.writeOk 0 = true) ∧
        varchar 50 (sqlParameter fields.nickname) = some (sqlParameter asked) ∧
        queries.transactions.draws.keys.id ≠ none ∧
        hexNumber (sqlParameter fields.elGamalPublicKey) = .ok elGamalKey ∧
        hexNumber (sqlParameter fields.dsaPublicKey) = .ok dsaKey ∧
        0 ≤ elGamalKey ∧ 0 ≤ dsaKey := by
  obtain ⟨accounts, h⟩ := directory_run hrun
  obtain ⟨users, keys, hdb⟩ := h.represents
  obtain ⟨storedNickname, storedPassword, hstored, -, haccount⟩ :=
    h.reported _ hentry id _ _ hid hcreated
  have hkeys : accounts.keys id = queries.storedKeys fields :=
    h.keysReported _ hentry registrant env queries line fields id rfl hfields hid hcreated
  have hstep : (t.step parse (.request socket env' queries' asking)).world =
      t.world.step parse (.request socket
        (backed env' t.db queries' (parse.value asking)) asking) := rfl
  rw [hstep, exists_mem_framesTo_iff hparse htype hasked, exists_carriesKeys_iff hdb, haccount,
    hkeys, hstored, Queries.storedKeys]
  show env'.writeOk 0 = true ∧ _ ↔ _
  cases queries.transactions.draws.keys.id with
  | none => simp
  | some drawn =>
      simp only [Option.map_some, Option.some.injEq, exists_eq_left', readKeys_eq_ok_iff,
        Prod.mk.injEq, exists_and_left, exists_eq']
      constructor
      · rintro ⟨hwritten, hanswered, ⟨hsame, -⟩, ⟨helGamal, hdsa⟩, hnonneg⟩
        exact ⟨⟨hanswered, hwritten⟩, hsame, Option.some_ne_none _, helGamal, hdsa, hnonneg⟩
      · rintro ⟨⟨hanswered, hwritten⟩, hsame, -, helGamal, hdsa, hnonneg⟩
        exact ⟨hwritten, hanswered, ⟨hsame, trivial⟩, ⟨helGamal, hdsa⟩, hnonneg⟩

/-- The request for the keys of `a`. -/
def keysRequestOfA : Json.Members :=
  [("nickname", .string "a"), ("type", .string "get_user_keys")]

def parseKeys : JsonParser := Server.parseLines [registrationOfA, keysRequestOfA]

/-- The server behind the registration. -/
def keyedA : Deployment := (Deployment.start .fresh).step parseKeys registrationEvent

theorem keyed_run : DeploymentRun parseKeys .fresh [(registrationEvent, keyedA)] keyedA :=
  .snoc registrationEvent .nil guard_registrationEvent

set_option maxRecDepth 2000 in
theorem keyed_reported : Observation.createdUser 1 "a" "p" ∈ keyedA.world.log :=
  List.mem_of_getElem? (i := 0) rfl

/-- The registered keys are handed out, and no others. -/
theorem keys_iff_registered_a :
    let frames := (keyedA.step parseKeys (.request 8 .working (answered 2)
      (Server.lineOf keysRequestOfA))).world.framesTo 8
    (∃ frame ∈ frames, CarriesKeys frame 1 3 2) ∧ ¬ ∃ frame ∈ frames, CarriesKeys frame 1 4 2 := by
  intro frames
  have hfields : Registering (parseKeys.value (Server.lineOf registrationOfA))
      ⟨"a", "p", "3", "2"⟩ := ⟨rfl, rfl⟩
  have hparse : parseKeys (Server.lineOf keysRequestOfA) = .ok (.object keysRequestOfA) := rfl
  have hthree : hexNumber (sqlParameter "3") = .ok 3 := rfl
  have hkeys := fun elGamalKey => keys_iff_registered keyed_run (List.mem_singleton.mpr rfl) hfields
    (by simp) keyed_reported hparse rfl rfl 8 .working (answered 2) elGamalKey 2
  refine ⟨(hkeys 3).mpr ⟨⟨rfl, rfl⟩, by decide, Option.some_ne_none _, hthree, rfl, by decide,
    by decide⟩, fun hgiven => ?_⟩
  obtain ⟨-, -, -, hfour, -⟩ := (hkeys 4).mp hgiven
  cases hthree.symm.trans hfour

/-- In every run, keys that were handed out are those of a registration of the nickname that was
asked for, and all answers of the run agree: to each nickname belongs one user, and to each user
one pair of keys. -/
theorem keys_of_nickname {parse : JsonParser} {fileServer : FileServer.State}
    {history : List (DeploymentEvent × Deployment)} {t : Deployment}
    (hrun : DeploymentRun parse fileServer history t) {asked : String}
    {id elGamalKey dsaKey : Int} (h : HandedOut parse history asked id elGamalKey dsaKey) :
    (∃ texts, KeysRegisteredBy parse history id (sqlParameter asked) texts ∧
        readKeys texts.1 texts.2 = .ok ⟨dsaKey, elGamalKey⟩) ∧
      ∀ asked' id' elGamalKey' dsaKey', HandedOut parse history asked' id' elGamalKey' dsaKey' →
        (sqlParameter asked' = sqlParameter asked ↔ id' = id) ∧
          (id' = id → elGamalKey' = elGamalKey ∧ dsaKey' = dsaKey) := by
  obtain ⟨accounts, hdirectory⟩ := directory_run hrun
  obtain ⟨users, keys, hdb⟩ := hdirectory.represents
  obtain ⟨password, texts, haccount, htexts, hread⟩ := hdirectory.handedOut _ _ _ _ h
  constructor
  · obtain ⟨nickname, password', haccount', hregistered⟩ :=
      hdirectory.keysRegistered id texts htexts
    obtain ⟨rfl, -⟩ := Prod.mk.inj (Option.some.inj (haccount.symm.trans haccount'))
    exact ⟨texts, hregistered, hread⟩
  · intro asked' id' elGamalKey' dsaKey' h'
    obtain ⟨password', texts', haccount', htexts', hread'⟩ := hdirectory.handedOut _ _ _ _ h'
    refine ⟨⟨fun hsame => ?_, ?_⟩, ?_⟩
    · rw [hsame] at haccount'
      exact hdb.id_eq_of_nickname haccount' haccount
    · rintro rfl
      exact congrArg Prod.fst (Option.some.inj (haccount'.symm.trans haccount))
    · rintro rfl
      obtain rfl := Option.some.inj (htexts'.symm.trans htexts)
      cases hread'.symm.trans hread
      exact ⟨rfl, rfl⟩

/-- The server behind the reply. -/
def askedA : Deployment := keyedA.step parseKeys
  (.request 8 .working (answered 2) (Server.lineOf keysRequestOfA))

theorem asked_run :
    DeploymentRun parseKeys .fresh [(registrationEvent, keyedA),
      (.request 8 .working (answered 2) (Server.lineOf keysRequestOfA), askedA)] askedA :=
  keyed_run.snoc _ ⟨fun _ h => by cases h; decide, fun _ h => by cases h; decide⟩

theorem keys_of_nickname_a :
    let history := [(registrationEvent, keyedA),
      (.request 8 .working (answered 2) (Server.lineOf keysRequestOfA), askedA)]
    (∃ texts, KeysRegisteredBy parseKeys history 1 (sqlParameter "a") texts ∧
        readKeys texts.1 texts.2 = .ok ⟨2, 3⟩) ∧
      ∀ asked' id' elGamalKey' dsaKey',
        HandedOut parseKeys history asked' id' elGamalKey' dsaKey' →
        (sqlParameter asked' = sqlParameter "a" ↔ id' = 1) ∧
          (id' = 1 → elGamalKey' = 3 ∧ dsaKey' = 2) := by
  intro history
  have hparse : parseKeys (Server.lineOf keysRequestOfA) = .ok (.object keysRequestOfA) := rfl
  have hreply : ∃ frame, keysReply (backed .working keyedA.db (answered 2)
      (parseKeys.value (Server.lineOf keysRequestOfA))) "a" = some frame ∧
        CarriesKeys frame 1 3 2 :=
    carriesKeys_keysReply_iff.mpr ⟨by simp, rfl, rfl, by simp, by simp⟩
  have hgiven : HandedOut parseKeys history "a" 1 3 2 :=
    ⟨_, List.mem_cons_of_mem _ (List.mem_singleton.mpr rfl), 8, .working, answered 2, _, _, rfl,
      hparse, rfl, rfl, (exists_mem_framesTo_iff hparse rfl rfl _).mpr ⟨rfl, hreply⟩⟩
  exact keys_of_nickname asked_run hgiven

end Silence.System
