import Silence.Basic
import Silence.Lib.OrdMap
import Mathlib.Data.Rat.Floor
import Mathlib.Data.String.Basic

/-!
# Silence.Server.Json

The part of nlohmann::json that the server uses: reading typed fields of a
request and building the objects it answers with.

The strings of a parsed value are Unicode texts (the parser rejects anything
else), a number is an integer or a floating-point value, and the members of an
object are sorted by key. The reading functions fail as the library does: `[]` on
a constant object without the key is a violated assertion, and a conversion of a
value of another type throws `type_error`.
-/

namespace Silence.Server

open Silence.Lib

/-- How a handler ends when it does not return. -/
inductive Exn where
  /-- `[]` on a constant object without the key: a violated assertion, which no
  handler of exceptions sees. -/
  | absentKey (key : String)
  /-- `nlohmann::json::type_error`. -/
  | typeError
  /-- `boost::system::system_error`, thrown by `boost::asio::write`. -/
  | systemError
  /-- `std::runtime_error`, thrown when a negative `cpp_int` is printed in hexadecimal, and when a
  text is no number. -/
  | runtimeError
  /-- `std::out_of_range`, thrown when a text of signs is read as a number. -/
  | outOfRange
  /-- `nlohmann::json::out_of_range`, thrown by `json::parse` for a number that is too large. -/
  | jsonOutOfRange
  deriving DecidableEq, Repr

inductive Json where
  | null
  | boolean (value : Bool)
  | number (value : Int)
  | numberFloat (value : Rat)
  | string (value : String)
  | array (elements : List Json)
  | object (members : List (String × Json))
  deriving Repr

/-! ### Parsing -/

/-- What `json::parse` throws. -/
inductive ParseFailure where
  /-- `nlohmann::json::parse_error`, for a text that is no JSON text. -/
  | parseError
  /-- `nlohmann::json::out_of_range`, for a number that is too large. -/
  | outOfRange
  deriving DecidableEq, Repr

/-- `json::parse`. -/
abbrev JsonParser := Bytes → Except ParseFailure Json

/-- The value of a text; `null` where there is none. -/
def JsonParser.value (parse : JsonParser) (text : Bytes) : Json :=
  match parse text with
  | .ok json => json
  | .error _ => .null

theorem JsonParser.value_of_ok {parse : JsonParser} {text : Bytes} {json : Json}
    (h : parse text = .ok json) : parse.value text = json := by
  rw [JsonParser.value, h]

theorem JsonParser.value_of_error {parse : JsonParser} {text : Bytes} {failure : ParseFailure}
    (h : parse text = .error failure) : parse.value text = .null := by
  rw [JsonParser.value, h]

namespace Json

/-! ### Reading -/

/-- The member of an object at a key; other values have no members. -/
def member? : Json → String → Option Json
  | .object members, key => members.lookup key
  | _, _ => none

/-- `json.contains(key)`. -/
def contains (json : Json) (key : String) : Bool := (json.member? key).isSome

/-- `json[key]` on a constant value. -/
def at? : Json → String → Except Exn Json
  | .object members, key =>
      match members.lookup key with
      | some value => .ok value
      | none => .error (.absentKey key)
  | _, _ => .error .typeError

/-- `json == text`. -/
def isText : Json → String → Bool
  | .string value, text => value = text
  | _, _ => false

theorem isText_iff {json : Json} {text : String} : json.isText text ↔ json = .string text := by
  cases json <;> simp [isText]

/-- The conversion to `std::string`. -/
def getString : Json → Except Exn String
  | .string value => .ok value
  | _ => .error .typeError

/-- The conversion to `bool`. -/
def getBool : Json → Except Exn Bool
  | .boolean value => .ok value
  | _ => .error .typeError

/-- Truncation towards zero. -/
def truncate (value : Rat) : Int := value.num.tdiv value.den

/-- The conversion to `int`, which also takes booleans. Values outside of the
range wrap around. -/
def getInt : Json → Except Exn Int
  | .number value => .ok (value.bmod (2 ^ 32))
  | .numberFloat value => .ok ((truncate value).bmod (2 ^ 32))
  | .boolean value => .ok (if value then 1 else 0)
  | _ => .error .typeError

/-- The conversion to `int64_t`, which takes no booleans. -/
def getInt64 : Json → Except Exn Int
  | .number value => .ok (value.bmod (2 ^ 64))
  | .numberFloat value => .ok ((truncate value).bmod (2 ^ 64))
  | _ => .error .typeError

/-- The conversion to `size_t`, which takes no booleans. Values outside of the range
wrap around. -/
def getSize : Json → Except Exn UInt64
  | .number value => .ok (UInt64.ofInt value)
  | .numberFloat value => .ok (UInt64.ofInt (truncate value))
  | _ => .error .typeError

/-- `std::string s = json[key]`. -/
def readString (json : Json) (key : String) : Except Exn String := do (← json.at? key).getString

/-- `bool b = json[key]`. -/
def readBool (json : Json) (key : String) : Except Exn Bool := do (← json.at? key).getBool

/-- `int n = json[key]`. -/
def readInt (json : Json) (key : String) : Except Exn Int := do (← json.at? key).getInt

/-- `size_t n = json[key]`. -/
def readSize (json : Json) (key : String) : Except Exn UInt64 := do (← json.at? key).getSize

/-! ### Building -/

/-- The members of an object under construction. -/
abbrev Members := List (String × Json)

/-- `json[key] = value`. -/
def Members.set (members : Members) (key : String) (value : Json) : Members :=
  OrdMap.insertEntry key value members

/-- `json.update(other)`. -/
def Members.update (members other : Members) : Members :=
  other.foldr (fun e acc => Members.set acc e.1 e.2) members

/-- An object from its members, as an initializer list writes it. -/
def Members.ofList (members : List (String × Json)) : Members := Members.update [] members

@[simp] theorem lookup_cons (e : String × Json) (es : Members) (key : String) :
    List.lookup key (e :: es) = if key = e.1 then some e.2 else es.lookup key := by
  obtain ⟨key', value⟩ := e
  rw [List.lookup_cons]
  split
  · rename_i heq
    rw [if_pos (beq_iff_eq.mp heq)]
  · rename_i hne
    rw [if_neg (beq_eq_false_iff_ne.mp hne)]

@[simp] theorem lookup_set (members : Members) (key : String) (value : Json) (key' : String) :
    (members.set key value).lookup key' =
      if key' = key then some value else members.lookup key' := by
  rw [Members.set]
  induction members with
  | nil => rw [OrdMap.insertEntry, lookup_cons]
  | cons e es ih =>
      rw [OrdMap.insertEntry]
      by_cases hlt : key < e.1
      · rw [if_pos hlt, lookup_cons]
      · rw [if_neg hlt]
        by_cases heq : key = e.1
        · rw [if_pos heq, lookup_cons, lookup_cons, heq]
          split_ifs <;> rfl
        · rw [if_neg heq, lookup_cons, ih, lookup_cons]
          by_cases hkey : key' = key
          · simp [hkey, heq]
          · simp [hkey]

@[simp] theorem lookup_update (members other : Members) (key : String) :
    (members.update other).lookup key = (other.lookup key).or (members.lookup key) := by
  rw [Members.update]
  induction other with
  | nil => rfl
  | cons e other ih =>
      rw [List.foldr_cons, lookup_set, ih, lookup_cons]
      split_ifs <;> rfl

@[simp] theorem lookup_ofList (members : List (String × Json)) (key : String) :
    (Members.ofList members).lookup key = members.lookup key := by
  rw [Members.ofList, lookup_update, List.lookup_nil, Option.or_none]

/-! ### Reading members -/

theorem at?_eq_ok_iff {json value : Json} {key : String} :
    json.at? key = .ok value ↔ json.member? key = some value := by
  cases json with
  | object members =>
      rw [at?, member?]
      cases members.lookup key with
      | none => simp
      | some found => simp
  | _ => simp [at?, member?]

/-- A member that is there is converted. -/
theorem read_of_member? {α : Type} {get : Json → Except Exn α} {json value : Json} {key : String}
    (h : json.member? key = some value) : (json.at? key >>= get) = get value := by
  rw [at?_eq_ok_iff.mpr h]
  rfl

theorem readString_of_member? {json : Json} {key text : String}
    (h : json.member? key = some (.string text)) : json.readString key = .ok text :=
  read_of_member? h

/-! ### Which fields can be read -/

/-- The values that convert to `std::string`. -/
def isString : Json → Bool
  | .string _ => true
  | _ => false

/-- The values that convert to `bool`. -/
def isBool : Json → Bool
  | .boolean _ => true
  | _ => false

/-- The values that convert to `int`. -/
def isInt : Json → Bool
  | .number _ | .numberFloat _ | .boolean _ => true
  | _ => false

/-- The values that convert to `size_t`. -/
def isSize : Json → Bool
  | .number _ | .numberFloat _ => true
  | _ => false

/-- The value has a member of the given kind at the key. -/
def has (json : Json) (kind : Json → Bool) (key : String) : Bool := (json.member? key).any kind

theorem exists_getString_iff (json : Json) :
    (∃ text, json.getString = .ok text) ↔ json.isString := by
  cases json <;> simp [getString, isString]

theorem exists_getBool_iff (json : Json) : (∃ b, json.getBool = .ok b) ↔ json.isBool := by
  cases json <;> simp [getBool, isBool]

theorem exists_getInt_iff (json : Json) : (∃ n, json.getInt = .ok n) ↔ json.isInt := by
  cases json <;> simp [getInt, isInt]

theorem exists_getSize_iff (json : Json) : (∃ n, json.getSize = .ok n) ↔ json.isSize := by
  cases json <;> simp [getSize, isSize]

/-- A field can be read when it is there and its value converts. -/
theorem exists_read_iff {α : Type} {get : Json → Except Exn α} {kind : Json → Bool}
    (hget : ∀ value, (∃ a, get value = .ok a) ↔ kind value) (json : Json) (key : String) :
    (∃ a, (json.at? key >>= get) = .ok a) ↔ json.has kind key := by
  rw [has]
  cases hmember : json.member? key with
  | some value =>
      rw [read_of_member? hmember]
      exact hget value
  | none =>
      have hat : ∀ value, json.at? key ≠ .ok value := by
        intro value h
        rw [at?_eq_ok_iff, hmember] at h
        cases h
      cases hread : json.at? key with
      | error e => simp [bind, Except.bind]
      | ok value => exact absurd hread (hat value)

theorem exists_readString_iff (json : Json) (key : String) :
    (∃ text, json.readString key = .ok text) ↔ json.has isString key :=
  exists_read_iff exists_getString_iff json key

theorem exists_readBool_iff (json : Json) (key : String) :
    (∃ b, json.readBool key = .ok b) ↔ json.has isBool key :=
  exists_read_iff exists_getBool_iff json key

theorem exists_readInt_iff (json : Json) (key : String) :
    (∃ n, json.readInt key = .ok n) ↔ json.has isInt key :=
  exists_read_iff exists_getInt_iff json key

theorem exists_readSize_iff (json : Json) (key : String) :
    (∃ n, json.readSize key = .ok n) ↔ json.has isSize key :=
  exists_read_iff exists_getSize_iff json key

end Json

end Silence.Server
