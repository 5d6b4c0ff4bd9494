import Silence.Lib.JsonText
import Silence.Server.Framing
import Silence.Server.RequestHandler

/-!
# Silence.Server.JsonText

The texts of the messages that the programs exchange and of the files that they keep.

All of them are flat objects, so `dump` is the writer of `Silence.Lib.JsonText`, and
nlohmann's parser gives back what that reader gives (`ParsesTexts`). Its parser also takes
other texts; nothing is said about them.
-/

namespace Silence.Server

open Silence.Lib
open Lib.JsonText (Layout compact indented readObject objectText)

/-! ### The texts that `dump` takes -/

theorem dumpedText_bytesOf (text : String) : dumpedText (bytesOf text) = .ok text := by
  rw [dumpedText, fromUTF8?_bytesOf]

theorem bytesOf_of_dumpedText {bytes : Bytes} {text : String} (h : dumpedText bytes = .ok text) :
    bytesOf text = bytes := by
  rw [dumpedText] at h
  cases htext : String.fromUTF8? ⟨bytes.toArray⟩ with
  | none =>
      rw [htext] at h
      cases h
  | some text' =>
      rw [htext] at h
      cases h
      exact bytesOf_of_fromUTF8? htext

theorem validUtf8_of_dumpedText {bytes : Bytes} {text : String} (h : dumpedText bytes = .ok text) :
    ValidUtf8 bytes := by
  rw [← bytesOf_of_dumpedText h]
  exact validUtf8_bytesOf text

theorem exists_dumpedText {bytes : Bytes} (h : ValidUtf8 bytes) :
    ∃ text, dumpedText bytes = .ok text ∧ bytesOf text = bytes := by
  obtain ⟨text, rfl⟩ := exists_text_of_validUtf8 h
  exact ⟨text, dumpedText_bytesOf text, rfl⟩

/-! ### Flat objects -/

/-- A value that can be a member of a flat object. -/
def Json.scalar? : Json → Option JsonText.Scalar
  | .null => some .null
  | .boolean value => some (.boolean value)
  | .number value => some (.integer value)
  | .string value => some (.string value)
  | _ => none

def Json.ofScalar : JsonText.Scalar → Json
  | .null => .null
  | .boolean value => .boolean value
  | .integer value => .number value
  | .string value => .string value

namespace Json.Members

/-- The members of a flat object. -/
def scalars? (members : Members) : Option JsonText.Members :=
  members.mapM fun (key, value) => value.scalar?.map (key, ·)

def ofScalars (members : JsonText.Members) : Members :=
  members.map fun (key, value) => (key, Json.ofScalar value)

/-- `dump` of a flat object, in a layout. -/
def text? (layout : Layout) (members : Members) : Option Bytes :=
  members.scalars?.map fun members => bytesOf (String.ofList (objectText layout members))

/-- `dump()`. -/
def dump? (members : Members) : Option Bytes := members.text? compact

/-- The keys are in order, as those of every `nlohmann::json` are. -/
def Sorted (members : Members) : Prop := members.Pairwise fun a b => a.1 < b.1

/-- The integers are those of `int64_t` or `uint64_t`. -/
def InRange (members : Members) : Prop :=
  ∀ key n, (key, .number n) ∈ members → -2 ^ 63 ≤ n ∧ n < 2 ^ 64

end Json.Members

/-- `nlohmann::json::parse` reads the text of a flat object. -/
def ParsesTexts (parse : JsonParser) : Prop :=
  ∀ (text : String) (members : JsonText.Members), readObject text.toList = some members →
    (members.map (·.1)).Nodup → (Json.Members.ofScalars members).InRange →
    parse (bytesOf text) = .ok (.object (Json.Members.ofList (Json.Members.ofScalars members)))

/-! ### Members -/

namespace Json.Members

theorem sorted_ofList (members : Members) : (ofList members).Sorted := by
  rw [ofList, update]
  induction members with
  | nil => exact .nil
  | cons e members ih => exact OrdMap.sorted_insertEntry e.1 e.2 ih

theorem mem_of_mem_ofList {members : Members} {e : String × Json} (h : e ∈ ofList members) :
    e ∈ members := by
  rw [ofList, update] at h
  induction members with
  | nil => exact h
  | cons e' members ih =>
      rcases OrdMap.mem_insertEntry h with rfl | h
      · exact List.mem_cons_self
      · exact List.mem_cons_of_mem e' (ih h)

/-- A sorted list of members is an object as it stands. -/
theorem ofList_of_sorted {members : Members} (h : members.Sorted) : ofList members = members := by
  rw [ofList, update]
  induction members with
  | nil => rfl
  | cons e members ih =>
      obtain ⟨hhead, htail⟩ := List.pairwise_cons.mp h
      rw [List.foldr_cons, ih htail, set]
      cases members with
      | nil => rfl
      | cons e' members => rw [OrdMap.insertEntry, if_pos (hhead e' List.mem_cons_self)]

theorem ofScalar_of_scalar? {value : Json} {scalar : JsonText.Scalar}
    (h : value.scalar? = some scalar) : Json.ofScalar scalar = value := by
  cases value <;> cases h <;> rfl

theorem ofScalars_of_scalars? {members : Members} {scalars : JsonText.Members}
    (h : members.scalars? = some scalars) : ofScalars scalars = members := by
  induction members generalizing scalars with
  | nil =>
      cases h
      rfl
  | cons e members ih =>
      rw [scalars?, List.mapM_cons] at h
      obtain ⟨entry, hentry, h⟩ := Option.bind_eq_some_iff.mp h
      obtain ⟨rest, hrest, h⟩ := Option.bind_eq_some_iff.mp h
      obtain ⟨scalar, hscalar, rfl⟩ := Option.map_eq_some_iff.mp hentry
      obtain rfl := Option.some.inj h
      rw [ofScalars, List.map_cons, ← ofScalars, ih hrest]
      dsimp only
      rw [ofScalar_of_scalar? hscalar]

/-- The members of a flat object can be dumped. -/
theorem exists_text (layout : Layout) {members : Members}
    (h : ∀ e ∈ members, e.2.scalar?.isSome) : ∃ text, members.text? layout = some text := by
  have hscalars : ∃ scalars, members.scalars? = some scalars := by
    induction members with
    | nil => exact ⟨[], rfl⟩
    | cons e members ih =>
        obtain ⟨scalars, hscalars⟩ := ih fun e' he' => h e' (List.mem_cons_of_mem e he')
        obtain ⟨scalar, hscalar⟩ := Option.isSome_iff_exists.mp (h e List.mem_cons_self)
        rw [scalars?] at hscalars
        refine ⟨(e.1, scalar) :: scalars, ?_⟩
        rw [scalars?, List.mapM_cons, hscalars]
        dsimp only
        rw [hscalar]
        rfl
  obtain ⟨scalars, hscalars⟩ := hscalars
  exact ⟨_, by rw [text?, hscalars]; rfl⟩

/-- What is dumped is parsed as it was, also with white space behind it. -/
theorem parse_text {parse : JsonParser} (hparse : ParsesTexts parse) {layout : Layout}
    (hblank : layout.Blank) {members : Members} (hsorted : members.Sorted)
    (hrange : members.InRange) {text : Bytes} (htext : members.text? layout = some text)
    {tail : String} (htail : ∀ c ∈ tail.toList, JsonText.isSpace c = true) :
    parse (text ++ bytesOf tail) = .ok (.object members) := by
  rw [text?] at htext
  obtain ⟨scalars, hscalars, rfl⟩ := Option.map_eq_some_iff.mp htext
  have hmembers := ofScalars_of_scalars? hscalars
  have hread : readObject (String.ofList (objectText layout scalars) ++ tail).toList =
      some scalars := by
    rw [String.toList_append, String.toList_ofList]
    exact JsonText.readObject_objectText hblank scalars htail
  have hkeys : scalars.map (·.1) = members.map (·.1) := by
    rw [← hmembers, ofScalars, List.map_map]
    exact List.map_congr_left fun _ _ => rfl
  have hnodup : (scalars.map (·.1)).Nodup := by
    rw [hkeys]
    exact List.pairwise_map.mpr (hsorted.imp fun h => ne_of_lt h)
  rw [← bytesOf_append, hparse _ scalars hread hnodup (by rwa [hmembers]), hmembers,
    ofList_of_sorted hsorted]

/-- A dump has no newline. -/
theorem newline_notMem_dump {members : Members} {text : Bytes} (h : members.dump? = some text) :
    newline ∉ text := by
  rw [dump?, text?] at h
  obtain ⟨scalars, -, rfl⟩ := Option.map_eq_some_iff.mp h
  intro hmem
  rw [bytesOf_ofList_eq, List.mem_flatMap] at hmem
  obtain ⟨c, hc, hnewline⟩ := hmem
  have hprinted := JsonText.printed_objectText hc
  have hcode := toNat_eq_of_mem_utf8EncodeChar hnewline (by decide)
  rw [JsonText.Printed, ← hcode] at hprinted
  exact absurd hprinted (by decide)

/-- The same for `dump()`, whose text has no newline. -/
theorem exists_dump {parse : JsonParser} (hparse : ParsesTexts parse) {members : Members}
    (hsorted : members.Sorted) (hrange : members.InRange)
    (hflat : ∀ e ∈ members, e.2.scalar?.isSome) :
    ∃ text, members.dump? = some text ∧ newline ∉ text ∧ ∀ tail : String,
      (∀ c ∈ tail.toList, JsonText.isSpace c = true) →
        parse (text ++ bytesOf tail) = .ok (.object members) := by
  obtain ⟨text, htext⟩ := exists_text compact hflat
  exact ⟨text, htext, newline_notMem_dump htext, fun tail htail =>
    parse_text hparse JsonText.blank_compact hsorted hrange htext htail⟩

end Json.Members

/-- A parser that knows the texts of flat objects only. -/
def parseFlat : JsonParser := fun text =>
  match (String.fromUTF8? ⟨text.toArray⟩).bind fun text => readObject text.toList with
  | some members => .ok (.object (Json.Members.ofList (Json.Members.ofScalars members)))
  | none => .error .parseError

theorem parsesTexts_parseFlat : ParsesTexts parseFlat := by
  intro text members hread _ _
  rw [parseFlat, fromUTF8?_bytesOf, Option.bind_some, hread]

end Silence.Server
