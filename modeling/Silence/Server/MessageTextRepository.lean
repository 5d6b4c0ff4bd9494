import Silence.Common.Entities
import Silence.Lib.KeyValueStore
import Mathlib

/-!
# Silence.Server.MessageTextRepository

The texts of messages in Redis (`server/src/message_text_repository.cpp`).

A text is stored under the number that `INCR` gives, of 64 bits, and found under an id
of 32 bits. As long as the counter fits into an id, the store is a map from ids to texts
(`Inv.create`); the first message beyond that gets an id under which nothing is found
(`Inv.not_faithful`). `textRun_faithful_iff` says this of every run.
-/

namespace Silence.Server

open Silence.Lib (KeyValueStore)
open Common (MessageText)

/-! ### The repository -/

def messageIdCounter : String := "message_id_counter"

/-- `std::to_string`. -/
def keyOf (id : Int) : String := id.repr

namespace MessageTextRepository

/-- `create`. `INCR` throws where the counter would overflow. -/
def create (redis : KeyValueStore) (text : Bytes) : Int32 × KeyValueStore :=
  match redis.incr messageIdCounter with
  | none => (0, redis)
  | some (newId, redis) =>
      let redis := redis.set (keyOf newId) text
      match redis.get (keyOf newId) with
      | none => (0, redis)
      | some _ => (Int32.ofInt newId, redis)

def read (redis : KeyValueStore) (id : Int32) : Option MessageText :=
  (redis.get (keyOf id.toInt)).map fun text => ⟨id, text⟩

def update (redis : KeyValueStore) (message : MessageText) : Bool × KeyValueStore :=
  if redis.contains (keyOf message.id.toInt) then
    (true, redis.set (keyOf message.id.toInt) message.text)
  else (false, redis)

def remove (redis : KeyValueStore) (id : Int32) : Bool × KeyValueStore :=
  let (removed, redis) := redis.del (keyOf id.toInt)
  (removed > 0, redis)

end MessageTextRepository

open MessageTextRepository

/-! ### Runs -/

/-- A call of the repository. -/
inductive TextCall where
  | create (text : Bytes)
  | read (id : Int32)
  | update (message : MessageText)
  | remove (id : Int32)

/-- What a call was about, for its caller. -/
inductive TextEvent where
  | created (id : Int32) (text : Bytes)
  | read (id : Int32)
  | updated (id : Int32) (text : Bytes)
  | removed (id : Int32)
  deriving DecidableEq, Repr

/-- The text of the latest creation or update of an id, if it was not removed since; the latest
event is the first one. Only a text that is there can be updated. -/
def latestText (id : Int32) : List TextEvent → Option Bytes
  | [] => none
  | .created id' text :: earlier => if id' = id then some text else latestText id earlier
  | .read _ :: earlier => latestText id earlier
  | .updated id' text :: earlier =>
      if id' = id then (latestText id earlier).map fun _ => text else latestText id earlier
  | .removed id' :: earlier => if id' = id then none else latestText id earlier

/-- A run so far: the store, and the events, the latest one first. -/
structure TextRun where
  redis : KeyValueStore
  history : List TextEvent

/-- The store after a call, and the event. -/
def TextCall.run (redis : KeyValueStore) : TextCall → TextEvent × KeyValueStore
  | .create text =>
      let (id, redis) := MessageTextRepository.create redis text
      (.created id text, redis)
  | .read id => (.read id, redis)
  | .update message =>
      (.updated message.id message.text, (MessageTextRepository.update redis message).2)
  | .remove id => (.removed id, (MessageTextRepository.remove redis id).2)

def TextRun.call (s : TextRun) (call : TextCall) : TextRun :=
  ⟨(call.run s.redis).2, (call.run s.redis).1 :: s.history⟩

/-! ### The map from ids to texts -/

/-- The id that a call is about. -/
def TextEvent.id : TextEvent → Int32
  | .created id _ => id
  | .read id => id
  | .updated id _ => id
  | .removed id => id

/-- Every id has the text that the history says. -/
def TextRun.IsMap (s : TextRun) : Prop :=
  ∀ id, read s.redis id = (latestText id s.history).map fun text => ⟨id, text⟩

/-- A call gives an id that is not zero and new, if it gives one, and changes no other text. -/
structure TextRun.FaithfulCall (s : TextRun) (call : TextCall) : Prop where
  created : ∀ text, call = .create text →
    (create s.redis text).1 ≠ 0 ∧ ∀ text', .created (create s.redis text).1 text' ∉ s.history
  frame : ∀ id, id ≠ (call.run s.redis).1.id →
    read (s.call call).redis id = read s.redis id

/-- So are all calls of a run, and all states that it goes through. -/
def TextRun.Faithful (s : TextRun) : List TextCall → Prop
  | [] => s.IsMap
  | call :: calls => s.IsMap ∧ s.FaithfulCall call ∧ (s.call call).Faithful calls

/-- The counter of a store, which is not there before the first message. -/
def CounterIs (redis : KeyValueStore) (n : Nat) : Prop :=
  (redis.value messageIdCounter).getD (.integer 0) = .integer n

/-- A store with a counter and no texts. -/
structure StartsAt (redis : KeyValueStore) (n : Nat) : Prop where
  counter : CounterIs redis n
  bounded : n < 2 ^ 63
  empty : ∀ key, key ≠ messageIdCounter → redis.value key = none

/-- How many messages a run creates. -/
def creations : List TextCall → Nat
  | [] => 0
  | .create _ :: calls => creations calls + 1
  | .read _ :: calls => creations calls
  | .update _ :: calls => creations calls
  | .remove _ :: calls => creations calls

/-- The largest id. -/
def maxId : Nat := 2147483647

/-! ### Keys -/

theorem keyOf_injective : Function.Injective keyOf := fun _ _ => Int.repr_injective

@[simp] theorem keyOf_inj {n m : Int} : keyOf n = keyOf m ↔ n = m := keyOf_injective.eq_iff

/-- No number is the key of the counter. -/
theorem keyOf_ne_messageIdCounter (n : Int) : keyOf n ≠ messageIdCounter := by
  intro h
  have hletter : 'm' ∈ n.repr.toList := by
    rw [show n.repr = messageIdCounter from h]
    decide
  have hdigits : ∀ k : Nat, 'm' ∉ k.repr.toList := by
    intro k hk
    have hdigit : 'm'.isDigit = true :=
      @Nat.isDigit_of_mem_toDigits 10 k 'm' (by decide) (by decide) (by simpa [Nat.repr] using hk)
    exact absurd hdigit (by decide)
  rw [Int.repr_eq_if] at hletter
  split at hletter
  · exact hdigits _ hletter
  · rw [String.toList_append, List.mem_append] at hletter
    rcases hletter with hsign | hnumber
    · exact absurd hsign (by decide)
    · exact hdigits _ hnumber

/-! ### The commands of a call -/

section

variable {redis : KeyValueStore}

theorem create_of_lt {n : Nat} (hcounter : CounterIs redis n) (hn : n < 2 ^ 63 - 1)
    (text : Bytes) :
    create redis text = (Int32.ofInt (n + 1 : Int),
      (redis.put messageIdCounter (some (.integer (n + 1 : Int)))).set (keyOf (n + 1 : Int))
        text) := by
  have hincr := KeyValueStore.incr_of_lt hcounter (by omega) (by omega)
  rw [create, hincr]
  simp

theorem create_of_le {n : Nat} (hcounter : CounterIs redis n) (hn : 2 ^ 63 - 1 ≤ n)
    (text : Bytes) : create redis text = (0, redis) := by
  have hincr := KeyValueStore.incr_of_le hcounter (by omega)
  rw [create, hincr]

/-- Creating a text changes the value of no other number. -/
theorem get_create {n : Nat} (hcounter : CounterIs redis n) (text : Bytes) {k : Int}
    (hk : k ≠ n + 1) :
    (create redis text).2.get (keyOf k) = redis.get (keyOf k) := by
  by_cases hn : n < 2 ^ 63 - 1
  · have hkey : keyOf k ≠ keyOf (n + 1 : Int) := fun h => hk (keyOf_inj.mp h)
    rw [create_of_lt hcounter hn, KeyValueStore.get_set_of_ne hkey,
      KeyValueStore.get_put_of_ne (keyOf_ne_messageIdCounter k)]
  · rw [create_of_le hcounter (by omega)]

theorem get_update (message : MessageText) (k : Int) :
    (update redis message).2.get (keyOf k) =
      if message.id.toInt = k then (redis.get (keyOf k)).map fun _ => message.text
      else redis.get (keyOf k) := by
  unfold update
  rw [KeyValueStore.contains_eq]
  by_cases hk : message.id.toInt = k
  · subst hk
    rw [if_pos rfl]
    cases hget : redis.get (keyOf message.id.toInt) with
    | none => simp [hget]
    | some text => simp
  · have hkey : keyOf k ≠ keyOf message.id.toInt := fun h => hk (keyOf_inj.mp h).symm
    rw [if_neg hk]
    split
    · rw [KeyValueStore.get_set_of_ne hkey]
    · rfl

theorem get_remove (id : Int32) (k : Int) :
    (remove redis id).2.get (keyOf k) =
      if id.toInt = k then none else redis.get (keyOf k) := by
  show (redis.put (keyOf id.toInt) none).get (keyOf k) = _
  by_cases hk : id.toInt = k
  · subst hk
    rw [if_pos rfl, KeyValueStore.get_put_self, Option.map_none]
  · have hkey : keyOf k ≠ keyOf id.toInt := fun h => hk (keyOf_inj.mp h).symm
    rw [if_neg hk, KeyValueStore.get_put_of_ne hkey]

/-- Updates and removals leave the counter alone. -/
theorem CounterIs.update {n : Nat} (hcounter : CounterIs redis n) (message : MessageText) :
    CounterIs (update redis message).2 n := by
  have hkey : messageIdCounter ≠ keyOf message.id.toInt := (keyOf_ne_messageIdCounter _).symm
  unfold MessageTextRepository.update
  split
  · unfold CounterIs KeyValueStore.set
    rwa [KeyValueStore.value_put_of_ne hkey]
  · exact hcounter

theorem CounterIs.remove {n : Nat} (hcounter : CounterIs redis n) (id : Int32) :
    CounterIs (remove redis id).2 n := by
  have hkey : messageIdCounter ≠ keyOf id.toInt := (keyOf_ne_messageIdCounter _).symm
  show ((redis.put (keyOf id.toInt) none).value messageIdCounter).getD _ = _
  rwa [KeyValueStore.value_put_of_ne hkey]

end

/-! ### The invariant -/

/-- The store is the map of the history, and its counter fits into an id if a text was created. -/
structure TextRun.Inv (s : TextRun) (n : Nat) : Prop where
  counter : CounterIs s.redis n
  bounded : n < 2 ^ 63
  texts : ∀ id : Int32, s.redis.get (keyOf id.toInt) = latestText id s.history
  created : ∀ id text, .created id text ∈ s.history →
    (0 : Int) < id.toInt ∧ id.toInt ≤ (n : Int) ∧ n ≤ maxId

/-- Only what was created has a text. -/
theorem exists_created {id : Int32} {history : List TextEvent} (h : latestText id history ≠ none) :
    ∃ text, .created id text ∈ history := by
  induction history with
  | nil => exact absurd rfl h
  | cons event earlier ih =>
      have hearlier : latestText id earlier ≠ none →
          ∃ text, .created id text ∈ event :: earlier := by
        intro hsome
        obtain ⟨text, hmem⟩ := ih hsome
        exact ⟨text, List.mem_cons_of_mem _ hmem⟩
      cases event with
      | created id' text =>
          by_cases hid : id' = id
          · subst hid
            exact ⟨text, List.mem_cons_self⟩
          · rw [latestText, if_neg hid] at h
            exact hearlier h
      | read id' => exact hearlier h
      | updated id' text =>
          refine hearlier fun hnone => h ?_
          rw [latestText, hnone]
          simp
      | removed id' =>
          refine hearlier fun hnone => h ?_
          rw [latestText, hnone]
          simp

theorem TextRun.Inv.isMap {s : TextRun} {n : Nat} (h : s.Inv n) : s.IsMap := by
  intro id
  rw [MessageTextRepository.read, h.texts]

/-- Ids that fit are the numbers that they stand for. -/
theorem toInt_ofInt_of_le {n : Nat} (h : n ≤ maxId) : (Int32.ofInt (n : Int)).toInt = n := by
  have hmax : maxId = 2147483647 := rfl
  have hsize : Int32.size = 4294967296 := rfl
  rw [Int32.toInt_ofInt, hsize]
  exact Int.bmod_eq_of_le (by omega) (by omega)

section

variable {s : TextRun} {n : Nat}

/-- The event of a message that is created. -/
theorem TextRun.Inv.history_create (h : s.Inv n) (hn : n < 2 ^ 63 - 1) (text : Bytes) :
    (s.call (.create text)).history =
      .created (Int32.ofInt (n + 1 : Int)) text :: s.history := by
  show TextEvent.created (MessageTextRepository.create s.redis text).1 text :: s.history = _
  rw [create_of_lt h.counter hn]

/-- What is found under the other ids stays. -/
theorem TextRun.Inv.get_create_of_ne (h : s.Inv n) (text : Bytes) {id : Int32}
    (hne : id ≠ Int32.ofInt (n + 1 : Int)) :
    (s.call (.create text)).redis.get (keyOf id.toInt) = s.redis.get (keyOf id.toInt) := by
  refine get_create h.counter text fun hsame => hne ?_
  rw [← hsame, Int32.ofInt_toInt]

/-- The message that is created gets the next number as its id. -/
theorem TextRun.Inv.create (h : s.Inv n) (hn : n < maxId) (text : Bytes) :
    (s.call (.create text)).Inv (n + 1) := by
  have hmax : maxId = 2147483647 := rfl
  have hsmall : n < 2 ^ 63 - 1 := by omega
  have hredis : (s.call (.create text)).redis = (MessageTextRepository.create s.redis text).2 := rfl
  have hid : (Int32.ofInt (n + 1 : Int)).toInt = n + 1 := toInt_ofInt_of_le (n := n + 1) (by omega)
  refine ⟨?_, by omega, ?_, ?_⟩
  · rw [hredis, create_of_lt h.counter hsmall]
    unfold CounterIs
    dsimp only
    rw [KeyValueStore.set, KeyValueStore.value_put_of_ne (keyOf_ne_messageIdCounter _).symm,
      KeyValueStore.value_put_self]
    rfl
  · intro id
    rw [h.history_create hsmall, latestText]
    by_cases hsame : Int32.ofInt (n + 1 : Int) = id
    · rw [if_pos hsame, ← hsame, hid, hredis, create_of_lt h.counter hsmall,
        KeyValueStore.get_set_self]
    · rw [if_neg hsame, h.get_create_of_ne text (Ne.symm hsame), h.texts]
  · intro id text' hmem
    rw [h.history_create hsmall, List.mem_cons] at hmem
    rcases hmem with hnew | hold
    · cases hnew
      rw [hid]
      omega
    · have hrange := h.created id text' hold
      omega

/-- This id is new, and the texts of the others stay. -/
theorem TextRun.Inv.faithful_create (h : s.Inv n) (hn : n < maxId) (text : Bytes) :
    s.FaithfulCall (.create text) := by
  have hmax : maxId = 2147483647 := rfl
  have hsmall : n < 2 ^ 63 - 1 := by omega
  have hcreate := create_of_lt h.counter hsmall text
  have hid : (Int32.ofInt (n + 1 : Int)).toInt = n + 1 := toInt_ofInt_of_le (n := n + 1) (by omega)
  constructor
  · intro text' htext'
    cases htext'
    rw [hcreate]
    constructor
    · intro hzero
      have hint := congrArg Int32.toInt hzero
      rw [hid] at hint
      exact absurd hint (by simp; omega)
    · intro text' hmem
      have hrange := h.created _ _ hmem
      rw [hid] at hrange
      omega
  · intro id hne
    have hne' : id ≠ Int32.ofInt (n + 1 : Int) := by
      intro hsame
      refine hne ?_
      show id = (MessageTextRepository.create s.redis text).1
      rw [hcreate, hsame]
    unfold MessageTextRepository.read
    rw [h.get_create_of_ne text hne']

theorem TextRun.Inv.read (h : s.Inv n) (id : Int32) :
    (s.call (.read id)).Inv n ∧ s.FaithfulCall (.read id) := by
  constructor
  · refine ⟨h.counter, h.bounded, h.texts, ?_⟩
    intro id' text hmem
    rcases List.mem_cons.mp hmem with hnew | hold
    · cases hnew
    · exact h.created id' text hold
  · exact ⟨fun _ hcall => (nomatch hcall), fun _ _ => rfl⟩

/-- Only a text that is there changes. -/
theorem TextRun.Inv.update (h : s.Inv n) (message : MessageText) :
    (s.call (.update message)).Inv n ∧ s.FaithfulCall (.update message) := by
  have hget : ∀ id : Int32, (s.call (.update message)).redis.get (keyOf id.toInt) =
      if message.id = id then (s.redis.get (keyOf id.toInt)).map fun _ => message.text
      else s.redis.get (keyOf id.toInt) := by
    intro id
    show (MessageTextRepository.update s.redis message).2.get _ = _
    rw [get_update]
    simp [Int32.toInt_inj]
  constructor
  · refine ⟨h.counter.update message, h.bounded, ?_, ?_⟩
    · intro id
      rw [hget, h.texts]
      rfl
    · intro id text hmem
      rcases List.mem_cons.mp hmem with hnew | hold
      · cases hnew
      · exact h.created id text hold
  · refine ⟨fun _ hcall => (nomatch hcall), ?_⟩
    intro id hne
    have hother : message.id ≠ id := Ne.symm hne
    unfold MessageTextRepository.read
    rw [hget, if_neg hother]

theorem TextRun.Inv.remove (h : s.Inv n) (id : Int32) :
    (s.call (.remove id)).Inv n ∧ s.FaithfulCall (.remove id) := by
  have hget : ∀ id' : Int32, (s.call (.remove id)).redis.get (keyOf id'.toInt) =
      if id = id' then none else s.redis.get (keyOf id'.toInt) := by
    intro id'
    show (MessageTextRepository.remove s.redis id).2.get _ = _
    rw [get_remove]
    simp [Int32.toInt_inj]
  constructor
  · refine ⟨h.counter.remove id, h.bounded, ?_, ?_⟩
    · intro id'
      rw [hget, h.texts]
      rfl
    · intro id' text hmem
      rcases List.mem_cons.mp hmem with hnew | hold
      · cases hnew
      · exact h.created id' text hold
  · refine ⟨fun _ hcall => (nomatch hcall), ?_⟩
    intro id' hne
    have hother : id ≠ id' := Ne.symm hne
    unfold MessageTextRepository.read
    rw [hget, if_neg hother]

/-- An id that the counter does not fit into: nothing is found under it. -/
theorem TextRun.Inv.not_faithful (h : s.Inv n) (hn : maxId ≤ n) (text : Bytes) :
    ¬ (s.FaithfulCall (.create text) ∧ (s.call (.create text)).IsMap) := by
  intro hboth
  obtain ⟨hcall, hmap⟩ := hboth
  have hmax : maxId = 2147483647 := rfl
  obtain ⟨hnonzero, -⟩ := hcall.created text rfl
  by_cases hsmall : n < 2 ^ 63 - 1
  · have hlt := (Int32.ofInt (n + 1 : Int)).toInt_lt
    have hother : (Int32.ofInt (n + 1 : Int)).toInt ≠ n + 1 := by omega
    -- the id was not created before: either it is negative, or nothing was created at all
    have hnew : ∀ text', .created (Int32.ofInt (n + 1 : Int)) text' ∉ s.history := by
      intro text' hmem
      have hrange := h.created _ _ hmem
      have hn' : n = maxId := by omega
      have hnegative : (Int32.ofInt (n + 1 : Int)).toInt = -2147483648 := by
        rw [hn']
        rfl
      omega
    have hnone : latestText (Int32.ofInt (n + 1 : Int)) s.history = none := by
      by_contra hsome
      obtain ⟨text', hmem⟩ := exists_created hsome
      exact hnew text' hmem
    have hread := hmap (Int32.ofInt (n + 1 : Int))
    unfold MessageTextRepository.read at hread
    rw [show (s.call (.create text)).redis = (MessageTextRepository.create s.redis text).2 from rfl,
      get_create h.counter text hother, h.texts, hnone] at hread
    rw [h.history_create hsmall, latestText, if_pos rfl] at hread
    cases hread
  · refine hnonzero ?_
    rw [create_of_le h.counter (by omega)]

end

theorem TextRun.Faithful.isMap {s : TextRun} {calls : List TextCall} (h : s.Faithful calls) :
    s.IsMap := by
  cases calls with
  | nil => exact h
  | cons call calls => exact h.1

/-- A call that creates nothing decides nothing. -/
theorem faithful_cons_iff {s : TextRun} {n : Nat} {call : TextCall} {calls : List TextCall}
    (h : s.Inv n) (hcall : s.FaithfulCall call) :
    s.Faithful (call :: calls) ↔ (s.call call).Faithful calls := by
  show s.IsMap ∧ s.FaithfulCall call ∧ _ ↔ _
  simp only [h.isMap, hcall, true_and]

theorem faithful_iff_of_inv {s : TextRun} {n : Nat} (h : s.Inv n) (calls : List TextCall) :
    s.Faithful calls ↔ creations calls ≤ maxId - n := by
  induction calls generalizing s n with
  | nil => exact iff_of_true h.isMap (Nat.zero_le _)
  | cons call calls ih =>
      cases call with
      | create text =>
          by_cases hn : n < maxId
          · rw [faithful_cons_iff h (h.faithful_create hn text), ih (h.create hn text), creations]
            omega
          · refine iff_of_false ?_ ?_
            · intro hfaithful
              exact h.not_faithful (by omega) text
                ⟨hfaithful.2.1, TextRun.Faithful.isMap hfaithful.2.2⟩
            · rw [creations]
              omega
      | read id =>
          obtain ⟨hinv, hcall⟩ := h.read id
          rw [faithful_cons_iff h hcall, ih hinv, creations]
      | update message =>
          obtain ⟨hinv, hcall⟩ := h.update message
          rw [faithful_cons_iff h hcall, ih hinv, creations]
      | remove id =>
          obtain ⟨hinv, hcall⟩ := h.remove id
          rw [faithful_cons_iff h hcall, ih hinv, creations]

theorem StartsAt.inv {redis : KeyValueStore} {n : Nat} (h : StartsAt redis n) :
    (⟨redis, []⟩ : TextRun).Inv n where
  counter := h.counter
  bounded := h.bounded
  texts := by
    intro id
    show (redis.value (keyOf id.toInt)).map _ = none
    rw [h.empty _ (keyOf_ne_messageIdCounter _), Option.map_none]
  created := fun _ _ hmem => nomatch hmem

/-- A run is that of a map from ids to texts if and only if the counter fits into an id whenever a
message is created. -/
theorem textRun_faithful_iff {redis : KeyValueStore} {n : Nat} (h : StartsAt redis n)
    (calls : List TextCall) :
    (⟨redis, []⟩ : TextRun).Faithful calls ↔ creations calls ≤ maxId - n :=
  faithful_iff_of_inv h.inv calls

/-! ### The first id that does not fit -/

/-- A store whose counter has a value, and no texts. -/
def counting (n : Nat) : KeyValueStore :=
  ⟨fun key => if key = messageIdCounter then some (.integer n) else none⟩

theorem startsAt_counting {n : Nat} (hn : n < 2 ^ 63) : StartsAt (counting n) n where
  counter := rfl
  bounded := hn
  empty := fun _ hkey => if_neg hkey

/-- The message behind the largest id gets a negative one, under which nothing is found. -/
theorem create_narrowed :
    (create (counting maxId) [0x61]).1 = -2147483648 ∧
      read (create (counting maxId) [0x61]).2 (-2147483648) = none ∧
      ¬ (⟨counting maxId, []⟩ : TextRun).Faithful [.create [0x61]] := by
  have hcounter : CounterIs (counting maxId) maxId := rfl
  refine ⟨?_, ?_, ?_⟩
  · rw [create_of_lt hcounter (by decide)]
    rfl
  · have hother : ((-2147483648 : Int32).toInt) ≠ maxId + 1 := by decide
    unfold MessageTextRepository.read
    rw [get_create hcounter _ hother]
    rfl
  · have hinv := (startsAt_counting (n := maxId) (by decide)).inv
    rw [faithful_iff_of_inv hinv]
    decide

/-- Two messages are created and one is changed. -/
theorem textRun_faithful_counting :
    (⟨counting 7, []⟩ : TextRun).Faithful
      [.create [0x61], .create [0x62], .update ⟨8, [0x63]⟩, .remove 9] :=
  (textRun_faithful_iff (startsAt_counting (by decide)) _).mpr (by decide)

end Silence.Server
