import Mathlib.Algebra.Ring.Int.Defs
import Mathlib.Logic.Function.Basic

/-!
# Silence.Lib.KeyValueStore

A store from keys to byte strings, with the commands of Redis that act on one key.

A value that `INCR` has written is kept as the integer that it is; `GET` gives its
decimal text.
-/

namespace Silence.Lib

/-- A value: any bytes, or an integer. -/
inductive StoredValue where
  | bytes (value : List UInt8)
  | integer (value : Int)
  deriving DecidableEq, Repr

/-- The integer that a text writes in decimal, without leading zeros. -/
def integerOf (text : String) : Option Int := text.toInt?.filter fun n => n.repr = text

/-- The integer that `INCR` takes a value for. -/
def StoredValue.integer? : StoredValue → Option Int
  | .bytes value => (String.fromUTF8? ⟨value.toArray⟩).bind integerOf
  | .integer value => some value

/-- The text of a value. -/
def StoredValue.text : StoredValue → List UInt8
  | .bytes value => value
  | .integer value => value.repr.toUTF8.data.toList

structure KeyValueStore where
  value : String → Option StoredValue

namespace KeyValueStore

variable (store : KeyValueStore)

/-- The store with one value replaced, or removed. -/
def put (key : String) (value : Option StoredValue) : KeyValueStore :=
  ⟨Function.update store.value key value⟩

/-! ### The commands -/

/-- `GET`. -/
def get (key : String) : Option (List UInt8) := (store.value key).map StoredValue.text

/-- `SET`. -/
def set (key : String) (value : List UInt8) : KeyValueStore := store.put key (some (.bytes value))

/-- `EXISTS`. -/
def contains (key : String) : Bool := (store.value key).isSome

/-- `DEL`, with the number of the keys that it has removed. -/
def del (key : String) : Nat × KeyValueStore :=
  (if store.contains key then 1 else 0, store.put key none)

/-- `INCR`: the new value, which is kept in 64 bits; none if there is no integer, or if it would
overflow. -/
def incr (key : String) : Option (Int × KeyValueStore) := do
  let value ← ((store.value key).getD (.integer 0)).integer?
  if -2 ^ 63 ≤ value ∧ value < 2 ^ 63 - 1 then
    some (value + 1, store.put key (some (.integer (value + 1))))
  else none

/-! ### What is found behind a command -/

variable {store}

@[simp] theorem get_put_self (key : String) (value : Option StoredValue) :
    (store.put key value).get key = value.map StoredValue.text := by
  simp [get, put]

@[simp] theorem get_put_of_ne {key key' : String} (h : key' ≠ key) (value : Option StoredValue) :
    (store.put key value).get key' = store.get key' := by
  simp [get, put, h]

@[simp] theorem get_set_self (key : String) (value : List UInt8) :
    (store.set key value).get key = some value := get_put_self key _

@[simp] theorem get_set_of_ne {key key' : String} (h : key' ≠ key) (value : List UInt8) :
    (store.set key value).get key' = store.get key' := get_put_of_ne h _

@[simp] theorem value_put_self (key : String) (value : Option StoredValue) :
    (store.put key value).value key = value := by
  simp [put]

@[simp] theorem value_put_of_ne {key key' : String} (h : key' ≠ key) (value : Option StoredValue) :
    (store.put key value).value key' = store.value key' := by
  simp [put, h]

theorem contains_eq (key : String) : store.contains key = (store.get key).isSome := by
  simp [contains, get]

theorem incr_of_lt {key : String} {value : Int}
    (hvalue : (store.value key).getD (.integer 0) = .integer value) (hlow : -2 ^ 63 ≤ value)
    (hhigh : value < 2 ^ 63 - 1) :
    store.incr key = some (value + 1, store.put key (some (.integer (value + 1)))) := by
  have hread : ((store.value key).getD (.integer 0)).integer? = some value := by
    rw [hvalue]
    rfl
  rw [incr, hread, Option.bind_eq_bind, Option.bind_some, if_pos ⟨hlow, hhigh⟩]

/-- The counter cannot get larger. -/
theorem incr_of_le {key : String} {value : Int}
    (hvalue : (store.value key).getD (.integer 0) = .integer value) (hhigh : 2 ^ 63 - 1 ≤ value) :
    store.incr key = none := by
  have hread : ((store.value key).getD (.integer 0)).integer? = some value := by
    rw [hvalue]
    rfl
  rw [incr, hread, Option.bind_eq_bind, Option.bind_some, if_neg fun h => absurd h.2 (by omega)]

end KeyValueStore

end Silence.Lib
