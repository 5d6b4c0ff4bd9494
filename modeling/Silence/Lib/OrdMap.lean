import Mathlib.Data.List.Basic
import Mathlib.Order.Lattice
import Mathlib.Tactic.SplitIfs

/-!
# Silence.Lib.OrdMap

An ordered map as the list of its entries in increasing order of the keys: the
model of a `std::map`, whose iteration order programs can observe.

The order of the entries is a field of the structure, so a map has one
representation and every key occurs at most once.
-/

namespace Silence.Lib

/-- A finite map with its entries in the order of the keys. -/
structure OrdMap (κ β : Type*) [LinearOrder κ] where
  entries : List (κ × β)
  sorted : entries.Pairwise fun a b => a.1 < b.1

namespace OrdMap

variable {κ β : Type*} [LinearOrder κ]

/-- The empty map. -/
def empty : OrdMap κ β := ⟨[], .nil⟩

/-- The value at a key. -/
def find? (m : OrdMap κ β) (k : κ) : Option β := (m.entries.find? (·.1 = k)).map (·.2)

/-- The entries with the value at `k` set to `v`. -/
def insertEntry (k : κ) (v : β) : List (κ × β) → List (κ × β)
  | [] => [(k, v)]
  | e :: es =>
      if k < e.1 then (k, v) :: e :: es
      else if k = e.1 then (k, v) :: es
      else e :: insertEntry k v es

theorem mem_insertEntry {k : κ} {v : β} {es : List (κ × β)} {e : κ × β}
    (h : e ∈ insertEntry k v es) : e = (k, v) ∨ e ∈ es := by
  induction es with
  | nil => exact Or.inl (List.mem_singleton.mp h)
  | cons e' es ih =>
      rw [insertEntry] at h
      split at h
      · exact List.mem_cons.mp h
      · split at h
        · exact (List.mem_cons.mp h).imp_right (List.mem_cons_of_mem e')
        · rcases List.mem_cons.mp h with rfl | h
          · exact Or.inr List.mem_cons_self
          · exact (ih h).imp_right (List.mem_cons_of_mem e')

theorem sorted_insertEntry (k : κ) (v : β) {es : List (κ × β)}
    (h : es.Pairwise fun a b => a.1 < b.1) :
    (insertEntry k v es).Pairwise fun a b => a.1 < b.1 := by
  induction es with
  | nil => exact List.pairwise_singleton _ _
  | cons e es ih =>
      obtain ⟨hhead, htail⟩ := List.pairwise_cons.mp h
      rw [insertEntry]
      split
      · rename_i hlt
        refine List.pairwise_cons.mpr ⟨fun a ha => ?_, h⟩
        rcases List.mem_cons.mp ha with rfl | ha
        · exact hlt
        · exact lt_trans hlt (hhead a ha)
      · split
        · rename_i heq
          exact List.pairwise_cons.mpr ⟨fun a ha => heq ▸ hhead a ha, htail⟩
        · rename_i hnlt hne
          refine List.pairwise_cons.mpr ⟨fun a ha => ?_, ih htail⟩
          rcases mem_insertEntry ha with rfl | ha
          · exact lt_of_le_of_ne (not_lt.mp hnlt) (Ne.symm hne)
          · exact hhead a ha

/-- `m[k] = v`. -/
def insert (m : OrdMap κ β) (k : κ) (v : β) : OrdMap κ β :=
  ⟨insertEntry k v m.entries, sorted_insertEntry k v m.sorted⟩

/-- Erase the first entry, in the order of the keys, that satisfies `p`. -/
def eraseFirst (m : OrdMap κ β) (p : κ × β → Bool) : OrdMap κ β :=
  ⟨m.entries.eraseP p, m.sorted.sublist List.eraseP_sublist⟩

@[simp] theorem find?_empty (k : κ) : (empty : OrdMap κ β).find? k = none := rfl

theorem find?_insert_self (m : OrdMap κ β) (k : κ) (v : β) :
    (m.insert k v).find? k = some v := by
  obtain ⟨es, hsorted⟩ := m
  simp only [insert, find?]
  clear hsorted
  induction es with
  | nil => simp [insertEntry]
  | cons e es ih =>
      rw [insertEntry]
      split_ifs with hlt heq
      · simp
      · simp
      · simpa [Ne.symm heq] using ih

theorem find?_insert_ne (m : OrdMap κ β) {k k' : κ} (h : k' ≠ k) (v : β) :
    (m.insert k v).find? k' = m.find? k' := by
  obtain ⟨es, hsorted⟩ := m
  simp only [insert, find?]
  clear hsorted
  induction es with
  | nil => simp [insertEntry, Ne.symm h]
  | cons e es ih =>
      rw [insertEntry]
      split_ifs with hlt heq
      · simp [Ne.symm h]
      · have hne : e.1 ≠ k' := fun he => h (he ▸ heq.symm)
        simp [Ne.symm h, hne]
      · by_cases he : e.1 = k'
        · simp [he]
        · simpa [he] using ih

theorem find?_insert (m : OrdMap κ β) (k k' : κ) (v : β) :
    (m.insert k v).find? k' = if k' = k then some v else m.find? k' := by
  split
  · rename_i heq
    rw [heq, find?_insert_self]
  · rename_i hne
    exact find?_insert_ne m hne v

/-- Storing what is there already changes nothing. -/
theorem insertEntry_of_mem {k : κ} {v : β} {es : List (κ × β)}
    (hsorted : es.Pairwise fun a b => a.1 < b.1) (h : (k, v) ∈ es) :
    insertEntry k v es = es := by
  induction es with
  | nil => cases h
  | cons e es ih =>
      obtain ⟨hhead, htail⟩ := List.pairwise_cons.mp hsorted
      rw [insertEntry]
      rcases List.mem_cons.mp h with rfl | hmem
      · rw [if_neg (lt_irrefl k), if_pos rfl]
      · have hlt : e.1 < k := hhead _ hmem
        rw [if_neg (not_lt.mpr (le_of_lt hlt)), if_neg (ne_of_gt hlt), ih htail hmem]

theorem mem_of_find? {m : OrdMap κ β} {k : κ} {v : β} (h : m.find? k = some v) :
    (k, v) ∈ m.entries := by
  obtain ⟨e, he, rfl⟩ := Option.map_eq_some_iff.mp h
  have hkey : e.1 = k := by simpa using List.find?_some he
  rw [← hkey]
  exact List.mem_of_find?_eq_some he

theorem find?_of_mem {m : OrdMap κ β} {k : κ} {v : β} (h : (k, v) ∈ m.entries) :
    m.find? k = some v := by
  obtain ⟨es, hsorted⟩ := m
  simp only [find?] at h ⊢
  induction es with
  | nil => cases h
  | cons e es ih =>
      obtain ⟨hhead, htail⟩ := List.pairwise_cons.mp hsorted
      rcases List.mem_cons.mp h with rfl | hmem
      · simp
      · have hne : e.1 ≠ k := ne_of_lt (hhead _ hmem)
        simpa [hne] using ih htail hmem

/-- The key of the entry that is erased has no value then, the others keep theirs. -/
theorem find?_eraseFirst (m : OrdMap κ β) (p : κ × β → Bool) (k : κ) :
    (m.eraseFirst p).find? k =
      if (m.entries.find? p).map (·.1) = some k then none else m.find? k := by
  obtain ⟨es, hsorted⟩ := m
  simp only [eraseFirst, find?]
  induction es with
  | nil => simp
  | cons e es ih =>
      obtain ⟨hhead, htail⟩ := List.pairwise_cons.mp hsorted
      cases hp : p e with
      | true =>
          by_cases hk : e.1 = k
          · have habsent : es.find? (·.1 = k) = none := by
              rw [List.find?_eq_none]
              intro a ha
              simpa [← hk] using ne_of_gt (hhead a ha)
            simp [hp, hk, habsent]
          · simp [hp, hk]
      | false =>
          by_cases hk : e.1 = k
          · have hother : (es.find? p).map (·.1) ≠ some k := by
              intro hfound
              obtain ⟨a, ha, rfl⟩ := Option.map_eq_some_iff.mp hfound
              exact ne_of_lt (hhead a (List.mem_of_find?_eq_some ha)) hk
            simp [hp, hk, hother]
          · have hrest : (e :: es).find? p = es.find? p := List.find?_cons_of_neg (by simp [hp])
            rw [hrest]
            simpa [hp, hk] using ih htail

/-- Erasing a key removes it, and no other one. -/
theorem find?_eraseFirst_key (m : OrdMap κ β) (k k' : κ) :
    (m.eraseFirst fun e => e.1 = k).find? k' = if k' = k then none else m.find? k' := by
  rw [find?_eraseFirst]
  cases hfound : m.entries.find? fun e => e.1 = k with
  | none =>
      rw [Option.map_none, if_neg (by simp)]
      split
      · rename_i hsame
        rw [hsame, find?, hfound, Option.map_none]
      · rfl
  | some e =>
      have hkey : e.1 = k := by simpa using List.find?_some hfound
      simp [hkey, eq_comm]

theorem insert_eq_self {m : OrdMap κ β} {k : κ} {v : β} (h : m.find? k = some v) :
    m.insert k v = m := by
  obtain ⟨es, hsorted⟩ := m
  have hes := insertEntry_of_mem hsorted (mem_of_find? h)
  simp only [insert, hes]

end OrdMap

end Silence.Lib
