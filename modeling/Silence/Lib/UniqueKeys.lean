import Mathlib.Data.List.Nodup

/-!
# Silence.Lib.UniqueKeys

Tables as lists of rows in which a key occurs once.

A row is determined by such a key (`UniqueKeys.eq_of_mem`). Rows are added, removed, and
replaced in place.
-/

namespace Silence.Lib

variable {α κ μ : Type} {key : α → κ} {rows : List α}

/-- No key occurs twice. -/
def UniqueKeys (key : α → κ) (rows : List α) : Prop := (rows.map key).Nodup

namespace UniqueKeys

theorem nil : UniqueKeys key [] := List.nodup_nil

theorem eq_of_mem (h : UniqueKeys key rows) {row row' : α} (hrow : row ∈ rows)
    (hrow' : row' ∈ rows) (hkey : key row = key row') : row = row' :=
  List.inj_on_of_nodup_map h hrow hrow' hkey

theorem snoc (h : UniqueKeys key rows) {row : α} (hnew : ∀ row' ∈ rows, key row' ≠ key row) :
    UniqueKeys key (rows ++ [row]) := by
  unfold UniqueKeys
  rw [List.map_append, List.map_singleton]
  refine List.nodup_append.mpr ⟨h, List.nodup_singleton _, ?_⟩
  intro k hk k' hk'
  obtain ⟨row', hrow', rfl⟩ := List.mem_map.mp hk
  rw [List.mem_singleton.mp hk']
  exact hnew row' hrow'

theorem filter (h : UniqueKeys key rows) (p : α → Bool) : UniqueKeys key (rows.filter p) :=
  h.sublist (List.filter_sublist.map key)

/-- The rows that are chosen by one key are replaced by a row with a new value of another one. -/
theorem replace [DecidableEq μ] (h : UniqueKeys key rows) {chosen : α → μ}
    (hchosen : UniqueKeys chosen rows) {m : μ} {row : α}
    (hnew : ∀ row' ∈ rows, chosen row' ≠ m → key row' ≠ key row) :
    UniqueKeys key (rows.map fun row' => if chosen row' = m then row else row') := by
  unfold UniqueKeys List.Nodup at *
  rw [List.pairwise_map] at *
  rw [List.pairwise_map]
  refine List.Pairwise.imp_of_mem ?_ (List.Pairwise.and h hchosen)
  rintro a b ha hb ⟨hkey, hother⟩
  by_cases hma : chosen a = m
  · have hmb : chosen b ≠ m := fun heq => hother (hma.trans heq.symm)
    rw [if_pos hma, if_neg hmb]
    exact (hnew b hb hmb).symm
  · rw [if_neg hma]
    split
    · exact hnew a ha hma
    · exact hkey

end UniqueKeys

end Silence.Lib
