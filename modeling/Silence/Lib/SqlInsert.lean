import Mathlib.Init

/-!
# Silence.Lib.SqlInsert

What `INSERT INTO` does with the columns that it names, and with those that it omits.

A row is a list of values in the order of the columns, `none` for `NULL`. A column that
is not named takes its default, or `NULL` if it has none; a column that is declared
`NOT NULL` refuses that. `fillRow_isSome_iff` says which statements can be carried out as
far as the columns go.
-/

namespace Silence.Lib

/-- A column as it is declared, with the value of its default at the time of the statement. -/
structure Column (V : Type) where
  name : String
  notNull : Bool
  default : Option V

section

variable {V : Type}

/-- The value of a column in the new row, none if the statement fails there. -/
def Column.fill (column : Column V) (values : List (String × Option V)) : Option (Option V) :=
  let value := (values.lookup column.name).getD column.default
  if column.notNull && value.isNone then none else some value

/-- The new row. -/
def fillRow (columns : List (Column V)) (values : List (String × Option V)) :
    Option (List (Option V)) :=
  columns.mapM (Column.fill · values)

/-- The statement gives the column a value, or leaves one to it. -/
def Column.Filled (column : Column V) (values : List (String × Option V)) : Prop :=
  column.notNull = true → ((values.lookup column.name).getD column.default).isSome

theorem Column.fill_isSome_iff (column : Column V) (values : List (String × Option V)) :
    (column.fill values).isSome ↔ column.Filled values := by
  unfold Column.fill Column.Filled
  cases column.notNull <;> cases (values.lookup column.name).getD column.default <;> simp

/-- A statement can be carried out if it fills every column. -/
theorem fillRow_isSome_iff (columns : List (Column V)) (values : List (String × Option V)) :
    (fillRow columns values).isSome ↔ ∀ column ∈ columns, column.Filled values := by
  induction columns with
  | nil => simp [fillRow]
  | cons column columns ih =>
      have hcolumn := column.fill_isSome_iff values
      unfold fillRow at ih ⊢
      rw [List.forall_mem_cons, ← hcolumn, ← ih, List.mapM_cons]
      cases column.fill values with
      | none => simp
      | some value => cases columns.mapM (Column.fill · values) <;> simp

/-- An omitted column that is `NOT NULL` and has no default: the statement fails. -/
theorem fillRow_eq_none {columns : List (Column V)} {values : List (String × Option V)}
    {column : Column V} (hcolumn : column ∈ columns) (hnotNull : column.notNull = true)
    (hdefault : column.default = none) (homitted : values.lookup column.name = none) :
    fillRow columns values = none := by
  rw [← Option.not_isSome_iff_eq_none, fillRow_isSome_iff]
  intro h
  have hfilled := h column hcolumn hnotNull
  rw [homitted, Option.getD_none, hdefault] at hfilled
  cases hfilled

end

end Silence.Lib
