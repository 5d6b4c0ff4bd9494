import Mathlib.Data.List.Basic
import Mathlib.Tactic.NthRewrite

/-!
# Silence.Lib.LexicalPath

Walks in a tree of named directories, and where they end.

A position is the list of the names that lead to it from the root. `normal`
brings a walk into the form that first climbs and then only descends, from which
`prefix_walk_iff` reads off whether it ends below the position it started from.
-/

namespace Silence.Lib

variable {α : Type*}

/-- One step of a walk. The parent of the root is the root. -/
inductive Move (α : Type*) where
  | up
  | stay
  | down (name : α)
  deriving DecidableEq, Repr

/-- The position after a step. -/
def Move.apply (position : List α) : Move α → List α
  | up => position.dropLast
  | stay => position
  | down name => position ++ [name]

/-- The position at the end of a walk. -/
def walk (start : List α) (moves : List (Move α)) : List α := moves.foldl Move.apply start

theorem walk_append (start : List α) (moves moves' : List (Move α)) :
    walk start (moves ++ moves') = walk (walk start moves) moves' := List.foldl_append

/-- A walk that climbs some levels and then descends. -/
structure Normal (α : Type*) where
  ups : Nat
  names : List α
  deriving DecidableEq, Repr

/-- One more step. -/
def Normal.extend (n : Normal α) : Move α → Normal α
  | .up => if n.names.isEmpty then ⟨n.ups + 1, []⟩ else ⟨n.ups, n.names.dropLast⟩
  | .stay => n
  | .down name => ⟨n.ups, n.names ++ [name]⟩

/-- The normal form of a walk. -/
def normal (moves : List (Move α)) : Normal α := moves.foldl Normal.extend ⟨0, []⟩

/-- The position that a normal form leads to. -/
def Normal.walk (start : List α) (n : Normal α) : List α :=
  start.take (start.length - n.ups) ++ n.names

theorem Normal.walk_extend (start : List α) (n : Normal α) (move : Move α) :
    (n.extend move).walk start = move.apply (n.walk start) := by
  cases move with
  | up =>
      by_cases hempty : n.names = []
      · have hup : n.extend .up = ⟨n.ups + 1, []⟩ := by rw [Normal.extend, hempty]; rfl
        rw [hup]
        simp only [Normal.walk, Move.apply, hempty, List.append_nil, List.dropLast_eq_take,
          List.take_take, List.length_take]
        congr 1
        omega
      · rw [Normal.extend, if_neg (by simpa using hempty)]
        exact (List.dropLast_append_of_ne_nil hempty).symm
  | stay => rfl
  | down name => exact (List.append_assoc _ _ _).symm

/-- A walk ends where its normal form leads. -/
theorem walk_eq_normal (start : List α) (moves : List (Move α)) :
    walk start moves = (normal moves).walk start := by
  have hgeneral : ∀ n : Normal α,
      walk (n.walk start) moves = (moves.foldl Normal.extend n).walk start := by
    induction moves with
    | nil => exact fun n => rfl
    | cons move moves ih =>
        intro n
        rw [List.foldl_cons, ← ih (n.extend move), Normal.walk_extend]
        rfl
  have hstart : (⟨0, []⟩ : Normal α).walk start = start := by simp [Normal.walk]
  rw [normal, ← hgeneral, hstart]

/-- A walk ends at or below its start if and only if it descends again by the names that it has
climbed. -/
theorem prefix_walk_iff (start : List α) (moves : List (Move α)) :
    start <+: walk start moves ↔
      start.drop (start.length - (normal moves).ups) <+: (normal moves).names := by
  rw [walk_eq_normal, Normal.walk]
  nth_rewrite 1 [← List.take_append_drop (start.length - (normal moves).ups) start]
  rw [List.prefix_append_right_inj]

/-- From the root, the names of the normal form are the position. -/
theorem walk_root (moves : List (Move α)) : walk [] moves = (normal moves).names := by
  rw [walk_eq_normal, Normal.walk, List.take_nil, List.nil_append]

/-- Descending never leaves. -/
theorem prefix_walk_down (start names : List α) : start <+: walk start (names.map .down) := by
  induction names generalizing start with
  | nil => exact List.prefix_refl start
  | cons name names ih => exact (List.prefix_append start [name]).trans (ih (start ++ [name]))

end Silence.Lib
